import DiceLang.Proofs.Honesty
import DiceLang.Proofs.ReadingComplete

/-!
# Readings are honest

Each phrase of the notation, read where it is awaited, keeps an honest account of what it looks for.
What is nested is read one level further down, of which no more is known than `HonestBelow` says.

* `HonestBelow`: what is known of the reading of what is nested;
* `expr_honest`, `count_honest`, .. : one lemma for each phrase.
-/

namespace DiceLang

namespace Grammar

open Phrase

variable {all before ls : List Lexeme} {depth maxDigits n : Nat} {below : Nested → Phrase Expr}
  {c : Cursor} {next : Option Lexeme}

/-- What is known of the reading of what is nested one level further down. -/
structure HonestBelow (all : List Lexeme) (depth maxDigits n : Nat)
    (below : Nested → Phrase Expr) : Prop where
  sound : SoundBelow depth maxDigits n below
  stays : BelowStays all.length below
  honest : ∀ (what : Nested) {before : List Lexeme} {c : Cursor}, c.After all before →
    AwaitsBelow n before what → Honest all (below what) c

/-- The rules of places, for the phrases with that many digits. -/
theorem HonestBelow.closed (_ : HonestBelow all depth maxDigits n below) :
    Closed maxDigits (StaysIn all.length) := StaysIn.closed maxDigits

variable (h : HonestBelow all depth maxDigits n below) (hc : c.After all before)
include h hc

theorem expr_honest (hawait : Awaits n before .expr) : Honest all (expr below) c :=
  h.honest .sum hc hawait

omit h hc in
theorem count_lacks (hawait : Awaits n before .count)
    (hnumber : ∀ digits, next ≠ some (.number digits)) (hparen : next ≠ some (.symbol .openParen)) :
    Lacks before next [.symbol .openParen, .number] := by
  refine .cons ?_ (Expectation.admits_symbol_of_ne hparen) (.single ?_ ?_)
  · exact hawait.follows_first _ (.zero_paren (Nat.lt_succ_self n)) rfl (by simp)
  · exact hawait.follows_first n .zero_count rfl (by simp)
  · exact Expectation.admits_number_of_ne hnumber

theorem count_honest (hawait : Awaits n before .count) : Honest all (count maxDigits below) c := by
  refine .ahead ?_
  split
  · rename_i digits hd
    obtain ⟨tl, hl⟩ := List.head?_eq_some_iff.mp hd
    split
    · exact .refuse
    · split
      · exact .refuse
      · exact .skip hc hl fun _ => .pure
  · rename_i hd
    obtain ⟨tl, hl⟩ := List.head?_eq_some_iff.mp hd
    refine .skip hc hl fun hc => ?_
    have hinner : Awaits n (before ++ [.symbol .openParen]) .expr := fun depth ls e he =>
      .of_append [.symbol .closeParen] (by simpa using hawait _ _ _ (.paren he)) (by simp)
    refine .bind hc (expr_honest h hc hinner) (expr_sound h.sound _) (h.stays .sum _)
      fun ls e rest _ hrest he => ?_
    have hclose : (Expectation.symbol .closeParen).Follows
        (before ++ [.symbol .openParen] ++ ls) := by
      rw [List.append_assoc]
      exact hawait.follows _ (.paren he) rfl (by simp)
    exact .symbol_bind hrest hclose fun _ _ => .pure
  · rename_i hnumber hparen
    exact .lacking hc (count_lacks hawait hnumber hparen)

/-! ## Conditions -/

omit h hc in
theorem mem_comparisons {e : Expectation}
    (he : e ∈ Comparison.all.map fun comparison => .symbol (Symbol.ofComparison comparison)) :
    ∃ comparison, e = .symbol (.ofComparison comparison) := by
  obtain ⟨comparison, _, rfl⟩ := List.mem_map.mp he
  exact ⟨comparison, rfl⟩

/-- A condition that starts with a comparison: what comes in front of the count is over. -/
theorem comparison_honest (hcomparison : startsWithComparison c.ahead = true)
    (hawait : ∀ depth ls comparison e, Derives depth n ls (.count e) →
      Begins (before ++ .symbol (.ofComparison comparison) :: ls)) :
    Honest all (condition maxDigits below) c := by
  obtain ⟨comparison, tl, hl⟩ := startsWithComparison_iff.mp hcomparison
  refine .ahead ?_
  rw [hl]
  simp only [List.head?_cons, Symbol.comparison_ofComparison]
  refine .skip hc hl fun hnext => ?_
  have hcount : Awaits n (before ++ [.symbol (.ofComparison comparison)]) .count :=
    fun depth ls e he => by simpa using hawait depth ls comparison e he
  refine .bind hnext ?_ (.orWanted (count_sound h.sound _))
    (h.closed.orWanted (h.closed.count h.stays _)) fun _ _ _ _ _ _ => .pure
  refine .orWanted_reply hnext (count_honest h hnext hcount) (h.closed.count h.stays _) ?_
  intro j hj hj' e he
  obtain ⟨comparison', rfl⟩ := mem_comparisons he
  obtain ⟨inside, hne, hinside⟩ := hc.take_of_lt (Nat.lt_of_succ_le hj) hj'
  refine .leftover (hinside ▸ .condition rfl hne ?_)
  exact .of_begins [zero] (hawait 0 _ comparison' _ .zero_count)
    (by simp [Expectation.admits]) (by simp)

theorem condition_honest (hawait : Awaits n before .condition) :
    Honest all (condition maxDigits below) c := by
  by_cases hcomparison : startsWithComparison c.ahead = true
  · exact comparison_honest h hc hcomparison fun depth ls comparison e he =>
      hawait _ _ _ (.compared he)
  · have hcount : Awaits n before .count := fun depth ls e he => hawait _ _ _ (.equal he)
    have target : Honest all (condition.target maxDigits below) c := by
      refine .orWanted_reply hc (count_honest h hc hcount) (h.closed.count h.stays _) ?_
      intro j hj hj' e he
      obtain ⟨comparison, rfl⟩ := mem_comparisons he
      have hfollows : (Expectation.symbol (.ofComparison comparison)).Follows before :=
        hawait.follows_first 0 (.compared .zero_count)
          (beq_self_eq_true (Symbol.ofComparison comparison)) (by simp)
      rcases Nat.eq_or_lt_of_le hj with rfl | hlt
      · refine .missing (by rwa [hc.take_index]) (Expectation.admits_symbol_of_ne ?_)
        rw [hc.getElem?_index]
        intro hd
        obtain ⟨tl, hl⟩ := List.head?_eq_some_iff.mp hd
        exact hcomparison (startsWithComparison_iff.mpr ⟨_, tl, hl⟩)
      · obtain ⟨inside, hne, hinside⟩ := hc.take_of_lt hlt hj'
        exact .leftover (hinside ▸ .condition rfl hne hfollows)
    have bare : Honest all (do
        return (⟨.eq, ← condition.target maxDigits below⟩ : Condition Expr)) c :=
      .bind hc target (.orWanted (count_sound h.sound _))
        (h.closed.orWanted (h.closed.count h.stays _)) fun _ _ _ _ _ _ => .pure
    refine .ahead ?_
    split
    · rename_i s hd
      obtain ⟨tl, hl⟩ := List.head?_eq_some_iff.mp hd
      split
      · rename_i comparison hs
        obtain rfl := Symbol.eq_ofComparison hs
        exact absurd (startsWithComparison_iff.mpr ⟨comparison, tl, hl⟩) hcomparison
      · exact bare
    · exact bare

/-! ## Items -/

omit h hc in
theorem items_lacks {inCall : Bool} {closing : Symbol} {e : Expr}
    (hawait : ∀ depth ls es, Derives depth (n + 1) ls (.items inCall es) →
      Begins (before ++ (ls ++ [.symbol closing])))
    (he : Derives depth (n + 1) ls (.item inCall e)) (hcomma : next ≠ some (.symbol .comma))
    (hclosing : next ≠ some (.symbol closing)) :
    Lacks (before ++ ls) next [.symbol .comma, .symbol closing] := by
  refine .cons ?_ (Expectation.admits_symbol_of_ne hcomma)
    (.single ?_ (Expectation.admits_symbol_of_ne hclosing))
  · have hbegins := hawait _ _ _ (.nextItem (he.deepen (n + 1)) (.zero_items lt_max_succ))
    exact .of_begins [zero, .symbol closing] (by simpa using hbegins) rfl (by simp)
  · have hbegins := hawait _ _ _ (.lastItem he)
    exact .of_begins [] (by simpa using hbegins) (by simp [Expectation.admits]) (by simp)

omit h hc in
theorem awaitsBelow_itemOf {inCall : Bool} {closing : Symbol}
    (hawait : ∀ depth ls es, Derives depth (n + 1) ls (.items inCall es) →
      Begins (before ++ (ls ++ [.symbol closing]))) : AwaitsBelow n before (itemOf inCall) := by
  have hitem : ∀ depth ls e, Derives depth (n + 1) ls (.item inCall e) → Begins (before ++ ls) :=
    fun depth ls e he =>
      .of_append [.symbol closing] (by simpa using hawait _ _ _ (.lastItem he)) (by simp)
  cases inCall with
  | false => exact fun depth ls e he => hitem _ _ _ he.2
  | true => exact fun depth ls e he => hitem _ _ _ he.2

omit hc in
theorem itemsUpTo_honest {inCall : Bool} {closing : Symbol} :
    ∀ (commas : Nat) {before : List Lexeme} {c : Cursor}, c.After all before →
      c.ahead.length ≤ commas →
      (∀ depth ls es, Derives depth (n + 1) ls (.items inCall es) →
        Begins (before ++ (ls ++ [.symbol closing]))) →
      Honest all (itemsUpTo (below (itemOf inCall)) closing commas) c
  | 0, before, c, hc, hlength, hawait => by
    refine .bind hc (h.honest _ hc (awaitsBelow_itemOf hawait)) (itemOf_sound h.sound inCall c)
      (h.stays _ c) fun ls e rest _ hrest ⟨_, he⟩ => .lacking hrest ?_
    -- No lexeme is left for an item, let alone for what comes after it.
    have hnil : rest.ahead = [] := by
      have hnil := List.eq_nil_of_length_eq_zero (Nat.le_zero.mp hlength)
      rw [hc.ahead_eq hrest] at hnil
      exact (List.append_eq_nil_iff.mp hnil).2
    exact items_lacks hawait he (by simp [hnil]) (by simp [hnil])
  | commas + 1, before, c, hc, hlength, hawait => by
    refine .bind hc (h.honest _ hc (awaitsBelow_itemOf hawait)) (itemOf_sound h.sound inCall c)
      (h.stays _ c) fun ls e rest _ hrest ⟨_, he⟩ => .ahead ?_
    dsimp only
    split
    · rename_i hd
      obtain ⟨tl, hl⟩ := List.head?_eq_some_iff.mp hd
      refine .skip hrest hl fun hnext => ?_
      have hlength' : rest.next.ahead.length ≤ commas := by
        have hsplit := congrArg List.length (hc.ahead_eq hrest)
        simp only [hl, Cursor.next, List.length_append, List.tail_cons, List.length_cons] at *
        omega
      refine .bind hnext (itemsUpTo_honest commas hnext hlength' fun depth' ls' es hes => ?_)
        (itemsUpTo_sound h.sound inCall closing commas _)
        (h.closed.itemsUpTo (h.stays _) closing commas _) fun _ _ _ _ _ _ => .pure
      have hitems := Derives.nextItem (he.max_left depth') (hes.max_right depth)
      simpa using hawait _ _ _ hitems
    · rename_i hcomma
      split
      · rename_i hd
        obtain ⟨tl, hl⟩ := List.head?_eq_some_iff.mp hd
        exact .skip hrest hl fun _ => .pure
      · rename_i hclosing
        exact .lacking hrest (items_lacks hawait he hcomma hclosing)

theorem items_honest (inCall : Bool) {closing : Symbol}
    (hawait : ∀ depth ls es, Derives depth (n + 1) ls (.items inCall es) →
      Begins (before ++ (ls ++ [.symbol closing]))) :
    Honest all (items (below (itemOf inCall)) closing) c :=
  .ahead (itemsUpTo_honest h _ hc (Nat.le_refl _) hawait)

theorem list_honest (hawait : Awaits n before .list) : Honest all (list below) c := by
  have hopen : (Expectation.symbol .openBrace).Follows before :=
    hawait.follows_first _ (.zero_list (Nat.lt_succ_self (n + 1))) rfl (by simp)
  refine .symbol_bind hc hopen fun rest hrest => ?_
  refine .bind hrest (items_honest h hrest false fun depth ls es hes => ?_)
    (items_sound h.sound false .closeBrace _) (h.closed.items (h.stays _) _ _)
    fun _ _ _ _ _ _ => .pure
  simpa using hawait _ _ _ (.list lt_max_succ (hes.deepen n))

theorem call_honest (hawait : Awaits n before .call) : Honest all (call below) c := by
  have hname : ∀ next : Option Lexeme, (∀ w, next = some (.word w) → isReserved w = true) →
      Lacks before next [.functionName] := fun next hnext => by
    refine .single ?_ (Expectation.admits_functionName_of_ne hnext)
    exact hawait.follows_first 0 (.callEmpty isReserved_anyName)
      (by simp [Expectation.admits, isReserved_anyName]) (by simp)
  refine .ahead ?_
  split
  · rename_i name hd
    obtain ⟨tl, hl⟩ := List.head?_eq_some_iff.mp hd
    split
    · rename_i hreserved
      refine .lacking hc (hname _ fun w hw => ?_)
      obtain rfl : name = w := by simpa [hd] using hw
      exact hreserved
    · rename_i hfree
      have hfree : isReserved name = false := by simpa using hfree
      refine .skip hc hl fun hnext => ?_
      have hopen : (Expectation.symbol .openParen).Follows (before ++ [.word name]) :=
        hawait.follows 0 (.callEmpty hfree) rfl (by simp)
      refine .symbol_bind hnext hopen fun rest hrest => .ahead ?_
      split
      · rename_i hd
        obtain ⟨tl, hl⟩ := List.head?_eq_some_iff.mp hd
        exact .skip hrest hl fun _ => .pure
      · refine .bind hrest (items_honest h hrest true fun depth ls es hes => ?_)
          (items_sound h.sound true .closeParen _) (h.closed.items (h.stays _) _ _)
          fun _ _ _ _ _ _ => .pure
        simpa using hawait _ _ _ (.call hfree lt_max_succ (hes.deepen n))
  · rename_i hword
    exact .lacking hc (hname _ fun w hw => absurd hw (hword w))

/-! ## Dice -/

theorem die_honest {front : List Lexeme} (hbefore : before = front ++ [.word dieWord])
    (hawait : Awaits n before .die) : Honest all (die maxDigits below) c := by
  have hopen : (Expectation.symbol .openBrace).Follows before :=
    hawait.follows_first (n + 2) (.custom (by omega) (.zero_items (by omega))) rfl (by simp)
  refine .ahead ?_
  split
  · rename_i hd
    obtain ⟨tl, hl⟩ := List.head?_eq_some_iff.mp hd
    refine .skip hc hl fun hnext => ?_
    refine .bind hnext (items_honest h hnext false fun depth ls es hes => ?_)
      (items_sound h.sound false .closeBrace _) (h.closed.items (h.stays _) _ _)
      fun _ _ _ _ _ _ => .pure
    simpa using hawait _ _ _ (.custom lt_max_succ (hes.deepen n))
  · rename_i hbrace
    have hcount : Awaits n before .count := fun depth ls e he => hawait _ _ _ (.numbered he)
    refine .bind hc ?_ (.orWanted (count_sound h.sound _))
      (h.closed.orWanted (h.closed.count h.stays _)) fun _ _ _ _ _ _ => .pure
    refine .orWanted_reply hc (count_honest h hc hcount) (h.closed.count h.stays _) ?_
    intro j hj hj' e he
    obtain rfl := List.mem_singleton.mp he
    rcases Nat.eq_or_lt_of_le hj with rfl | hlt
    · refine .missing (by rwa [hc.take_index]) ?_
      rw [hc.getElem?_index]
      exact Expectation.admits_symbol_of_ne hbrace
    · obtain ⟨inside, hne, hinside⟩ := hc.take_of_lt hlt hj'
      have hsplit : before ++ inside = front ++ .word dieWord :: inside := by
        rw [hbefore, List.append_assoc]
        rfl
      exact .leftover (hinside ▸ .die hsplit hne (hbefore ▸ hopen))

theorem modifier?_honest (hawait : ∀ depth ls m, Derives depth n ls (.modifier m) →
      ls.head? = c.ahead.head? → Begins (before ++ ls)) :
    Honest all (modifier? maxDigits below) c := by
  refine .ahead ?_
  split
  · rename_i word rest hl
    split
    · rename_i selection hs
      obtain rfl := Selection.text_of_ofWord? hs
      refine .skip hc hl fun hnext => ?_
      refine .bind hnext (count_honest h hnext fun depth ls e he => ?_) (count_sound h.sound _)
        (h.closed.count h.stays _) fun _ _ _ _ _ _ => .pure
      simpa using hawait _ _ _ (.select he) (by rw [hl]; rfl)
    · split
      · rename_i hw
        subst hw
        refine .skip hc hl fun hnext => ?_
        refine .bind hnext (condition_honest h hnext fun depth ls cond hcond => ?_)
          (condition_sound h.sound _) (h.closed.condition h.stays _)
          fun ls cond rest _ hrest _ => .ahead ?_
        · simpa using hawait _ _ _ (.reroll hcond) (by rw [hl]; rfl)
        · split
          · rename_i hd
            obtain ⟨tl, hl⟩ := List.head?_eq_some_iff.mp hd
            exact .skip hrest hl fun _ => .pure
          · exact .pure
      · split
        · rename_i keep hw
          obtain rfl := eq_filterWord hw
          split
          · rename_i hcomparison
            have hahead : c.next.ahead = rest := by rw [Cursor.next, hl, List.tail_cons]
            refine .skip hc hl fun hnext => ?_
            refine .bind hnext (comparison_honest h hnext (by rwa [hahead])
                fun depth ls comparison e he => ?_)
              (condition_sound h.sound _) (h.closed.condition h.stays _) fun _ _ _ _ _ _ => .pure
            simpa using hawait _ _ _ (.filter he) (by rw [hl]; rfl)
          · exact .pure
        · exact .pure
  · rename_i rest hl
    refine .skip hc hl fun hnext => ?_
    split
    · rename_i hcomparison
      have hahead : c.next.ahead = rest := by rw [Cursor.next, hl, List.tail_cons]
      refine .bind hnext (comparison_honest h hnext (by rwa [hahead])
          fun depth ls comparison e he => ?_)
        (condition_sound h.sound _) (h.closed.condition h.stays _) fun _ _ _ _ _ _ => .pure
      simpa using hawait _ _ _ (.explodeWhere he) (by rw [hl]; rfl)
    · exact .pure
  · exact .pure

-- Only a modifier that starts with the next lexeme is awaited: of the modifiers that may come after
-- `rr` and its condition, one that starts with `!` would belong to the `rr`.
omit hc in
theorem modifiersUpTo_honest :
    ∀ (most : Nat) {before : List Lexeme} {c : Cursor}, c.After all before →
      (∀ depth ls ms, Derives depth n ls (.modifiers ms) → ls.head? = c.ahead.head? →
        Begins (before ++ ls)) →
      Honest all (modifiersUpTo maxDigits below most) c
  | 0, _, _, _, _ => .pure
  | most + 1, before, c, hc, hawait => by
    have hmodifier : ∀ depth ls m, Derives depth n ls (.modifier m) →
        ls.head? = c.ahead.head? → Begins (before ++ ls) := fun depth ls m hm hhead => by
      have hms := Derives.nextModifier hm .noModifier (by simp)
      simpa using hawait _ _ _ hms (by simpa using hhead)
    refine .bind hc (modifier?_honest h hc hmodifier) (modifier?_sound h.sound c)
      (h.closed.modifier? h.stays c) fun ls m? rest hr hrest hm => ?_
    match m?, hm, hr with
    | none, _, _ => exact .pure
    | some m, hm, hr =>
      refine .bind hrest (modifiersUpTo_honest most hrest fun depth' ls' ms hms hhead => ?_)
        (modifiersUpTo_sound h.sound most rest) (h.closed.modifiersUpTo h.stays most rest)
        fun _ _ _ _ _ _ => .pure
      have hbang : ∀ cond, m = .reroll false cond → ls'.head? ≠ some (.symbol .bang) := by
        rintro cond rfl hbang
        exact modifier?_rest hr (hhead ▸ hbang)
      have hnext := Derives.nextModifier (hm.max_left depth') (hms.max_right depth) hbang
      obtain ⟨l, tl, rfl, _⟩ := hm.first rfl
      simpa using hawait _ _ _ hnext (by rw [hc.ahead_eq hrest]; rfl)

/-- The set of dice is awaited with any die and any modifiers. -/
def AwaitsDice (n : Nat) (before : List Lexeme) : Prop :=
  ∀ depth ls₁ ls₂ d ms, Derives depth n ls₁ (.die d) → Derives depth n ls₂ (.modifiers ms) →
    Begins (before ++ .word dieWord :: (ls₁ ++ ls₂))

theorem dice_honest (hd : c.ahead.head? = some (.word dieWord)) (hawait : AwaitsDice n before)
    {count : Option Expr} : (dice maxDigits below count c).Honest all c.next.index := by
  obtain ⟨tl, hl⟩ := List.head?_eq_some_iff.mp hd
  have hnext := hc.next hl
  have hdie : Awaits n (before ++ [.word dieWord]) .die := fun depth ls d hd => by
    simpa using hawait _ _ _ _ _ hd .noModifier
  refine Honest.skip_reply (.bind hnext (die_honest h hnext rfl hdie) (die_sound h.sound _)
    (h.closed.die h.stays _) fun ls d rest _ hrest hd => ?_)
  refine .bind hrest (.ahead (modifiersUpTo_honest h _ hrest fun depth' ls' ms hms _ => ?_))
    (.ahead (modifiersUpTo_sound h.sound _ _))
    (h.closed.ahead (h.closed.modifiersUpTo h.stays _ _))
    fun _ _ _ _ _ _ => ?_
  · simpa using hawait _ _ _ _ _ (hd.max_left depth') (hms.max_right depth)
  · split <;> exact .pure

/-! ## Arithmetic -/

theorem primary_honest (hawait : Awaits n before .primary) :
    Honest all (primary maxDigits below) c := by
  have hcall : Awaits n before .call := fun depth ls e he => hawait _ _ _ (.called he)
  have hdice : AwaitsDice n before := fun depth ls₁ ls₂ d ms hd hms => by
    cases ms with
    | nil =>
      cases hms
      simpa using hawait _ _ _ (.oneDie hd)
    | cons m ms => exact hawait _ _ _ (.oneModified hd hms)
  have counted : Honest all (do
        let count ← count maxDigits below
        if (← ahead).head? = some (.word dieWord) then dice maxDigits below (some count)
        else return count) c := by
    refine .bind hc (count_honest h hc fun depth ls e he => hawait _ _ _ (.number he))
      (count_sound h.sound c) (h.closed.count h.stays c) fun ls e rest _ hrest he => .ahead ?_
    split
    · rename_i hd
      refine (dice_honest h hrest hd fun depth' ls₁ ls₂ d ms hd hms => ?_).mono (Nat.le_succ _)
      have hprimary := Derives.dice (he.max_left depth') (hd.max_right depth) (hms.max_right depth)
      simpa using hawait _ _ _ hprimary
    · exact .pure
  have hwanted : ∀ next : Option Lexeme, (∀ digits, next ≠ some (.number digits)) →
      next ≠ some (.symbol .openParen) → next ≠ some (.word dieWord) →
      (∀ w, next = some (.word w) → isReserved w = true) → Lacks before next primary.wanted := by
    intro next hnumber hparen hdie hname
    refine .cons ?_ (Expectation.admits_number_of_ne hnumber)
      (.cons ?_ (Expectation.admits_symbol_of_ne hparen)
        (.cons ?_ (Expectation.admits_word_of_ne hdie)
          (.single ?_ (Expectation.admits_functionName_of_ne hname))))
    · exact hawait.follows_first n (.number .zero_count) rfl (by simp)
    · exact hawait.follows_first _ (.number (.zero_paren (Nat.lt_succ_self n))) rfl (by simp)
    · exact hawait.follows_first n (.oneDie (.numbered .zero_count))
        (by simp [Expectation.admits]) (by simp)
    · exact hcall.follows_first n (.callEmpty isReserved_anyName)
        (by simp [Expectation.admits, isReserved_anyName]) (by simp)
  refine .ahead ?_
  split
  · rename_i word hd
    split
    · rename_i hw
      subst hw
      exact (dice_honest h hc hd hdice).mono (Nat.le_succ _)
    · rename_i hdie
      split
      · rename_i hreserved
        refine .lacking hc (hwanted _ (by simp [hd]) (by simp [hd]) (by simpa [hd] using hdie) ?_)
        intro w hw
        obtain rfl : word = w := by simpa [hd] using hw
        exact hreserved
      · exact call_honest h hc hcall
  · exact counted
  · exact counted
  · rename_i hword hnumber hparen
    exact .lacking hc (hwanted _ hnumber hparen (hword _) fun w hw => absurd hw (hword w))

theorem power_honest (hawait : Awaits n before .power) : Honest all (power maxDigits below) c := by
  refine .bind hc (primary_honest h hc fun depth ls e he => hawait _ _ _ (.base he))
    (primary_sound h.sound c) (h.closed.primary h.stays c) fun ls e rest _ hrest he => .ahead ?_
  split
  · rename_i hd
    obtain ⟨tl, hl⟩ := List.head?_eq_some_iff.mp hd
    refine .skip hrest hl fun hnext => ?_
    refine .bind hnext (h.honest .power hnext ?_) (h.sound .power _) (h.stays .power _)
      fun _ _ _ _ _ _ => .pure
    rintro depth' ls' e' ⟨hn, he'⟩
    have hpower := Derives.power (Nat.lt_of_lt_of_le hn (Nat.le_max_right depth _))
      (he.max_left depth') (he'.max_right depth)
    simpa using hawait _ _ _ hpower
  · rename_i hcaret
    have hpower := Derives.power lt_max_succ (he.deepen n) .zero_power
    refine .missing hrest (.single ?_ (Expectation.admits_symbol_of_ne hcaret)) .pure
    exact hawait.follows _ hpower rfl (by simp)

theorem negation_honest (hawait : Awaits n before .negation) :
    Honest all (negation maxDigits below) c := by
  refine .ahead ?_
  split
  · rename_i hd
    obtain ⟨tl, hl⟩ := List.head?_eq_some_iff.mp hd
    refine .skip hc hl fun hnext => ?_
    refine .bind hnext (h.honest .negation hnext ?_) (h.sound .negation _) (h.stays .negation _)
      fun _ _ _ _ _ _ => .pure
    rintro depth' ls' e' ⟨hn, he'⟩
    simpa using hawait _ _ _ (.minus hn he')
  · exact power_honest h hc fun depth ls e he => hawait _ _ _ (.plain he)

theorem productRest_honest {left : Expr} (hawait : Awaits n before (.productRest left)) :
    Honest all (productRest below left) c := by
  have hfollows : ∀ {op : Operator}, op = .multiply ∨ op = .divide →
      (Expectation.symbol (.ofOperator op)).Follows before := fun hop =>
    hawait.follows_first _ (.productNext hop (Nat.lt_succ_self n) .zero_negation .productEnd)
      (by simp [Expectation.admits]) (by simp)
  have operand : ∀ {s : Symbol} {op : Operator} {tl : List Lexeme}, s = .ofOperator op →
      op = .multiply ∨ op = .divide → c.ahead = .symbol s :: tl →
      Honest all (do skip; below (.productAfter left op)) c := by
    rintro s op tl rfl hop hl
    refine .skip hc hl fun hnext => h.honest _ hnext ?_
    rintro depth' _ e' ⟨hn, ls₁, ls₂, e₁, rfl, he₁, he⟩
    simpa using hawait _ _ _ (.productNext hop hn he₁ he)
  refine .ahead ?_
  split
  · rename_i hd
    obtain ⟨tl, hl⟩ := List.head?_eq_some_iff.mp hd
    exact operand rfl (.inl rfl) hl
  · rename_i hd
    obtain ⟨tl, hl⟩ := List.head?_eq_some_iff.mp hd
    exact operand rfl (.inr rfl) hl
  · rename_i htimes hslash
    exact .missing hc (.cons (hfollows (.inl rfl)) (Expectation.admits_symbol_of_ne htimes)
      (.single (hfollows (.inr rfl)) (Expectation.admits_symbol_of_ne hslash))) .pure

/-- A first factor, or the next one, and the rest of the product. -/
theorem factors_honest (product : Expr → Expr)
    (hawait : ∀ depth ls₁ ls₂ e₁ e, Derives depth n ls₁ (.negation e₁) →
      Derives depth n ls₂ (.productRest (product e₁) e) → Begins (before ++ (ls₁ ++ ls₂))) :
    Honest all (do productRest below (product (← negation maxDigits below))) c := by
  refine .bind hc (negation_honest h hc fun depth ls e he => ?_) (negation_sound h.sound c)
    (h.closed.negation h.stays c) fun ls e rest _ hrest he => productRest_honest h hrest ?_
  · simpa using hawait _ _ _ _ _ he .productEnd
  · intro depth' ls' e' he'
    simpa using hawait _ _ _ _ _ (he.max_left depth') (he'.max_right depth)

theorem product_honest (hawait : Awaits n before .product) :
    Honest all (product maxDigits below) c :=
  factors_honest h hc id fun _ _ _ _ _ he₁ he => hawait _ _ _ (.product he₁ he)

theorem sumRest_honest {left : Expr} (hawait : Awaits n before (.sumRest left)) :
    Honest all (sumRest below left) c := by
  have hfollows : ∀ {op : Operator}, op = .add ∨ op = .subtract →
      (Expectation.symbol (.ofOperator op)).Follows before := fun hop =>
    hawait.follows_first _ (.sumNext hop (Nat.lt_succ_self n) .zero_product .sumEnd)
      (by simp [Expectation.admits]) (by simp)
  have operand : ∀ {s : Symbol} {op : Operator} {tl : List Lexeme}, s = .ofOperator op →
      op = .add ∨ op = .subtract → c.ahead = .symbol s :: tl →
      Honest all (do skip; below (.sumAfter left op)) c := by
    rintro s op tl rfl hop hl
    refine .skip hc hl fun hnext => h.honest _ hnext ?_
    rintro depth' _ e' ⟨hn, ls₁, ls₂, e₁, rfl, he₁, he⟩
    simpa using hawait _ _ _ (.sumNext hop hn he₁ he)
  refine .ahead ?_
  split
  · rename_i hd
    obtain ⟨tl, hl⟩ := List.head?_eq_some_iff.mp hd
    exact operand rfl (.inl rfl) hl
  · rename_i hd
    obtain ⟨tl, hl⟩ := List.head?_eq_some_iff.mp hd
    exact operand rfl (.inr rfl) hl
  · rename_i hplus hminus
    exact .missing hc (.cons (hfollows (.inl rfl)) (Expectation.admits_symbol_of_ne hplus)
      (.single (hfollows (.inr rfl)) (Expectation.admits_symbol_of_ne hminus))) .pure

/-- A first term, or the next one, and the rest of the sum. -/
theorem terms_honest (sum : Expr → Expr)
    (hawait : ∀ depth ls₁ ls₂ e₁ e, Derives depth n ls₁ (.product e₁) →
      Derives depth n ls₂ (.sumRest (sum e₁) e) → Begins (before ++ (ls₁ ++ ls₂))) :
    Honest all (do sumRest below (sum (← product maxDigits below))) c := by
  refine .bind hc (product_honest h hc fun depth ls e he => ?_) (product_sound h.sound c)
    (h.closed.product h.stays c) fun ls e rest _ hrest he => sumRest_honest h hrest ?_
  · simpa using hawait _ _ _ _ _ he .sumEnd
  · intro depth' ls' e' he'
    simpa using hawait _ _ _ _ _ (he.max_left depth') (he'.max_right depth)

/-! ## Whole rolls -/

theorem repetition_honest (hawait : Awaits n before .repetition) :
    Honest all (repetition maxDigits below) c := by
  have hcount : Awaits n before .count := fun depth ls e he => by
    have hrepetition := Derives.repeatedExpr (he.deepen n) (.zero_expr lt_max_succ)
    exact .of_append [.symbol .hash, zero] (by simpa using hawait _ _ _ hrepetition) (by simp)
  refine .bind hc (count_honest h hc hcount) (count_sound h.sound c) (h.closed.count h.stays c)
    fun ls e rest _ hrest he => ?_
  have hhash : (Expectation.symbol .hash).Follows (before ++ ls) :=
    hawait.follows _ (.repeatedExpr (he.deepen n) (.zero_expr lt_max_succ)) rfl (by simp)
  refine .symbol_bind hrest hhash fun rest' hrest' => .ahead ?_
  split
  · refine .bind hrest' (list_honest h hrest' fun depth' ls' e' he' => ?_)
      (list_sound h.sound rest') (h.closed.list h.stays rest') fun _ _ _ _ _ _ => .pure
    have hrepetition := Derives.repeatedList (he.max_left depth') (he'.max_right depth)
    simpa using hawait _ _ _ hrepetition
  · refine .bind hrest' (expr_honest h hrest' fun depth' ls' e' he' => ?_)
      (expr_sound h.sound rest') (h.stays .sum rest') fun _ _ _ _ _ _ => .pure
    have hrepetition := Derives.repeatedExpr (he.max_left depth') (he'.max_right depth)
    simpa using hawait _ _ _ hrepetition

theorem argument_honest (hawait : Awaits n before (.item true)) :
    Honest all (argument maxDigits below) c := by
  refine .ahead ?_
  split
  · exact list_honest h hc fun depth ls e he => hawait _ _ _ (.listItem he)
  · exact .orElse (repetition_honest h hc fun depth ls e he => hawait _ _ _ (.repeatedItem he))
      (expr_honest h hc fun depth ls e he => hawait _ _ _ (.plainItem he))

end Grammar

end DiceLang
