import DiceLang.Proofs.Derivation
import DiceLang.Proofs.PhraseRules

/-!
# What is read is derived

Each phrase of the notation reads only lexemes that spell what it reads, at the level that is left
to it, and no number among them has too many digits to fit or to be converted. A phrase is given
what is read one level further down (`SoundBelow`); the levels are counted off in `nested_sound`.
-/

namespace DiceLang

theorem Symbol.eq_ofComparison {s : Symbol} {comparison : Comparison}
    (h : s.comparison? = some comparison) : s = .ofComparison comparison := by
  cases s <;> cases h <;> rfl

theorem Symbol.comparison_ofComparison (comparison : Comparison) :
    (Symbol.ofComparison comparison).comparison? = some comparison := by
  cases comparison <;> rfl

theorem Selection.text_of_ofWord? {word : String} {selection : Selection}
    (h : Selection.ofWord? word = some selection) : word = selection.word.text := by
  have := List.find?_some h
  exact (beq_iff_eq.mp this).symm

theorem eq_filterWord {word : String} {keep : Bool} (h : filterWord? word = some keep) :
    word = filterWord keep := by
  unfold filterWord? at h
  split at h
  · cases h; assumption
  · split at h
    · cases h; assumption
    · cases h

namespace Grammar

open Phrase

variable {depth maxDigits n : Nat} {below : Nested → Phrase Expr} {c : Cursor}

/-- What is derived one level further down than `n`. -/
def BelowDerives (depth n : Nat) : Nested → List Lexeme → Expr → Prop
  | .sum, ls, e => Derives depth n ls (.expr e)
  | .sumAfter left op, ls, e => n < depth ∧ ∃ ls₁ ls₂ e₁, ls = ls₁ ++ ls₂ ∧
      Derives depth (n + 1) ls₁ (.product e₁) ∧
      Derives depth (n + 1) ls₂ (.sumRest (.binary op left e₁) e)
  | .productAfter left op, ls, e => n < depth ∧ ∃ ls₁ ls₂ e₁, ls = ls₁ ++ ls₂ ∧
      Derives depth (n + 1) ls₁ (.negation e₁) ∧
      Derives depth (n + 1) ls₂ (.productRest (.binary op left e₁) e)
  | .negation, ls, e => n < depth ∧ Derives depth (n + 1) ls (.negation e)
  | .power, ls, e => n < depth ∧ Derives depth (n + 1) ls (.power e)
  | .expr, ls, e => n < depth ∧ Derives depth (n + 1) ls (.item false e)
  | .argument, ls, e => n < depth ∧ Derives depth (n + 1) ls (.item true e)

/-- At level `n`, `p` reads only what spells `part`. -/
abbrev Sound (depth maxDigits n : Nat) (p : Phrase α) (part : α → Part) : Prop :=
  ∀ c, Consumes (Lexeme.Passable maxDigits) p c fun ls a => Derives depth n ls (part a)

/-- At level `n`, `below` reads only what is derived one level further down. -/
def SoundBelow (depth maxDigits n : Nat) (below : Nested → Phrase Expr) : Prop :=
  ∀ what c, Consumes (Lexeme.Passable maxDigits) (below what) c (BelowDerives depth n what)

theorem expr_sound (h : SoundBelow depth maxDigits n below) :
    Sound depth maxDigits n (expr below) .expr := h .sum

theorem count_sound (h : SoundBelow depth maxDigits n below) :
    Sound depth maxDigits n (count maxDigits below) .count := fun c => by
  refine .ahead ?_
  split
  · rename_i digits hd
    obtain ⟨ls, hc⟩ := List.head?_eq_some_iff.mp hd
    split
    · exact .refuse
    · rename_i hfits
      split
      · exact .refuse
      · rename_i hconverts
        exact .skip hc ⟨Nat.not_lt.mp hfits, Nat.not_lt.mp hconverts⟩ (.pure .int)
  · rename_i hd
    obtain ⟨ls, hc⟩ := List.head?_eq_some_iff.mp hd
    refine .skip hc (by simp) (.bind (expr_sound h _) fun ls₁ e _ _ he => ?_)
    refine .bind (.symbol (by simp)) fun ls₂ _ _ _ hs => .pure ?_
    subst hs
    simpa using Derives.paren he
  · exact .giveUp

theorem condition_sound (h : SoundBelow depth maxDigits n below) :
    Sound depth maxDigits n (condition maxDigits below) .condition := fun c => by
  have target : ∀ c, Consumes (Lexeme.Passable maxDigits) (condition.target maxDigits below) c
      fun ls e => Derives depth n ls (.count e) := fun c => .orWanted (count_sound h c)
  have bare : ∀ c, Consumes (Lexeme.Passable maxDigits)
      (do return (⟨.eq, ← condition.target maxDigits below⟩ : Condition Expr)) c
      fun ls cond => Derives depth n ls (.condition cond) := fun c =>
    .bind (target c) fun ls e _ _ he => .pure (by simpa using Derives.equal he)
  refine .ahead ?_
  split
  · rename_i s hd
    obtain ⟨ls, hc⟩ := List.head?_eq_some_iff.mp hd
    split
    · rename_i comparison hs
      obtain rfl := Symbol.eq_ofComparison hs
      refine .skip hc (by simp) (.bind (target _) fun ls e _ _ he => .pure ?_)
      simpa using Derives.compared he
    · exact bare c
  · exact bare c

/-! ## Items -/

/-- What an item is read as one level further down. -/
def itemOf (inCall : Bool) : Nested := if inCall then .argument else .expr

theorem itemOf_sound (h : SoundBelow depth maxDigits n below) (inCall : Bool) (c : Cursor) :
    Consumes (Lexeme.Passable maxDigits) (below (itemOf inCall)) c
      fun ls e => n < depth ∧ Derives depth (n + 1) ls (.item inCall e) := by
  cases inCall with
  | false => exact h .expr c
  | true => exact h .argument c

theorem itemsUpTo_sound (h : SoundBelow depth maxDigits n below) (inCall : Bool)
    (closing : Symbol) :
    ∀ (commas : Nat) (c : Cursor),
      Consumes (Lexeme.Passable maxDigits) (itemsUpTo (below (itemOf inCall)) closing commas) c
        fun ls es => n < depth ∧ ∃ ls', ls = ls' ++ [.symbol closing] ∧
          Derives depth (n + 1) ls' (.items inCall es)
  | 0, c => .bind (itemOf_sound h inCall c) fun _ _ _ _ _ => .giveUp
  | commas + 1, c => by
    refine .bind (itemOf_sound h inCall c) fun ls e rest _ ⟨hn, he⟩ => .ahead ?_
    dsimp only
    split
    · rename_i hd
      obtain ⟨tl, hc⟩ := List.head?_eq_some_iff.mp hd
      refine .skip hc (by simp) (.bind (itemsUpTo_sound h inCall closing commas _) ?_)
      rintro _ es _ _ ⟨_, ls', rfl, hes⟩
      refine .pure ⟨hn, ls ++ .symbol .comma :: ls', by simp, .nextItem he hes⟩
    · split
      · rename_i hd
        obtain ⟨tl, hc⟩ := List.head?_eq_some_iff.mp hd
        exact .skip hc (by simp) (.pure ⟨hn, ls, by simp, .lastItem he⟩)
      · exact .giveUp

theorem items_sound (h : SoundBelow depth maxDigits n below) (inCall : Bool) (closing : Symbol)
    (c : Cursor) :
    Consumes (Lexeme.Passable maxDigits) (items (below (itemOf inCall)) closing) c
      fun ls es => n < depth ∧ ∃ ls', ls = ls' ++ [.symbol closing] ∧
        Derives depth (n + 1) ls' (.items inCall es) :=
  .ahead (itemsUpTo_sound h inCall closing _ c)

theorem list_sound (h : SoundBelow depth maxDigits n below) :
    Sound depth maxDigits n (list below) .list := fun c => by
  refine .bind (.symbol (by simp)) fun ls _ _ _ hs => ?_
  subst hs
  refine .bind (items_sound h false .closeBrace _) ?_
  rintro _ es _ _ ⟨hn, ls', rfl, hes⟩
  exact .pure (by simpa using Derives.list hn hes)

theorem call_sound (h : SoundBelow depth maxDigits n below) :
    Sound depth maxDigits n (call below) .call := fun c => by
  refine .ahead ?_
  split
  · rename_i name hd
    obtain ⟨tl, hc⟩ := List.head?_eq_some_iff.mp hd
    split
    · exact .giveUp
    · rename_i hname
      have free : isReserved name = false := by simpa using hname
      refine .skip hc (by simp) (.bind (.symbol (by simp)) fun ls _ _ _ hs => .ahead ?_)
      subst hs
      split
      · rename_i hd
        obtain ⟨tl, hc⟩ := List.head?_eq_some_iff.mp hd
        exact .skip hc (by simp) (.pure (.callEmpty free))
      · refine .bind (items_sound h true .closeParen _) ?_
        rintro _ es _ _ ⟨hn, ls', rfl, hes⟩
        exact .pure (by simpa using Derives.call free hn hes)
  · exact .giveUp

/-! ## Dice -/

theorem die_sound (h : SoundBelow depth maxDigits n below) :
    Sound depth maxDigits n (die maxDigits below) .die := fun c => by
  refine .ahead ?_
  split
  · rename_i hd
    obtain ⟨tl, hc⟩ := List.head?_eq_some_iff.mp hd
    refine .skip hc (by simp) (.bind (items_sound h false .closeBrace _) ?_)
    rintro _ es _ _ ⟨hn, ls', rfl, hes⟩
    exact .pure (by simpa using Derives.custom hn hes)
  · exact .bind (.orWanted (count_sound h _)) fun ls e _ _ he =>
      .pure (by simpa using Derives.numbered he)

theorem startsWithComparison_iff {ls : List Lexeme} :
    startsWithComparison ls = true ↔
      ∃ comparison tl, ls = .symbol (.ofComparison comparison) :: tl := by
  constructor
  · intro h
    match ls, h with
    | .symbol s :: tl, h =>
      obtain ⟨comparison, hs⟩ := Option.isSome_iff_exists.mp h
      exact ⟨comparison, tl, by rw [Symbol.eq_ofComparison hs]⟩
  · rintro ⟨comparison, tl, rfl⟩
    cases comparison <;> rfl

/-- A condition that starts with a comparison. -/
theorem condition_sound_of_comparison (h : SoundBelow depth maxDigits n below)
    (hc : startsWithComparison c.ahead = true) :
    Consumes (Lexeme.Passable maxDigits) (condition maxDigits below) c fun ls cond =>
      ∃ ls', ls = .symbol (.ofComparison cond.comparison) :: ls' ∧
        Derives depth n ls' (.count cond.target) := by
  obtain ⟨comparison, tl, hc⟩ := startsWithComparison_iff.mp hc
  refine .ahead ?_
  rw [hc]
  simp only [List.head?_cons, Symbol.comparison_ofComparison]
  exact .skip hc (by simp) (.bind (.orWanted (count_sound h _)) fun ls e _ _ he =>
    .pure ⟨ls, by simp, he⟩)

theorem modifier?_sound (h : SoundBelow depth maxDigits n below) (c : Cursor) :
    Consumes (Lexeme.Passable maxDigits) (modifier? maxDigits below) c fun ls m? =>
      match m? with
      | some m => Derives depth n ls (.modifier m)
      | none => ls = [] := by
  refine .ahead ?_
  split
  · rename_i word rest hc
    split
    · rename_i selection hs
      obtain rfl := Selection.text_of_ofWord? hs
      exact .skip hc (by simp) (.bind (count_sound h _) fun ls e _ _ he =>
        .pure (by simpa using Derives.select he))
    · split
      · rename_i hw
        subst hw
        refine .skip hc (by simp) (.bind (condition_sound h _) fun ls cond _ _ hcond => .ahead ?_)
        split
        · rename_i hd
          obtain ⟨tl, hc⟩ := List.head?_eq_some_iff.mp hd
          exact .skip hc (by simp) (.pure (by simpa using Derives.rerollUntil hcond))
        · exact .pure (by simpa using Derives.reroll hcond)
      · split
        · rename_i keep hw
          obtain rfl := eq_filterWord hw
          split
          · rename_i hcomparison
            have hnext : c.next.ahead = rest := by rw [Cursor.next, hc, List.tail_cons]
            refine .skip hc (by simp)
              (.bind (condition_sound_of_comparison h (by rw [hnext]; exact hcomparison)) ?_)
            rintro _ ⟨comparison, e⟩ _ _ ⟨ls, rfl, he⟩
            exact .pure (by simpa using Derives.filter he)
          · exact .pure rfl
        · exact .pure rfl
  · rename_i rest hc
    split
    · rename_i hcomparison
      have hnext : c.next.ahead = rest := by rw [Cursor.next, hc, List.tail_cons]
      refine .skip hc (by simp)
        (.bind (condition_sound_of_comparison h (by rw [hnext]; exact hcomparison)) ?_)
      rintro _ ⟨comparison, e⟩ _ _ ⟨ls, rfl, he⟩
      exact .pure (by simpa using Derives.explodeWhere he)
    · exact .skip hc (by simp) (.pure .explode)
  · exact .pure rfl

/-- A reroll that is not the repeated one has no `!` right after it. -/
theorem modifier?_rest {cond : Condition Expr} {rest : Cursor}
    (h : (modifier? maxDigits below).Reads c (some (.reroll false cond)) rest) :
    rest.ahead.head? ≠ some (.symbol .bang) := by
  rw [modifier?, reads_ahead_bind] at h
  split at h
  · split at h
    · simp [reads_bind] at h
    · split at h
      · obtain ⟨_, _, _, h⟩ := reads_bind.mp h
        obtain ⟨_, mid, _, h⟩ := reads_bind.mp h
        rw [reads_ahead_bind] at h
        split at h
        · simp [reads_bind] at h
        · rename_i hd
          obtain ⟨_, rfl⟩ := reads_pure.mp h
          exact hd
      · split at h
        · split at h <;> simp [reads_bind] at h
        · simp at h
  · split at h <;> simp [reads_bind] at h
  · simp at h

theorem modifiersUpTo_sound (h : SoundBelow depth maxDigits n below) :
    ∀ most, Sound depth maxDigits n (modifiersUpTo maxDigits below most) .modifiers
  | 0, _ => .pure .noModifier
  | most + 1, c => by
    refine .bind (modifier?_sound h c) fun ls m? rest ⟨hr, _⟩ hm => ?_
    match m?, hm, hr with
    | some m, hm, hr =>
      refine .bind (modifiersUpTo_sound h most rest) fun ls' ms rest' ⟨_, hrest⟩ hms => .pure ?_
      rw [List.append_nil]
      refine .nextModifier hm hms fun cond e hbang => ?_
      subst e
      obtain ⟨tl, rfl⟩ := List.head?_eq_some_iff.mp hbang
      exact modifier?_rest hr (by rw [hrest]; rfl)
    | none, hm, _ =>
      subst hm
      exact .pure .noModifier

/-- A count in front of dice, which may be left out. -/
inductive CountDerives (depth n : Nat) : Option Expr → List Lexeme → Prop
  | none : CountDerives depth n none []
  | some {e ls} : Derives depth n ls (.count e) → CountDerives depth n (some e) ls

theorem dice_sound (h : SoundBelow depth maxDigits n below) {count : Option Expr}
    {ls₀ : List Lexeme} (hcount : CountDerives depth n count ls₀)
    (hc : c.ahead.head? = some (.word dieWord)) :
    Consumes (Lexeme.Passable maxDigits) (dice maxDigits below count) c
      fun ls e => Derives depth n (ls₀ ++ ls) (.primary e) := by
  obtain ⟨tl, hc⟩ := List.head?_eq_some_iff.mp hc
  refine .skip hc (by simp) (.bind (die_sound h _) fun ls₁ d _ _ hd => ?_)
  refine .bind (.ahead (modifiersUpTo_sound h _ _)) fun ls₂ ms _ _ hms => ?_
  cases hcount with
  | some he => exact .pure (by simpa using Derives.dice he hd hms)
  | none =>
    cases ms with
    | nil =>
      cases hms
      exact .pure (by simpa using Derives.oneDie hd)
    | cons m ms => exact .pure (by simpa using Derives.oneModified hd hms)

/-! ## Arithmetic -/

theorem primary_sound (h : SoundBelow depth maxDigits n below) :
    Sound depth maxDigits n (primary maxDigits below) .primary := fun c => by
  have counted : ∀ c, Consumes (Lexeme.Passable maxDigits) (do
        let count ← count maxDigits below
        if (← ahead).head? = some (.word dieWord) then dice maxDigits below (some count)
        else return count) c fun ls e => Derives depth n ls (.primary e) := fun c => by
    refine .bind (count_sound h c) fun ls e rest _ he => .ahead ?_
    split
    · rename_i hd
      exact dice_sound h (CountDerives.some he) hd
    · exact .pure (by simpa using Derives.number he)
  refine .ahead ?_
  split
  · rename_i word hd
    split
    · rename_i hw
      subst hw
      exact dice_sound h CountDerives.none hd
    · split
      · exact .giveUp
      · exact (call_sound h c).mono fun ls e he => .called he
  · exact counted c
  · exact counted c
  · exact .giveUp

theorem power_sound (h : SoundBelow depth maxDigits n below) :
    Sound depth maxDigits n (power maxDigits below) .power := fun c => by
  refine .bind (primary_sound h c) fun ls e rest _ he => .ahead ?_
  split
  · rename_i hd
    obtain ⟨tl, hc⟩ := List.head?_eq_some_iff.mp hd
    refine .skip hc (by simp) (.bind (h .power _) ?_)
    rintro ls' e' _ _ ⟨hn, he'⟩
    exact .pure (by simpa using Derives.power hn he he')
  · exact .missing (.pure (by simpa using Derives.base he))

theorem negation_sound (h : SoundBelow depth maxDigits n below) :
    Sound depth maxDigits n (negation maxDigits below) .negation := fun c => by
  refine .ahead ?_
  split
  · rename_i hd
    obtain ⟨tl, hc⟩ := List.head?_eq_some_iff.mp hd
    refine .skip hc (by simp) (.bind (h .negation _) ?_)
    rintro ls' e' _ _ ⟨hn, he'⟩
    exact .pure (by simpa using Derives.minus hn he')
  · exact (power_sound h c).mono fun ls e he => .plain he

theorem productRest_sound (h : SoundBelow depth maxDigits n below) (left : Expr) :
    Sound depth maxDigits n (productRest below left) (.productRest left) := fun c => by
  have next : ∀ {s : Symbol} {op : Operator} {tl : List Lexeme}, s = .ofOperator op →
      op = .multiply ∨ op = .divide → c.ahead = .symbol s :: tl →
      Consumes (Lexeme.Passable maxDigits) (do skip; below (.productAfter left op)) c
        fun ls e => Derives depth n ls (.productRest left e) := by
    rintro s op tl rfl hop hc
    refine .skip hc (by simp) ((h (.productAfter left op) _).mono ?_)
    rintro _ e ⟨hn, ls₁, ls₂, e₁, rfl, he₁, he⟩
    exact .productNext hop hn he₁ he
  refine .ahead ?_
  split
  · rename_i hd
    obtain ⟨tl, hc⟩ := List.head?_eq_some_iff.mp hd
    exact next rfl (.inl rfl) hc
  · rename_i hd
    obtain ⟨tl, hc⟩ := List.head?_eq_some_iff.mp hd
    exact next rfl (.inr rfl) hc
  · exact .missing (.pure .productEnd)

theorem product_sound (h : SoundBelow depth maxDigits n below) :
    Sound depth maxDigits n (product maxDigits below) .product := fun c =>
  .bind (negation_sound h c) fun _ e rest _ he =>
    (productRest_sound h e rest).mono fun _ _ he' => .product he he'

theorem sumRest_sound (h : SoundBelow depth maxDigits n below) (left : Expr) :
    Sound depth maxDigits n (sumRest below left) (.sumRest left) := fun c => by
  have next : ∀ {s : Symbol} {op : Operator} {tl : List Lexeme}, s = .ofOperator op →
      op = .add ∨ op = .subtract → c.ahead = .symbol s :: tl →
      Consumes (Lexeme.Passable maxDigits) (do skip; below (.sumAfter left op)) c
        fun ls e => Derives depth n ls (.sumRest left e) := by
    rintro s op tl rfl hop hc
    refine .skip hc (by simp) ((h (.sumAfter left op) _).mono ?_)
    rintro _ e ⟨hn, ls₁, ls₂, e₁, rfl, he₁, he⟩
    exact .sumNext hop hn he₁ he
  refine .ahead ?_
  split
  · rename_i hd
    obtain ⟨tl, hc⟩ := List.head?_eq_some_iff.mp hd
    exact next rfl (.inl rfl) hc
  · rename_i hd
    obtain ⟨tl, hc⟩ := List.head?_eq_some_iff.mp hd
    exact next rfl (.inr rfl) hc
  · exact .missing (.pure .sumEnd)

/-! ## Whole rolls -/

theorem repetition_sound (h : SoundBelow depth maxDigits n below) :
    Sound depth maxDigits n (repetition maxDigits below) .repetition := fun c => by
  refine .bind (count_sound h c) fun ls e _ _ he => .bind (.symbol (by simp)) fun ls' _ _ _ hs => ?_
  subst hs
  refine .ahead ?_
  split
  · exact .bind (list_sound h _) fun ls' e' _ _ he' =>
      .pure (by simpa using Derives.repeatedList he he')
  · exact .bind (expr_sound h _) fun ls' e' _ _ he' =>
      .pure (by simpa using Derives.repeatedExpr he he')

theorem argument_sound (h : SoundBelow depth maxDigits n below) :
    Sound depth maxDigits n (argument maxDigits below) (.item true) := fun c => by
  refine .ahead ?_
  split
  · exact (list_sound h c).mono fun _ _ he => .listItem he
  · exact .orElse ((repetition_sound h c).mono fun _ _ he => .repeatedItem he)
      ((expr_sound h c).mono fun _ _ he => .plainItem he)

theorem modified_sound {dice : Phrase Expr} {ls₀ : List Lexeme}
    (h : Consumes (Lexeme.Passable maxDigits) dice c
      fun ls e => Derives depth n (ls₀ ++ ls) (.primary e)) :
    Consumes (Lexeme.Passable maxDigits) (modified dice) c
      fun ls e => Derives depth n (ls₀ ++ ls) (.modifiedDice e) := by
  refine .bind (.orWanted h) fun ls e _ _ he => ?_
  split
  · exact .pure (by simpa using Derives.modifiedDice he)
  · exact .giveUp

theorem modifiedDice_sound (h : SoundBelow depth maxDigits n below) :
    Sound depth maxDigits n (modifiedDice maxDigits below) .modifiedDice := fun c => by
  refine .ahead ?_
  split
  · rename_i hd
    exact modified_sound (dice_sound h CountDerives.none hd)
  · refine .bind (count_sound h c) fun ls e rest _ he => .ahead ?_
    split
    · rename_i hd
      exact modified_sound (dice_sound h (CountDerives.some he) hd)
    · exact .giveUp

/-! ## Nesting -/

/-- With the levels left from `n` on, what is nested is derived. -/
theorem nested_sound {levels : Nat} (hlevels : n + levels = depth) :
    SoundBelow depth maxDigits n (nested maxDigits levels) := by
  induction levels generalizing n with
  | zero => exact fun what c => .refuse
  | succ levels ih =>
    have hn : n < depth := by omega
    have h : SoundBelow depth maxDigits (n + 1) (nested maxDigits levels) := ih (by omega)
    intro what c
    cases what with
    | sum =>
      exact .bind (product_sound h c) fun _ e rest _ he =>
        (sumRest_sound h e rest).mono fun _ _ he' => .expr hn he he'
    | sumAfter left op =>
      exact .bind (product_sound h c) fun _ e rest _ he =>
        (sumRest_sound h _ rest).mono fun _ _ he' => ⟨hn, _, _, e, rfl, he, he'⟩
    | productAfter left op =>
      exact .bind (negation_sound h c) fun _ e rest _ he =>
        (productRest_sound h _ rest).mono fun _ _ he' => ⟨hn, _, _, e, rfl, he, he'⟩
    | negation => exact (negation_sound h c).mono fun _ _ he => ⟨hn, he⟩
    | power => exact (power_sound h c).mono fun _ _ he => ⟨hn, he⟩
    | expr => exact (expr_sound h c).mono fun _ _ he => ⟨hn, .plainItem he⟩
    | argument => exact (argument_sound h c).mono fun _ _ he => ⟨hn, he⟩

end Grammar

end DiceLang
