import DiceLang.Proofs.HonestReading

/-!
# The reading of a roll is honest

Dice that must have a modifier, what is nested at any number of levels, and the alternatives of a
roll tried in turn.

* `Grammar.nested_honest`: what is nested;
* `Roll.phrase_honest`: where no alternative fits, the account of all of them together.
-/

namespace DiceLang

namespace Grammar

open Phrase

variable {all before ls : List Lexeme} {depth maxDigits n : Nat} {below : Nested → Phrase Expr}
  {c rest : Cursor}

/-! ## Modifiers -/

theorem mem_modifierStarts {e : Expectation} : e ∈ modifierStarts ↔
    (∃ selection : Selection, e = .word selection.word.text) ∨
      e = .word ModifierWord.keepWhere.text ∨ e = .word rerollWord ∨ e = .symbol .bang := by
  have hall : ∀ selection, selection ∈ Selection.all := by
    intro selection
    cases selection <;> decide
  simp [modifierStarts, hall, eq_comm]

/-- Each of the things that a modifier may start with starts one. -/
theorem modifierStart_derives {e : Expectation} (he : e ∈ modifierStarts) :
    ∃ l more m, e.admits (some l) = true ∧ (∀ l' ∈ l :: more, l'.Addable) ∧
      ∀ {depth n}, Derives depth n (l :: more) (.modifier m) := by
  rcases mem_modifierStarts.mp he with ⟨selection, rfl⟩ | rfl | rfl | rfl
  · exact ⟨.word selection.word.text, _, _, by simp [Expectation.admits], by simp,
      .select .zero_count⟩
  · exact ⟨.word (filterWord true), [.symbol (.ofComparison .eq), zero], _,
      by simp [Expectation.admits, filterWord], by simp, .filter .zero_count⟩
  · exact ⟨.word rerollWord, _, _, by simp [Expectation.admits], by simp,
      .reroll (.equal .zero_count)⟩
  · exact ⟨.symbol .bang, [], _, rfl, by simp, .explode⟩

/-- No modifier starts here; at most there is a `k` that no comparison follows. -/
def NoModifier (ls : List Lexeme) : Prop :=
  ∀ e ∈ modifierStarts, e.admits ls.head? = true →
    e = .word ModifierWord.keepWhere.text ∧ startsWithComparison ls.tail = false

theorem noModifier_of_head_ne {ls : List Lexeme} (hword : ∀ w, ls.head? ≠ some (.word w))
    (hbang : ls.head? ≠ some (.symbol .bang)) : NoModifier ls := fun e he hadmits => by
  have habsent : e.admits ls.head? = false := by
    rcases mem_modifierStarts.mp he with ⟨selection, rfl⟩ | rfl | rfl | rfl
    · exact Expectation.admits_word_of_ne (hword _)
    · exact Expectation.admits_word_of_ne (hword _)
    · exact Expectation.admits_word_of_ne (hword _)
    · exact Expectation.admits_symbol_of_ne hbang
  simp [habsent] at hadmits

/-- Among the words that a modifier may start with only the `k` does not make one by itself. -/
theorem eq_keepWhere_of_admits {word : String} {e : Expectation}
    (hselection : ∀ selection, Selection.ofWord? word ≠ some selection)
    (hreroll : word ≠ rerollWord) (he : e ∈ modifierStarts)
    (hadmits : e.admits (some (.word word)) = true) :
    e = .word ModifierWord.keepWhere.text ∧ word = ModifierWord.keepWhere.text := by
  rcases mem_modifierStarts.mp he with ⟨selection, rfl⟩ | rfl | rfl | rfl
  · obtain rfl : selection.word.text = word := by simpa [Expectation.admits] using hadmits
    exact absurd (Selection.ofWord?_text selection) (hselection _)
  · exact ⟨rfl, (beq_iff_eq.mp hadmits).symm⟩
  · exact absurd (beq_iff_eq.mp hadmits).symm hreroll
  · cases hadmits

/-- Where no modifier is read none starts. -/
theorem noModifier_of_reads (h : (modifier? maxDigits below).Reads c none rest) :
    c = rest ∧ NoModifier c.ahead := by
  rw [modifier?, reads_ahead_bind] at h
  split at h
  · rename_i word tl hc
    split at h
    · simp [reads_bind] at h
    · rename_i hselection
      split at h
      · obtain ⟨_, _, _, h⟩ := reads_bind.mp h
        obtain ⟨_, _, _, h⟩ := reads_bind.mp h
        rw [reads_ahead_bind] at h
        split at h <;> simp [reads_bind] at h
      · rename_i hreroll
        have hkeep : ∀ e ∈ modifierStarts, e.admits (some (.word word)) = true → _ := fun e =>
          eq_keepWhere_of_admits hselection hreroll
        rw [hc]
        split at h
        · split at h
          · simp [reads_bind] at h
          · rename_i hcomparison
            obtain ⟨_, rfl⟩ := reads_pure.mp h
            exact ⟨rfl, fun e he hadmits => ⟨(hkeep e he hadmits).1, by simpa using hcomparison⟩⟩
        · rename_i hfilter
          obtain ⟨_, rfl⟩ := reads_pure.mp h
          refine ⟨rfl, fun e he hadmits => ?_⟩
          rw [(hkeep e he hadmits).2] at hfilter
          cases hfilter
  · split at h <;> simp [reads_bind] at h
  · rename_i hword hbang
    obtain ⟨_, rfl⟩ := reads_pure.mp h
    refine ⟨rfl, noModifier_of_head_ne (fun w hd => ?_) fun hd => ?_⟩
    · obtain ⟨tl, hl⟩ := List.head?_eq_some_iff.mp hd
      exact hword w tl hl
    · obtain ⟨tl, hl⟩ := List.head?_eq_some_iff.mp hd
      exact hbang tl hl

theorem noModifier_of_modifiers (h : (modifiers maxDigits below).Reads c [] rest) :
    c = rest ∧ NoModifier c.ahead := by
  rw [modifiers, reads_ahead_bind] at h
  generalize hmost : c.ahead.length = most at h
  cases most with
  | zero =>
    obtain ⟨_, rfl⟩ := reads_pure.mp h
    rw [List.eq_nil_of_length_eq_zero hmost]
    exact ⟨rfl, noModifier_of_head_ne (by simp) (by simp)⟩
  | succ most =>
    obtain ⟨m?, mid, hm, h⟩ := reads_bind.mp h
    match m?, hm, h with
    | some m, _, h => simp [reads_bind] at h
    | none, hm, h =>
      obtain ⟨_, rfl⟩ := reads_pure.mp h
      exact noModifier_of_reads hm

/-- Dice are read to the end of their modifiers. -/
theorem dice_reads (h : SoundBelow depth maxDigits n below) {count : Option Expr} {e : Expr}
    (hd : c.ahead.head? = some (.word dieWord))
    (hread : (dice maxDigits below count).Reads c e rest) :
    ∃ ls₁ ls₂ d ms, c.ahead = .word dieWord :: (ls₁ ++ ls₂) ++ rest.ahead ∧
      Derives depth n ls₁ (.die d) ∧ Derives depth n ls₂ (.modifiers ms) ∧
      e = diceExpr count d ms ∧ (ms = [] → NoModifier rest.ahead) := by
  obtain ⟨tl, hl⟩ := List.head?_eq_some_iff.mp hd
  obtain ⟨_, _, hskip, hread⟩ := reads_bind.mp hread
  obtain rfl := reads_skip.mp hskip
  obtain ⟨d, mid, hdie, hread⟩ := reads_bind.mp hread
  obtain ⟨ms, mid', hmodifiers, hread⟩ := reads_bind.mp hread
  obtain ⟨ls₁, hls₁, _, hd⟩ := die_sound h _ d mid hdie
  obtain ⟨ls₂, hls₂, _, hms⟩ := modifiersUpTo_sound h _ mid ms mid' (reads_ahead_bind.mp hmodifiers)
  have hend : ms = [] → NoModifier mid'.ahead := by
    rintro rfl
    obtain ⟨rfl, hend⟩ := noModifier_of_modifiers hmodifiers
    exact hend
  have hahead : c.ahead = .word dieWord :: (ls₁ ++ ls₂) ++ mid'.ahead := by
    have hnext : c.next.ahead = tl := by rw [Cursor.next, hl, List.tail_cons]
    rw [hl, ← hnext, hls₁, hls₂, List.cons_append, List.append_assoc]
  split at hread
  · obtain ⟨rfl, rfl⟩ := reads_pure.mp hread
    exact ⟨ls₁, ls₂, d, [], hahead, hd, hms, rfl, hend⟩
  · rename_i hne
    obtain ⟨rfl, rfl⟩ := reads_pure.mp hread
    refine ⟨ls₁, ls₂, d, ms, hahead, hd, hms, ?_, hend⟩
    cases count <;> cases ms <;> first | rfl | exact absurd rfl (hne rfl)

/-- At the start of a text, dice that must have a modifier. -/
theorem modified_honest (h : HonestBelow all depth maxDigits 0 below) (hc : c.After all before)
    (hd : c.ahead.head? = some (.word dieWord)) {count : Option Expr}
    (hcount : CountDerives depth 0 count before)
    (hawait : ∀ depth ls₁ ls₂ d m ms, Derives depth 0 ls₁ (.die d) →
      Derives depth 0 ls₂ (.modifiers (m :: ms)) →
      Begins (before ++ .word dieWord :: (ls₁ ++ ls₂))) :
    Honest all (modified (dice maxDigits below count)) c := by
  have hdice : AwaitsDice 0 before := fun depth ls₁ ls₂ d ms hd hms => by
    cases ms with
    | nil =>
      cases hms
      have hbegins := hawait _ _ _ _ _ _ hd (.nextModifier .explode .noModifier (by simp))
      exact .of_append [.symbol .bang] (by simpa using hbegins) (by simp)
    | cons m ms => exact hawait _ _ _ _ _ _ hd hms
  obtain ⟨tl, hl⟩ := List.head?_eq_some_iff.mp hd
  have hread : Honest all ((dice maxDigits below count).orWanted modifierStarts) c := by
    refine (Honest.orWanted_reply hc (dice_honest h hc hd hdice) (h.closed.dice h.stays hd)
      fun j hj _ e he => ?_).mono (Nat.le_succ _)
    have htake := (hc.next hl).take_of_le hj
    rw [List.append_assoc, List.singleton_append] at htake
    exact .leftover (.dice hcount htake he)
  refine .bind hc hread (.orWanted (dice_sound h.sound hcount hd))
    (h.closed.orWanted (h.closed.dice h.stays hd)) fun ls e rest hr hrest _ => ?_
  split
  · exact .pure
  · rename_i hne
    obtain ⟨ls₁, ls₂, d, ms, hls, hd, hms, rfl, hend⟩ :=
      dice_reads h.sound hd (reads_orWanted.mp hr)
    cases ms with
    | cons m ms => cases count <;> exact absurd rfl (hne _ _ _ _)
    | nil =>
      cases hms
      obtain rfl : ls = .word dieWord :: ls₁ := by
        rw [hc.ahead_eq hrest, List.append_nil] at hls
        exact List.append_cancel_right hls
      have hfollows : ∀ e ∈ modifierStarts, e.Follows (all.take rest.index) := fun e he => by
        obtain ⟨l, more, m, hl, hadd, hm⟩ := modifierStart_derives he
        have hbegins := hawait _ _ _ _ _ _ hd (.nextModifier hm .noModifier (by simp))
        rw [hrest.take_index]
        exact .of_begins more (by simpa using hbegins) hl hadd
      refine .giveUp ⟨.symbol .bang, by decide, hfollows _ (by decide)⟩ fun e he => ?_
      by_cases hadmits : e.admits rest.ahead.head? = true
      · obtain ⟨rfl, hbare⟩ := hend rfl e he hadmits
        exact .bareKeep rfl (hfollows _ he) (by rwa [hrest.drop_succ_index])
      · exact .missing (hfollows e he) (by rw [hrest.getElem?_index]; simpa using hadmits)

theorem modifiedDice_honest (h : HonestBelow all depth maxDigits 0 below) (hc : c.After all [])
    (hawait : Awaits 0 [] .modifiedDice) : Honest all (modifiedDice maxDigits below) c := by
  refine .ahead ?_
  split
  · rename_i hd
    exact modified_honest h hc hd .none fun depth ls₁ ls₂ d m ms hd hms =>
      hawait _ _ _ (.modifiedDice (.oneModified hd hms))
  · have hcount : Awaits 0 [] .count := fun depth ls e he => by
      have hmodified := Derives.modifiedDice
        (.dice he (.numbered .zero_count) (.nextModifier .explode .noModifier (by simp)))
      exact .of_append _ (by simpa using hawait _ _ _ hmodified) (by simp)
    refine .bind hc (count_honest h hc hcount) (count_sound h.sound c) (h.closed.count h.stays c)
      fun ls e rest _ hrest he => .ahead ?_
    have hdice : ∀ depth' ls₁ ls₂ d m ms, Derives depth' 0 ls₁ (.die d) →
        Derives depth' 0 ls₂ (.modifiers (m :: ms)) →
        Begins ([] ++ ls ++ .word dieWord :: (ls₁ ++ ls₂)) := by
      intro depth' ls₁ ls₂ d m ms hd hms
      have hmodified := Derives.modifiedDice
        (.dice (he.max_left depth') (hd.max_right depth) (hms.max_right depth))
      simpa using hawait _ _ _ hmodified
    split
    · rename_i hd
      exact modified_honest h hrest hd (.some he) hdice
    · rename_i hd
      have hbegins := hdice 0 _ _ _ _ _ (.numbered .zero_count)
        (.nextModifier .explode .noModifier (by simp))
      have hfollows : (Expectation.word dieWord).Follows ([] ++ ls) :=
        .of_begins _ hbegins (by simp [Expectation.admits]) (by simp)
      exact .lacking hrest (.single hfollows (Expectation.admits_word_of_ne hd))

/-! ## Nesting -/

/-- With the levels left from `n` on, what is nested is read honestly. -/
theorem nested_honest {levels : Nat} (hlevels : n + levels = depth) :
    HonestBelow all depth maxDigits n (nested maxDigits levels) where
  sound := nested_sound hlevels
  stays := (StaysIn.closed _).nested levels
  honest := by
    induction levels generalizing n with
    | zero => exact fun what _ _ _ _ => .refuse
    | succ levels ih =>
      have h : HonestBelow all depth maxDigits (n + 1) (nested maxDigits levels) :=
        ⟨nested_sound (by omega), (StaysIn.closed _).nested levels, ih (by omega)⟩
      intro what before c hc hawait
      cases what with
      | sum =>
        refine terms_honest h hc id fun depth ls₁ ls₂ e₁ e he₁ he => ?_
        exact hawait _ _ _ (.expr lt_max_succ (he₁.deepen n) (he.deepen n))
      | sumAfter left op =>
        refine terms_honest h hc (.binary op left) fun depth ls₁ ls₂ e₁ e he₁ he => ?_
        exact hawait _ _ _ ⟨lt_max_succ, _, _, _, rfl, he₁.deepen n, he.deepen n⟩
      | productAfter left op =>
        refine factors_honest h hc (.binary op left) fun depth ls₁ ls₂ e₁ e he₁ he => ?_
        exact hawait _ _ _ ⟨lt_max_succ, _, _, _, rfl, he₁.deepen n, he.deepen n⟩
      | negation =>
        exact negation_honest h hc fun depth ls e he => hawait _ _ _ ⟨lt_max_succ, he.deepen n⟩
      | power =>
        exact power_honest h hc fun depth ls e he => hawait _ _ _ ⟨lt_max_succ, he.deepen n⟩
      | expr =>
        exact expr_honest h hc fun depth ls e he =>
          hawait _ _ _ ⟨lt_max_succ, .plainItem (he.deepen n)⟩
      | argument =>
        exact argument_honest h hc fun depth ls e he => hawait _ _ _ ⟨lt_max_succ, he.deepen n⟩

end Grammar

namespace Roll

open Grammar Phrase

variable {all : List Lexeme}

theorem whole_honest {kind : Kind} {reading : Phrase Expr} {part : Expr → Part} {depth : Nat}
    {ok : Lexeme → Prop} (hpart : (kind, part) ∈ alternatives) (h : Honest all reading ⟨0, all⟩)
    (hreads : Consumes ok reading ⟨0, all⟩ fun ls e => Derives depth 0 ls (part e))
    (hstays : StaysIn all.length reading ⟨0, all⟩) :
    Honest all (whole (kind, reading)) ⟨0, all⟩ := by
  have hc : Cursor.After all [] ⟨0, all⟩ := ⟨rfl, rfl⟩
  refine .bind hc h hreads hstays fun ls e rest _ hrest he => ?_
  have hend : Consumes ok endOfInput rest fun ls _ => ls = [] := fun _ _ hend => by
    obtain ⟨_, rfl⟩ := reads_endOfInput.mp hend
    exact ⟨[], rfl, nofun, rfl⟩
  refine .bind hrest (.ahead ?_) hend .endOfInput fun _ _ _ _ _ _ => .pure
  cases hl : rest.ahead with
  | nil => exact .pure
  | cons l tl =>
    exact .lacking hrest (.single (.endOfInput ⟨depth, e, _, hpart, he⟩) (by rw [hl]; rfl))

/-- All alternatives together keep an honest account. -/
theorem phrase_honest (limits : Limits) : Honest all (phrase limits) ⟨0, all⟩ := by
  have h : HonestBelow all limits.maxDepth limits.maxDigits 0
      (nested limits.maxDigits limits.maxDepth) := nested_honest (Nat.zero_add _)
  have hc : Cursor.After all [] ⟨0, all⟩ := ⟨rfl, rfl⟩
  have hawait : ∀ {kind part}, (kind, part) ∈ alternatives → Awaits 0 [] part :=
    fun hpart depth ls e he => SpellsRoll.begins ⟨depth, e, _, hpart, he⟩
  have hrepetition : (.list, .repetition) ∈ alternatives := by simp [alternatives]
  have hlist : (.list, .list) ∈ alternatives := by simp [alternatives]
  have hcall : (.list, .call) ∈ alternatives := by simp [alternatives]
  have hmodified : (.list, .modifiedDice) ∈ alternatives := by simp [alternatives]
  have hexpr : (.scalar, .expr) ∈ alternatives := by simp [alternatives]
  exact .orElse (whole_honest hrepetition (repetition_honest h hc (hawait hrepetition))
      (repetition_sound h.sound _) (h.closed.repetition h.stays _)) <|
    .orElse (whole_honest hlist (list_honest h hc (hawait hlist)) (list_sound h.sound _)
      (h.closed.list h.stays _)) <|
    .orElse (whole_honest hcall (call_honest h hc (hawait hcall)) (call_sound h.sound _)
      (h.closed.call h.stays _)) <|
    .orElse (whole_honest hmodified (modifiedDice_honest h hc (hawait hmodified))
      (modifiedDice_sound h.sound _) (h.closed.modifiedDice h.stays _)) <|
    .orElse_giveUp (whole_honest hexpr (expr_honest h hc (hawait hexpr)) (expr_sound h.sound _)
      (h.stays .sum _))

end Roll

end DiceLang
