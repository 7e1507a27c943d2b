import DiceLang.Proofs.ReadingSound

/-!
# What is derived is read

Each phrase of the notation reads all the lexemes that spell it, if no number among them has too
many digits and what comes after them stops the phrase, or it stumbles over a number that cannot be
converted. What is nested is read one level further down (`CompleteBelow`); the levels are counted
off in `nested_complete`.
-/

namespace DiceLang

theorem Selection.ofWord?_text (selection : Selection) :
    Selection.ofWord? selection.word.text = some selection := by
  cases selection <;> decide

theorem ofWord?_filterWord (keep : Bool) : Selection.ofWord? (filterWord keep) = none := by
  cases keep <;> decide

theorem filterWord?_filterWord (keep : Bool) : filterWord? (filterWord keep) = some keep := by
  cases keep <;> decide

theorem filterWord_ne_rerollWord (keep : Bool) : filterWord keep ≠ rerollWord := by
  cases keep <;> decide

/-- How tightly that may bind which comes after a nested phrase. -/
def Nested.stop : Nested → Nat
  | .sum | .sumAfter .. | .expr | .argument => 0
  | .productAfter .. => 1
  | .negation | .power => 2

theorem Lexeme.binding_le (l : Lexeme) : l.binding ≤ 4 := by
  unfold Lexeme.binding
  split <;> omega

theorem stops_of_le {k : Nat} (hk : 4 ≤ k) (after : List Lexeme) : Stops k after := fun l _ =>
  Nat.le_trans l.binding_le hk

namespace Grammar

open Phrase

variable {depth maxDigits n : Nat} {below : Nested → Phrase Expr}

/-- At level `n`, `p` reads whatever spells `part` with numbers that fit, if what comes after it
binds no more tightly than `stop`. -/
abbrev Complete (depth maxDigits n stop : Nat) (p : Phrase α) (part : α → Part) : Prop :=
  ∀ {ls after a}, Derives depth n ls (part a) → Stops stop after →
    p.Takes (Lexeme.Fits maxDigits) ls after a

/-- At level `n`, `below` reads all that is derived one level further down. -/
def CompleteBelow (depth maxDigits n : Nat) (below : Nested → Phrase Expr) : Prop :=
  ∀ what {ls after e}, BelowDerives depth n what ls e → Stops what.stop after →
    (below what).Takes (Lexeme.Fits maxDigits) ls after e

theorem expr_complete (h : CompleteBelow depth maxDigits n below) :
    Complete depth maxDigits n 0 (expr below) .expr := h .sum

theorem count_complete (h : CompleteBelow depth maxDigits n below) :
    Complete depth maxDigits n 4 (count maxDigits below) .count := fun he _ => by
  refine .ahead ?_
  cases he with
  | @int _ digits =>
    intro hfit
    have hdigits : (Lexeme.number digits).Fits maxDigits := hfit _ (List.mem_singleton_self _)
    simp only [List.cons_append, List.head?_cons, if_neg (Nat.not_lt.mpr hdigits)]
    split
    · exact fun _ => .inr ⟨_, rfl⟩
    · exact Takes.skip .pure hfit
  | @paren _ ls e he =>
    refine .skip (.bind (expr_complete h he ?_)
      (.map .symbol .pure))
    simp [Lexeme.binding]

theorem target_complete (h : CompleteBelow depth maxDigits n below) :
    Complete depth maxDigits n 4 (condition.target maxDigits below) .count :=
  fun he hstop => .orWanted (count_complete h he hstop)

theorem condition_complete (h : CompleteBelow depth maxDigits n below) :
    Complete depth maxDigits n 4 (condition maxDigits below) .condition := fun hc hstop => by
  refine .ahead ?_
  cases hc with
  | compared he =>
    simp only [List.cons_append, List.head?_cons, Symbol.comparison_ofComparison]
    exact .skip (.map (target_complete h he hstop) .pure)
  | equal he =>
    have bare := Takes.map (f := fun e => pure (⟨.eq, e⟩ : Condition Expr))
      (target_complete h he hstop) .pure
    rcases he.count_head with ⟨digits, tl, rfl⟩ | ⟨tl, rfl⟩
    · exact bare
    · exact bare

/-! ## Items -/

theorem Derives.items_length {inCall : Bool} {ls : List Lexeme} {es : List Expr}
    (h : Derives depth n ls (.items inCall es)) : es.length ≤ ls.length + 1 := by
  match h with
  | .lastItem _ => simp
  | .nextItem _ hes =>
    have := hes.items_length
    simp only [List.length_cons, List.length_append]
    omega

theorem itemOf_complete (h : CompleteBelow depth maxDigits n below) (hn : n < depth)
    (inCall : Bool) : Complete depth maxDigits (n + 1) 0 (below (itemOf inCall)) (.item inCall) :=
  fun he => by
    cases inCall with
    | false => exact h .expr ⟨hn, he⟩
    | true => exact h .argument ⟨hn, he⟩

theorem itemsUpTo_complete (h : CompleteBelow depth maxDigits n below) (hn : n < depth)
    {inCall : Bool} {closing : Symbol} (hclosing : (Lexeme.symbol closing).binding = 0)
    (hcomma : closing ≠ .comma) {after : List Lexeme} :
    ∀ {commas : Nat} {ls : List Lexeme} {es : List Expr},
      Derives depth (n + 1) ls (.items inCall es) → es.length ≤ commas →
      (itemsUpTo (below (itemOf inCall)) closing commas).Takes (Lexeme.Fits maxDigits)
        (ls ++ [.symbol closing]) after es
  | 0, _, _, hes, hlength => by cases hes <;> simp at hlength
  | commas + 1, _, _, .lastItem he, _ => by
    refine .bind (itemOf_complete h hn inCall he (by simp [hclosing])) (.ahead ?_)
    simp only [List.cons_append, List.head?_cons, Option.some.injEq, Lexeme.symbol.injEq,
      if_neg hcomma, if_true]
    exact .skip .pure
  | commas + 1, _, _, .nextItem he hes, hlength => by
    rw [List.append_assoc, List.cons_append]
    refine .bind (itemOf_complete h hn inCall he ?_)
      (.ahead ?_)
    · simp [Lexeme.binding]
    · simp only [List.cons_append, List.head?_cons, if_true]
      exact .skip (.map (itemsUpTo_complete h hn hclosing hcomma hes
        (Nat.le_of_succ_le_succ hlength)) .pure)

theorem items_complete (h : CompleteBelow depth maxDigits n below) (hn : n < depth)
    {inCall : Bool} {closing : Symbol} (hclosing : (Lexeme.symbol closing).binding = 0)
    (hcomma : closing ≠ .comma) {ls after : List Lexeme} {es : List Expr}
    (hes : Derives depth (n + 1) ls (.items inCall es)) :
    (items (below (itemOf inCall)) closing).Takes (Lexeme.Fits maxDigits) (ls ++ [.symbol closing])
      after es := by
  refine .ahead (itemsUpTo_complete h hn hclosing hcomma hes ?_)
  have := hes.items_length
  simp only [List.length_append, List.length_singleton]
  omega

theorem list_complete (h : CompleteBelow depth maxDigits n below) :
    Complete depth maxDigits n 4 (list below) .list := fun he _ => by
  cases he with
  | list hn hes =>
    exact .symbol_bind (.map (items_complete h hn rfl (by decide) hes) .pure)

theorem call_complete (h : CompleteBelow depth maxDigits n below) :
    Complete depth maxDigits n 4 (call below) .call := fun he _ => by
  refine .ahead ?_
  cases he with
  | callEmpty hname =>
    simp only [List.cons_append, List.head?_cons, hname]
    exact .skip (.symbol_bind (.ahead (.skip .pure)))
  | @call _ ls name es hname hn hes =>
    simp only [List.cons_append, List.head?_cons, hname]
    refine .skip (.symbol_bind (.ahead ?_))
    rw [if_neg]
    · exact .map (items_complete h hn rfl (by decide) hes) .pure
    · obtain ⟨l, tl, rfl, hl⟩ := hes.first rfl
      rintro ⟨⟩
      cases hl

/-! ## Dice -/

theorem die_complete (h : CompleteBelow depth maxDigits n below) :
    Complete depth maxDigits n 4 (die maxDigits below) .die := fun hd hstop => by
  refine .ahead ?_
  cases hd with
  | numbered he =>
    rw [if_neg]
    · exact .map (.orWanted (count_complete h he hstop)) .pure
    · rcases he.count_head with ⟨digits, tl, rfl⟩ | ⟨tl, rfl⟩ <;> simp
  | custom hn hes =>
    exact .skip (.map (items_complete h hn rfl (by decide) hes) .pure)

/-- A condition that starts with a comparison. -/
theorem comparison_complete (h : CompleteBelow depth maxDigits n below) {comparison : Comparison}
    {ls after : List Lexeme} {e : Expr} (he : Derives depth n ls (.count e)) :
    (condition maxDigits below).Takes (Lexeme.Fits maxDigits)
      (.symbol (.ofComparison comparison) :: ls) after ⟨comparison, e⟩ :=
  condition_complete h (.compared he) (stops_of_le (Nat.le_refl 4) after)

/-- What may come after a modifier that is not to take part of it. -/
structure EndsModifier (m : Modifier Expr) (after : List Lexeme) : Prop where
  noBang : ∀ cond, m = .reroll false cond → after.head? ≠ some (.symbol .bang)
  noComparison : startsWithComparison after = false

theorem modifier?_complete (h : CompleteBelow depth maxDigits n below) {ls after : List Lexeme}
    {m : Modifier Expr} (hm : Derives depth n ls (.modifier m))
    (hend : EndsModifier m after) :
    (modifier? maxDigits below).Takes (Lexeme.Fits maxDigits) ls after (some m) := by
  refine .ahead ?_
  have any : ∀ after, Stops 4 after := stops_of_le (Nat.le_refl 4)
  cases hm with
  | select he =>
    simp only [List.cons_append, Selection.ofWord?_text]
    exact .skip (.map (count_complete h he (any _)) .pure)
  | @filter _ ls keep comparison e he =>
    simp only [List.cons_append, ofWord?_filterWord, filterWord?_filterWord,
      if_neg (filterWord_ne_rerollWord keep), startsWithComparison,
      Symbol.comparison_ofComparison, Option.isSome_some, if_true]
    exact .skip (.map (comparison_complete h he) .pure)
  | reroll hcond =>
    refine .skip (.map (condition_complete h hcond (any _))
      (.ahead ?_))
    rw [List.nil_append, if_neg (hend.noBang _ rfl)]
    exact .pure
  | rerollUntil hcond =>
    refine .skip (.bind (condition_complete h hcond (any _))
      (.ahead ?_))
    exact .skip .pure
  | explode =>
    simp only [List.cons_append, List.nil_append, hend.noComparison]
    exact .skip .pure
  | @explodeWhere _ ls comparison e he =>
    simp only [List.cons_append, startsWithComparison, Symbol.comparison_ofComparison,
      Option.isSome_some, if_true]
    exact .skip (.map (comparison_complete h he) .pure)

theorem modifier?_none {after : List Lexeme} (hstop : Stops 3 after) :
    (modifier? maxDigits below).Takes (Lexeme.Fits maxDigits) [] after none := by
  refine .ahead ?_
  match after, hstop with
  | [], _ => exact .pure
  | .number _ :: _, _ => exact .pure
  | .word _ :: _, hstop => simp [Lexeme.binding] at hstop
  | .symbol s :: _, hstop => cases s <;> first | exact .pure | simp [Lexeme.binding] at hstop

theorem noComparison_of_stops {after : List Lexeme} (hstop : Stops 3 after) :
    startsWithComparison after = false := by
  cases after with
  | nil => rfl
  | cons l tl =>
    cases l with
    | symbol s => cases s <;> first | rfl | simp [Lexeme.binding] at hstop
    | _ => rfl

/-- After a modifier come further modifiers or what stops a set of dice. -/
theorem Derives.modifiers_noComparison {ls after : List Lexeme} {ms : List (Modifier Expr)}
    (h : Derives depth n ls (.modifiers ms)) (hstop : Stops 3 after) :
    startsWithComparison (ls ++ after) = false := by
  rcases h.head with ⟨_, rfl⟩ | ⟨l, tl, rfl, hl⟩
  · exact noComparison_of_stops hstop
  · cases l with
    | number digits => cases hl
    | word letters => rfl
    | symbol s => cases s <;> first | rfl | cases hl

theorem Derives.modifiers_length {ls : List Lexeme} {ms : List (Modifier Expr)}
    (h : Derives depth n ls (.modifiers ms)) : ms.length ≤ ls.length := by
  match h with
  | .noModifier => simp
  | .nextModifier hm hms _ =>
    have := hms.modifiers_length
    obtain ⟨l, tl, rfl, _⟩ := hm.first rfl
    simp only [List.length_cons, List.length_append]
    omega

theorem modifiersUpTo_complete (h : CompleteBelow depth maxDigits n below) {after : List Lexeme}
    (hstop : Stops 3 after) :
    ∀ {most : Nat} {ls : List Lexeme} {ms : List (Modifier Expr)},
      Derives depth n ls (.modifiers ms) → ms.length ≤ most →
      (modifiersUpTo maxDigits below most).Takes (Lexeme.Fits maxDigits) ls after ms
  | 0, _, _, .noModifier, _ => .pure
  | 0, _, _, .nextModifier .., hlength => by simp at hlength
  | most + 1, _, _, .noModifier, _ => .map (modifier?_none hstop) .pure
  | most + 1, _, _, .nextModifier hm hms hbang, hlength => by
    refine .bind (modifier?_complete h hm ⟨?_, ?_⟩)
      (.map (modifiersUpTo_complete h hstop hms
        (Nat.le_of_succ_le_succ hlength)) .pure)
    · intro cond e
      rcases hms.head with ⟨_, rfl⟩ | ⟨l, tl, rfl, _⟩
      · exact hstop.head_ne (by decide)
      · exact hbang cond e
    · exact hms.modifiers_noComparison hstop

theorem modifiers_complete (h : CompleteBelow depth maxDigits n below) :
    Complete depth maxDigits n 3 (modifiers maxDigits below) .modifiers := fun hms hstop => by
  refine .ahead (modifiersUpTo_complete h hstop hms ?_)
  have := hms.modifiers_length
  rw [List.length_append]
  omega

/-- The tree of a set of dice, or of a single die. -/
def diceExpr : Option Expr → Die Expr → List (Modifier Expr) → Expr
  | none, d, [] => .die d
  | count, d, ms => .dice count d ms

theorem dice_complete (h : CompleteBelow depth maxDigits n below) {count : Option Expr}
    {ls₁ ls₂ after : List Lexeme} {d : Die Expr} {ms : List (Modifier Expr)}
    (hd : Derives depth n ls₁ (.die d)) (hms : Derives depth n ls₂ (.modifiers ms))
    (hstop : Stops 3 after) :
    (dice maxDigits below count).Takes (Lexeme.Fits maxDigits) (.word dieWord :: (ls₁ ++ ls₂)) after
      (diceExpr count d ms) := by
  refine .skip (.bind (die_complete h hd
    (stops_of_le (Nat.le_refl 4) _)) ?_)
  refine .map (modifiers_complete h hms hstop) ?_
  cases count <;> cases ms <;> exact .pure

/-- A primary is a count, or dice after a count or none, or a call. -/
inductive PrimaryShape (depth n : Nat) : List Lexeme → Expr → Prop
  | count {ls e} : Derives depth n ls (.count e) → PrimaryShape depth n ls e
  | dice {ls₁ ls₂ ls₃ count d ms} : CountDerives depth n count ls₁ → Derives depth n ls₂ (.die d) →
      Derives depth n ls₃ (.modifiers ms) →
      PrimaryShape depth n (ls₁ ++ .word dieWord :: (ls₂ ++ ls₃)) (diceExpr count d ms)
  | call {ls e} : Derives depth n ls (.call e) → PrimaryShape depth n ls e

theorem Derives.primary_shape {ls : List Lexeme} {e : Expr} (h : Derives depth n ls (.primary e)) :
    PrimaryShape depth n ls e := by
  cases h with
  | number he => exact .count he
  | dice he hd hms => exact .dice (.some he) hd hms
  | oneDie hd => simpa [diceExpr] using PrimaryShape.dice .none hd .noModifier
  | oneModified hd hms => exact .dice .none hd hms
  | called he => exact .call he

/-! ## Arithmetic -/

theorem Derives.call_head {ls : List Lexeme} {e : Expr} (h : Derives depth n ls (.call e)) :
    ∃ name tl, ls = .word name :: tl ∧ isReserved name = false := by
  cases h with
  | callEmpty hname => exact ⟨_, _, rfl, hname⟩
  | call hname => exact ⟨_, _, rfl, hname⟩

theorem ne_dieWord {name : String} (h : isReserved name = false) : name ≠ dieWord := by
  rintro rfl
  simp [isReserved] at h

theorem primary_complete (h : CompleteBelow depth maxDigits n below) :
    Complete depth maxDigits n 3 (primary maxDigits below) .primary := by
  intro ls after e he hstop
  have any : ∀ after, Stops 4 after := stops_of_le (Nat.le_refl 4)
  refine .ahead ?_
  cases he.primary_shape with
  | count he =>
    have bare : (if after.head? = some (.word dieWord) then dice maxDigits below (some e)
        else pure e).Takes (Lexeme.Fits maxDigits) [] after e := by
      rw [if_neg (hstop.head_ne (by decide))]
      exact .pure
    rcases he.count_head with ⟨digits, tl, rfl⟩ | ⟨tl, rfl⟩
    · exact .map (count_complete h he (any _)) (.ahead bare)
    · exact .map (count_complete h he (any _)) (.ahead bare)
  | @dice ls₁ ls₂ ls₃ count d ms hcount hd hms =>
    have hdice : ∀ count, (dice maxDigits below count).Takes (Lexeme.Fits maxDigits)
        (.word dieWord :: (ls₂ ++ ls₃)) after (diceExpr count d ms) := fun count =>
      dice_complete h hd hms hstop
    cases hcount with
    | none =>
      simp only [List.nil_append, List.cons_append, List.head?_cons, if_true]
      exact hdice none
    | some he =>
      have hcount := fun after =>
        count_complete h he (any after)
      rcases he.count_head with ⟨digits, tl, rfl⟩ | ⟨tl, rfl⟩
      · refine .bind (hcount _) (.ahead ?_)
        rw [List.cons_append, List.head?_cons, if_pos rfl]
        exact hdice _
      · refine .bind (hcount _) (.ahead ?_)
        rw [List.cons_append, List.head?_cons, if_pos rfl]
        exact hdice _
  | call he =>
    have hcall := call_complete h he (any after)
    obtain ⟨name, tl, rfl, hname⟩ := he.call_head
    simp only [List.cons_append, List.head?_cons, if_neg (ne_dieWord hname), hname]
    exact hcall

theorem power_complete (h : CompleteBelow depth maxDigits n below) :
    Complete depth maxDigits n 2 (power maxDigits below) .power := by
  intro ls after e he hstop
  cases he with
  | base he =>
    refine .map (primary_complete h he (hstop.mono (by omega))) (.ahead ?_)
    rw [List.nil_append, if_neg (hstop.head_ne (by decide))]
    exact .missing .pure
  | power hn he he' =>
    refine .bind (primary_complete h he ?_) (.ahead ?_)
    · simp [Lexeme.binding]
    · exact .skip (.map (h .power ⟨hn, he'⟩ hstop) .pure)

theorem negation_complete (h : CompleteBelow depth maxDigits n below) :
    Complete depth maxDigits n 2 (negation maxDigits below) .negation := by
  intro ls after e he hstop
  refine .ahead ?_
  cases he with
  | minus hn he =>
    exact .skip (.map (h .negation ⟨hn, he⟩ hstop) .pure)
  | plain he =>
    rw [if_neg]
    · exact power_complete h he hstop
    · obtain ⟨l, tl, rfl, hl⟩ := he.first rfl
      rintro ⟨⟩
      cases hl

theorem productRest_complete (h : CompleteBelow depth maxDigits n below) (left : Expr) :
    Complete depth maxDigits n 1 (productRest below left) (.productRest left) := by
  intro ls after e he hstop
  refine .ahead ?_
  cases he with
  | productEnd =>
    rw [List.nil_append]
    split
    · exact absurd ‹_› (hstop.head_ne (by decide))
    · exact absurd ‹_› (hstop.head_ne (by decide))
    · exact .missing .pure
  | productNext hop hn he₁ he =>
    have hnext := h (.productAfter left _) ⟨hn, _, _, _, rfl, he₁, he⟩ hstop
    rcases hop with rfl | rfl
    · exact .skip hnext
    · exact .skip hnext

theorem product_complete (h : CompleteBelow depth maxDigits n below) :
    Complete depth maxDigits n 1 (product maxDigits below) .product := by
  intro ls after e he hstop
  cases he with
  | product he₁ he =>
    exact .bind (negation_complete h he₁
        (he.productRest_stops hstop))
      (productRest_complete h _ he hstop)

theorem sumRest_complete (h : CompleteBelow depth maxDigits n below) (left : Expr) :
    Complete depth maxDigits n 0 (sumRest below left) (.sumRest left) := by
  intro ls after e he hstop
  refine .ahead ?_
  cases he with
  | sumEnd =>
    rw [List.nil_append]
    split
    · exact absurd ‹_› (hstop.head_ne (by decide))
    · exact absurd ‹_› (hstop.head_ne (by decide))
    · exact .missing .pure
  | sumNext hop hn he₁ he =>
    have hnext := h (.sumAfter left _) ⟨hn, _, _, _, rfl, he₁, he⟩ hstop
    rcases hop with rfl | rfl
    · exact .skip hnext
    · exact .skip hnext

/-! ## Whole rolls -/

theorem repetition_complete (h : CompleteBelow depth maxDigits n below) :
    Complete depth maxDigits n 0 (repetition maxDigits below) .repetition := by
  intro ls after e he hstop
  have any : ∀ after, Stops 4 after := stops_of_le (Nat.le_refl 4)
  cases he with
  | repeatedList he₁ he₂ =>
    refine .bind (count_complete h he₁ (any _))
      (.symbol_bind (.ahead ?_))
    rw [if_pos]
    · exact .map (list_complete h he₂ (any _)) .pure
    · cases he₂
      rfl
  | repeatedExpr he₁ he₂ =>
    refine .bind (count_complete h he₁ (any _))
      (.symbol_bind (.ahead ?_))
    rw [if_neg]
    · exact .map (expr_complete h he₂ hstop) .pure
    · obtain ⟨l, tl, rfl, hl⟩ := he₂.first rfl
      rintro ⟨⟩
      cases hl

theorem count_givesUp {c : Cursor} (hc : ∀ l ∈ c.ahead.head?, l.startsCount = false) :
    (count maxDigits below).GivesUp c := by
  refine .ahead ?_
  match c.ahead, hc with
  | [], _ => exact givesUp_giveUp
  | .word _ :: _, _ => exact givesUp_giveUp
  | .number _ :: _, hc => simp [Lexeme.startsCount] at hc
  | .symbol s :: _, hc =>
    cases s <;> first | exact givesUp_giveUp | simp [Lexeme.startsCount] at hc

/-- A primary is not the start of a repetition. -/
theorem repetition_declines_of_primary (h : CompleteBelow depth maxDigits n below)
    {ls after : List Lexeme} {e : Expr} (he : Derives depth n ls (.primary e))
    (hfit : ∀ l ∈ ls, l.Fits maxDigits) (hstop : Stops 3 after) (i : Nat) :
    (repetition maxDigits below).Declines ⟨i, ls ++ after⟩ := by
  have counted : ∀ {ls after e}, Derives depth n ls (.count e) → (∀ l ∈ ls, l.Fits maxDigits) →
      after.head? ≠ some (.symbol .hash) →
      (repetition maxDigits below).Declines ⟨i, ls ++ after⟩ := fun he hfit hafter =>
    (count_complete h he (stops_of_le (Nat.le_refl 4) _)).declines hfit
      (fun _ => (GivesUp.bind (givesUp_symbol hafter)).declines) i
  cases he.primary_shape with
  | count he => exact counted he hfit (hstop.head_ne (by decide))
  | dice hcount =>
    cases hcount with
    | none => exact (GivesUp.bind (count_givesUp (by simp [Lexeme.startsCount]))).declines
    | some he =>
      rw [List.append_assoc]
      exact counted he (List.forall_mem_append.mp hfit).1 (by simp)
  | call he =>
    obtain ⟨name, tl, rfl, _⟩ := he.call_head
    exact (GivesUp.bind (count_givesUp (by simp [Lexeme.startsCount]))).declines

/-- An expression is not the start of a repetition. -/
theorem repetition_declines_of_expr (h : CompleteBelow depth maxDigits n below)
    {ls after : List Lexeme} {e : Expr} (he : Derives depth n ls (.expr e))
    (hfit : ∀ l ∈ ls, l.Fits maxDigits) (hstop : Stops 0 after) (i : Nat) :
    (repetition maxDigits below).Declines ⟨i, ls ++ after⟩ := by
  rcases he.expr_start with ⟨tl, rfl⟩ | ⟨ls₁, ls₂, e₁, rfl, he₁, hrest⟩
  · exact (GivesUp.bind (count_givesUp (by simp [Lexeme.startsCount]))).declines
  · rw [List.append_assoc]
    exact repetition_declines_of_primary h he₁ (List.forall_mem_append.mp hfit).1
      (hrest.1 _ hstop) i

theorem argument_complete (h : CompleteBelow depth maxDigits n below) :
    Complete depth maxDigits n 0 (argument maxDigits below) (.item true) := by
  intro ls after e he hstop
  refine .ahead ?_
  cases he with
  | plainItem he =>
    rw [if_neg]
    · exact .orElse_right (fun hfit => repetition_declines_of_expr h he hfit hstop)
        (expr_complete h he hstop)
    · obtain ⟨l, tl, rfl, hl⟩ := he.first rfl
      rintro ⟨⟩
      cases hl
  | listItem he =>
    rw [if_pos]
    · exact list_complete h he (hstop.mono (by omega))
    · cases he
      rfl
  | repeatedItem he =>
    rw [if_neg]
    · exact .orElse_left (repetition_complete h he hstop)
    · obtain ⟨l, tl, rfl, hl⟩ := he.first rfl
      rintro ⟨⟩
      cases hl

theorem modifiedDice_complete (h : CompleteBelow depth maxDigits n below) :
    Complete depth maxDigits n 3 (modifiedDice maxDigits below) .modifiedDice := by
  intro ls after e he hstop
  refine .ahead ?_
  cases he with
  | @modifiedDice _ _ count d m ms he =>
    cases he with
    | number he => nomatch he
    | called he => nomatch he
    | oneModified hd hms =>
      simp only [List.cons_append, List.head?_cons, if_true]
      exact .map (.orWanted (dice_complete h hd hms hstop)) .pure
    | dice he hd hms =>
      rw [if_neg]
      · refine .bind (count_complete h he (stops_of_le (Nat.le_refl 4) _)) (.ahead ?_)
        rw [List.cons_append, List.head?_cons, if_pos rfl]
        exact .map (.orWanted (dice_complete h hd hms hstop)) .pure
      · rcases he.count_head with ⟨digits, tl, rfl⟩ | ⟨tl, rfl⟩ <;> simp

/-! ## Nesting -/

/-- With the levels left from `n` on, whatever is derived is read. -/
theorem nested_complete {levels : Nat} (hlevels : n + levels = depth) :
    CompleteBelow depth maxDigits n (nested maxDigits levels) := by
  induction levels generalizing n with
  | zero =>
    intro what ls after e he hstop
    cases what with
    | sum =>
      cases he
      omega
    | _ =>
      have := he.1
      omega
  | succ levels ih =>
    have h : CompleteBelow depth maxDigits (n + 1) (nested maxDigits levels) := ih (by omega)
    intro what ls after e he hstop
    cases what with
    | sum =>
      cases he with
      | expr _ he₁ he =>
        exact .bind (product_complete h he₁
            (he.sumRest_stops hstop))
          (sumRest_complete h _ he hstop)
    | sumAfter left op =>
      obtain ⟨_, ls₁, ls₂, e₁, rfl, he₁, he⟩ := he
      exact .bind (product_complete h he₁
          (he.sumRest_stops hstop))
        (sumRest_complete h _ he hstop)
    | productAfter left op =>
      obtain ⟨_, ls₁, ls₂, e₁, rfl, he₁, he⟩ := he
      exact .bind (negation_complete h he₁
          (he.productRest_stops hstop))
        (productRest_complete h _ he hstop)
    | negation => exact negation_complete h he.2 hstop
    | power => exact power_complete h he.2 hstop
    | expr =>
      cases he.2 with
      | plainItem he => exact expr_complete h he hstop
    | argument => exact argument_complete h he.2 hstop

end Grammar

end DiceLang
