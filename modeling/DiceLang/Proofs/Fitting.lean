import DiceLang.Message
import DiceLang.Proofs.Numeral
import Mathlib.Algebra.Order.BigOperators.Group.List

/-!
# Messages fit

Whatever is in an outcome, its message is within the budget and within the length. The form that is
tried last is not weighed, and needs no weighing: its header has no markup left, its labels are
gone, and all else but one pair of backticks is plain. Cutting a message takes markup away, if at
all.

* `markupTotal`: the markup in a text, which adds up when texts are put together;
* `Outcome.markupTotal_bareMessage_le`: the last form weighs one at most;
* `Outcome.render_fits`: every message fits.
-/

namespace DiceLang

/-! ## The markup in a text -/

/-- The markup in a text, in quarters of its weight. -/
def markupTotal (text : String) : Nat := (text.toList.map markupQuarters).sum

theorem markupWeight_eq (text : String) : markupWeight text = markupTotal text / 4 := by
  rw [markupWeight, markupTotal, List.sum, List.foldr_map]

@[simp] theorem markupTotal_append (s t : String) :
    markupTotal (s ++ t) = markupTotal s + markupTotal t := by
  simp [markupTotal]

theorem markupTotal_eq_zero {text : String} (h : ∀ c ∈ text.toList, isMarkup c = false) :
    markupTotal text = 0 :=
  List.sum_eq_zero fun n hn => by
    obtain ⟨c, hc, rfl⟩ := List.mem_map.mp hn
    simpa [isMarkup] using h c hc

@[simp] theorem markupTotal_stripMarkup (text : String) : markupTotal (stripMarkup text) = 0 :=
  markupTotal_eq_zero fun c hc => by
    rw [stripMarkup, String.toList_ofList] at hc
    simpa using (List.mem_filter.mp hc).2

@[simp] theorem markupTotal_repr (n : Int) : markupTotal n.repr = 0 :=
  markupTotal_eq_zero fun c hc => by
    rcases Text.mem_repr hc with rfl | hdigit
    · rfl
    · have hne : ∀ d : Char, d.isDigit = false → c ≠ d := by
        rintro d hd rfl
        simp [hd] at hdigit
      simp [isMarkup, markupQuarters, hne '\x60' rfl, hne '~' rfl, hne '_' rfl, hne '*' rfl]

theorem markupTotal_intercalate {sep : String} {parts : List String} (hsep : markupTotal sep = 0)
    (h : ∀ p ∈ parts, markupTotal p = 0) : markupTotal (sep.intercalate parts) = 0 := by
  induction parts with
  | nil => rfl
  | cons p parts ih =>
    obtain ⟨hp, hparts⟩ := List.forall_mem_cons.mp h
    cases parts with
    | nil => simpa using hp
    | cons p' parts =>
      rw [String.intercalate_cons_cons, markupTotal_append, markupTotal_append, hp, hsep,
        ih hparts]

/-- The numbers of a list are plain. -/
theorem markupTotal_numbers (numbers : List Int) :
    markupTotal (Written.braces (numbers.map toString)) = 0 := by
  have hcommas : markupTotal (Written.commas (numbers.map toString)) = 0 := by
    refine markupTotal_intercalate rfl fun p hp => ?_
    obtain ⟨n, _, rfl⟩ := List.mem_map.mp hp
    exact markupTotal_repr n
  rw [Written.braces, markupTotal_append, markupTotal_append, hcommas]
  rfl

/-- A pair of backticks weighs one. -/
theorem markupTotal_code (text : String) : markupTotal (code text) = markupTotal text + 4 := by
  rw [code, markupTotal_append, markupTotal_append]
  show 2 + _ + 2 = _
  omega

/-! ## The last form -/

/-- Without labels, the elements stand on one line. -/
theorem messageText_stripLabels (header trace : String) {elements : List Element}
    (h : elements ≠ []) :
    messageText header (Value.list elements).stripLabels trace =
      header ++ code trace ++ "\nOutput: "
        ++ Written.braces ((Value.list elements).numbers.map toString) := by
  obtain ⟨e, elements, rfl⟩ := List.exists_cons_of_ne_nil h
  simp [Value.stripLabels, Value.mapLabels, messageText, Value.numbers, Function.comp_def]

/-- Its header is plain, and a pair of backticks is all the markup around the value. -/
theorem Outcome.markupTotal_bareMessage_le (o : Outcome) (author : String) :
    markupTotal (o.bareMessage author) ≤ 4 := by
  have hundisplayable : markupTotal undisplayable = 0 := by decide +kernel
  have houtput : markupTotal "\nOutput: " = 0 := by decide +kernel
  unfold bareMessage
  cases o.value with
  | scalar n =>
    have hscalar : markupTotal ".\nOutput: " = 0 := by decide +kernel
    simp [Value.stripLabels, Value.mapLabels, messageText, marker, markupTotal_code,
      hundisplayable, hscalar]
  | list elements =>
    by_cases h : elements = []
    · subst h
      have hnothing : markupTotal "No output." = 0 := by decide +kernel
      simp [Value.stripLabels, Value.mapLabels, messageText, hnothing]
    · simp [messageText_stripLabels _ _ h, marker, markupTotal_code, markupTotal_numbers,
        hundisplayable, houtput]

/-! ## Cutting a message -/

namespace MessageLimits

variable {limits : MessageLimits}

theorem markupTotal_truncate_le (text : String) :
    markupTotal (limits.truncate text) ≤ markupTotal text := by
  unfold truncate
  split
  · exact Nat.le_refl _
  · rw [markupTotal_append]
    show markupTotal _ + 0 ≤ _
    rw [markupTotal, markupTotal, String.toList_ofList]
    exact ((List.take_sublist _ _).map _).sum_le_sum fun _ _ => Nat.zero_le _

theorem length_truncate_le (h : 1 ≤ limits.maxLength) (text : String) :
    (limits.truncate text).length ≤ limits.maxLength := by
  unfold truncate
  split
  · assumption
  · rw [String.length_append, String.length_ofList, List.length_take]
    show _ + 1 ≤ _
    omega

theorem fits_iff {text : String} :
    limits.fits text = true ↔ markupTotal text / 4 < limits.budget := by
  rw [fits, markupWeight_eq, decide_eq_true_iff]

end MessageLimits

/-! ## The form that is chosen -/

/-- The message before it is cut to length. -/
def Outcome.uncut (limits : MessageLimits) (o : Outcome) (author : String) : String :=
  if limits.fits (o.fullMessage author) then o.fullMessage author
  else if limits.fits (o.simplifiedMessage author) then o.simplifiedMessage author
  else o.bareMessage author

theorem Outcome.render_eq (limits : MessageLimits) (o : Outcome) (author : String) :
    o.render limits author = limits.truncate (o.uncut limits author) := rfl

theorem Outcome.uncut_fits {limits : MessageLimits} (h : 2 ≤ limits.budget) (o : Outcome)
    (author : String) : limits.fits (o.uncut limits author) := by
  unfold uncut
  split
  · assumption
  · split
    · assumption
    · have hbare := o.markupTotal_bareMessage_le author
      exact MessageLimits.fits_iff.mpr (by omega)

/-- A message weighs less than the budget and is no longer than it may be, whatever the outcome and
the author. -/
theorem Outcome.render_fits (limits : MessageLimits) (hbudget : 2 ≤ limits.budget)
    (hlength : 1 ≤ limits.maxLength) (o : Outcome) (author : String) :
    markupWeight (o.render limits author) < limits.budget ∧
      (o.render limits author).length ≤ limits.maxLength := by
  rw [render_eq]
  refine ⟨?_, MessageLimits.length_truncate_le hlength _⟩
  have hfits := MessageLimits.fits_iff.mp (o.uncut_fits hbudget author)
  have hcut : markupTotal (limits.truncate (o.uncut limits author)) ≤
      markupTotal (o.uncut limits author) := MessageLimits.markupTotal_truncate_le _
  rw [markupWeight_eq]
  omega

/-- Under the smallest budget, an author and a label that are all markup: only the bare form fits,
and it is cut. -/
theorem Outcome.render_fits_bare :
    let limits : MessageLimits := ⟨2, 30⟩
    let o : Outcome := ⟨.list [⟨6, "~~1~~ 6!"⟩], "d6rr1!! [~~1~~ 6!]", "d6rr1!!", some "*_*"⟩
    2 ≤ limits.budget ∧ 1 ≤ limits.maxLength ∧
      o.render limits "\x60\x60me\x60\x60" = "me rolled \"\": \x60[could not dis…" ∧
      markupWeight (o.render limits "\x60\x60me\x60\x60") < 2 ∧
      (o.render limits "\x60\x60me\x60\x60").length ≤ 30 := by
  intro limits o
  have hfits := render_fits limits (by decide) (by decide) o "\x60\x60me\x60\x60"
  exact ⟨by decide, by decide, by decide +kernel, hfits⟩

end DiceLang
