import DiceLang.Evaluate
import DiceLang.Proofs.Path
import DiceLang.Supply

/-!
# What is read of a script

An evaluation looks at the random numbers one after another, and at none before it needs it: how it
ends depends on the numbers that it takes and on no others, and where one of these is missing it
stops there.

* `Chance.Path.run_script`, `Chance.Path.run_cut`: a script that starts with the numbers that lead
  to the end, and one that runs out among them;
* `Roll.run_readsFirst`: expressions, however they are asked for, and whole rolls.
-/

namespace DiceLang

namespace Chance

variable {ε α : Type} {x : Chance Nat ε α} {drawn numbers : List Nat} {ending : Ending ε α}

/-- What is taken from a script are its first numbers, and what comes after them is left. -/
theorem takes_script_iff {taken : Nat} {rest : Supply} :
    Takes Supply.next? ⟨.script numbers, taken⟩ drawn rest ↔
      ∃ left, numbers = drawn ++ left ∧ rest = ⟨.script left, taken + drawn.length⟩ := by
  induction drawn generalizing numbers taken with
  | nil =>
    constructor
    · intro h
      cases h
      exact ⟨numbers, rfl, rfl⟩
    · rintro ⟨left, rfl, rfl⟩
      exact .nil
  | cons n drawn ih =>
    constructor
    · intro h
      cases h with
      | cons hnext htakes =>
        cases numbers with
        | nil => cases hnext
        | cons m numbers =>
          obtain ⟨rfl, rfl⟩ := Prod.mk.inj (Option.some.inj hnext)
          obtain ⟨left, rfl, rfl⟩ := ih.mp htakes
          exact ⟨left, rfl, by rw [List.length_cons, Nat.add_assoc, Nat.add_comm 1]⟩
    · rintro ⟨left, rfl, rfl⟩
      refine .cons rfl (ih.mpr ⟨left, rfl, ?_⟩)
      rw [List.length_cons, Nat.add_assoc, Nat.add_comm 1]

namespace Path

/-- What comes after the numbers that are drawn is left as it is. -/
theorem run_script (h : Path x drawn ending) (rest : List Nat) (taken : Nat) :
    x.run Supply.next? ⟨.script (drawn ++ rest), taken⟩ =
      (ending, ⟨.script rest, taken + drawn.length⟩) :=
  h.run (takes_script_iff.mpr ⟨rest, rfl, rfl⟩)

/-- A script that breaks off among the numbers is used up. -/
theorem run_cut (h : Path x drawn ending) {j : Nat} (hj : j < drawn.length) (taken : Nat) :
    x.run Supply.next? ⟨.script (drawn.take j), taken⟩ = (.exhausted, ⟨.script [], taken + j⟩) := by
  induction h generalizing j taken with
  | done a => exact absurd hj (Nat.not_lt_zero j)
  | failed e => exact absurd hj (Nat.not_lt_zero j)
  | @draw next n drawn ending _ ih =>
    cases j with
    | zero => rfl
    | succ j =>
      have hj : j < drawn.length := Nat.lt_of_succ_lt_succ hj
      calc (Chance.draw next).run Supply.next? ⟨.script (List.take (j + 1) (n :: drawn)), taken⟩
        _ = (next n).run Supply.next? ⟨.script (drawn.take j), taken + 1⟩ := rfl
        _ = (.exhausted, ⟨.script [], taken + 1 + j⟩) := ih hj (taken + 1)
        _ = (.exhausted, ⟨.script [], taken + (j + 1)⟩) := by rw [Nat.add_assoc, Nat.add_comm 1]

end Path

/-- A run that does not run out of numbers has drawn those that lead to its end. -/
theorem exists_path {taken : Nat} {rest : Supply}
    (hrun : x.run Supply.next? ⟨.script numbers, taken⟩ = (ending, rest))
    (hending : ending ≠ .exhausted) :
    ∃ drawn left, numbers = drawn ++ left ∧ Path x drawn ending ∧
      rest = ⟨.script left, taken + drawn.length⟩ := by
  obtain ⟨drawn, hpath, htakes⟩ := exists_path_of_run hrun hending
  obtain ⟨left, hnumbers, hrest⟩ := takes_script_iff.mp htakes
  exact ⟨drawn, left, hnumbers, hpath, hrest⟩

/-- Of a script the computation reads the first `k` numbers and no others: any script that starts
with these leads to the same end, and any script that is cut short among them runs out. -/
structure ReadsFirst (x : Chance Nat ε α) (k : Nat) (numbers : List Nat) (ending : Ending ε α) :
    Prop where
  le_length : k ≤ numbers.length
  same : ∀ (numbers' : List Nat) (taken : Nat), numbers'.take k = numbers.take k →
    x.run Supply.next? ⟨.script numbers', taken⟩ = (ending, ⟨.script (numbers'.drop k), taken + k⟩)
  cut : ∀ (j taken : Nat), j < k →
    x.run Supply.next? ⟨.script (numbers.take j), taken⟩ = (.exhausted, ⟨.script [], taken + j⟩)

theorem readsFirst_of_run {taken k : Nat} {source : Source}
    (hrun : x.run Supply.next? ⟨.script numbers, taken⟩ = (ending, ⟨source, taken + k⟩))
    (hending : ending ≠ .exhausted) : x.ReadsFirst k numbers ending := by
  obtain ⟨drawn, left, rfl, hpath, hrest⟩ := exists_path hrun hending
  obtain rfl : k = drawn.length := Nat.add_left_cancel (congrArg Supply.taken hrest)
  refine ⟨by simp, fun numbers' taken hsame => ?_, fun j taken hj => ?_⟩
  · rw [List.take_left] at hsame
    conv => lhs; rw [← List.take_append_drop drawn.length numbers', hsame]
    exact hpath.run_script _ taken
  · rw [List.take_append_of_le_length (Nat.le_of_lt hj)]
    exact hpath.run_cut hj taken

end Chance

/-- An evaluation that ends with a value or an error after `k` numbers has read just the first `k`
of its script. -/
theorem Roll.run_readsFirst (limits : Limits) (numbers : List Nat) (taken k : Nat)
    (source : Source) :
    (∀ (e : Expr) (ending : Chance.Ending Failure (Traced Value)),
      (e.evaluate limits).run Supply.next? ⟨.script numbers, taken⟩ =
        (ending, ⟨source, taken + k⟩) → ending ≠ .exhausted →
      (e.evaluate limits).ReadsFirst k numbers ending) ∧
    (∀ (e : Expr) (function : String) (ending : Chance.Ending Failure (Traced Int)),
      (e.number limits function).run Supply.next? ⟨.script numbers, taken⟩ =
        (ending, ⟨source, taken + k⟩) → ending ≠ .exhausted →
      (e.number limits function).ReadsFirst k numbers ending) ∧
    (∀ (e : Expr) (function : String) (ending : Chance.Ending Failure (Traced (List Element))),
      (e.elements limits function).run Supply.next? ⟨.script numbers, taken⟩ =
        (ending, ⟨source, taken + k⟩) → ending ≠ .exhausted →
      (e.elements limits function).ReadsFirst k numbers ending) ∧
    (∀ (roll : Roll) (ending : Chance.Ending Failure (Traced Value)),
      (roll.evaluate limits).run Supply.next? ⟨.script numbers, taken⟩ =
        (ending, ⟨source, taken + k⟩) → ending ≠ .exhausted →
      (roll.evaluate limits).ReadsFirst k numbers ending) :=
  ⟨fun _ _ => Chance.readsFirst_of_run, fun _ _ _ => Chance.readsFirst_of_run,
    fun _ _ _ => Chance.readsFirst_of_run, fun _ _ => Chance.readsFirst_of_run⟩

/-- Two dice, of which one explodes: three numbers are read, and the fourth is left. -/
theorem Roll.run_readsFirst_exploding : ∃ roll t,
    (Roll.evaluate {} roll).run Supply.next? ⟨.script [5, 2, 0, 8], 0⟩ =
        (.value t, ⟨.script [8], 3⟩) ∧
      (Roll.evaluate {} roll).run Supply.next? ⟨.script [5, 2, 0], 0⟩ =
        (.value t, ⟨.script [], 3⟩) ∧
      (Roll.evaluate {} roll).run Supply.next? ⟨.script [5, 2], 0⟩ =
        (.exhausted, ⟨.script [], 2⟩) := by
  let roll : Roll := ⟨.list, .dice (some (.int 2)) (.numbered (.int 6)) [.explode none]⟩
  have hrun : (roll.evaluate {}).run Supply.next? ⟨.script [5, 2, 0, 8], 0⟩ =
      (.value ⟨.list [⟨6, "6!"⟩, ⟨1, ""⟩, ⟨3, ""⟩], "2d6! [6!, 1, 3]"⟩, ⟨.script [8], 3⟩) := rfl
  have h := (Roll.run_readsFirst {} [5, 2, 0, 8] 0 3 (.script [8])).2.2.2 roll _ hrun nofun
  exact ⟨roll, _, hrun, h.same [5, 2, 0] 0 rfl, h.cut 2 0 (by decide)⟩

end DiceLang
