import DiceLang.Proofs.Ensures

/-!
# Faces

The faces of a die, and which dice have any. A die comes to be thrown only if it has: its number of
sides is checked, and a list of faces is not empty.

* `Die.Throwable.shows_face`: a raw number shows a face of the die;
* `evaluateDie_throwable`: a die that an evaluation gives has faces.
-/

namespace DiceLang

/-- The die has this face. -/
def Die.Shows : Die Int → Int → Prop
  | .numbered sides, n => 1 ≤ n ∧ n ≤ sides
  | .custom faces, n => n ∈ faces

/-- The die has a face. -/
def Die.Throwable : Die Int → Prop
  | .numbered sides => 0 < sides
  | .custom faces => faces ≠ []

/-- Whatever is drawn, the die shows one of its faces. -/
theorem Die.Throwable.shows_face {die : Die Int} (h : die.Throwable) (raw : Nat) :
    die.Shows (die.face raw) := by
  cases die with
  | numbered sides =>
    have hpos : 0 < sides := h
    have hmod := Int.emod_nonneg raw (show sides ≠ 0 by omega)
    have hlt := Int.emod_lt_of_pos raw hpos
    show 1 ≤ 1 + raw % sides ∧ 1 + raw % sides ≤ sides
    omega
  | custom faces =>
    have hlt : raw % faces.length < faces.length := Nat.mod_lt _ (List.length_pos_iff.mpr h)
    show faces.getD (raw % faces.length) 0 ∈ faces
    rw [List.getD_eq_getElem?_getD, List.getElem?_eq_getElem hlt]
    exact List.getElem_mem hlt

theorem checkSides_eq_ok {limits : Limits} {sides : Int} (h : checkSides limits sides = .ok ()) :
    0 < sides := by
  unfold checkSides at h
  split at h
  · cases h
  · omega

theorem evaluateDie_throwable (limits : Limits) (d : Die Expr) :
    (evaluateDie limits d).Ensures (fun _ => True) fun d => (d.map Traced.value).Throwable := by
  cases d with
  | numbered sides =>
    refine .bind (.of_true _) fun t _ => ?_
    exact .bind (Eval.ensures_liftM fun _ h => checkSides_eq_ok h) fun _ h => .pure h
  | custom faces =>
    cases faces with
    | nil => trivial
    | cons face faces =>
      refine .bind (.of_true _) fun t _ => .bind (.of_true _) fun ts _ => .pure ?_
      exact List.cons_ne_nil _ _

end DiceLang
