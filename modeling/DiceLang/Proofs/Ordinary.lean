import DiceLang.Evaluate
import DiceLang.Proofs.Endings

/-!
# Errors that depend on numbers

The steps of an evaluation that know nothing of the tree, such as the checks, the arithmetic, the
functions and the modifiers, fail for the numbers that they are given, or for the limits. So their
errors are ordinary ones (`EvalError.IsOrdinary`).

* `Ordinary`: a step that draws nothing fails with an ordinary error;
* `Modifier.apply_endsIn`: so does a modifier, which changes no value but for a face that it draws.
-/

namespace DiceLang

open Chance

/-- The error depends on numbers. All others show in the tree. -/
def EvalError.IsOrdinary : EvalError → Prop
  | noFaces | unknownFunction _ | wrongArity .. | listForNumber .. | numberForList .. => False
  | _ => True

/-- The computation fails with an ordinary error, if at all. -/
def Ordinary {α : Type} (x : Except EvalError α) : Prop := ∀ err, x = .error err → err.IsOrdinary

namespace Ordinary

variable {α β : Type} {x : Except EvalError α}

theorem ok {a : α} : Ordinary (.ok a) := nofun

theorem error {err : EvalError} (h : err.IsOrdinary) : Ordinary (.error err : Except _ α) := by
  rintro _ ⟨⟩
  exact h

theorem bind {f : α → Except EvalError β} (hx : Ordinary x) (hf : ∀ a, Ordinary (f a)) :
    Ordinary (x >>= f) := by
  cases x with
  | ok a => exact hf a
  | error err => exact error (hx err rfl)

theorem map (f : α → β) (hx : Ordinary x) : Ordinary (x.map f) := by
  cases x with
  | ok a => exact ok
  | error err => exact error (hx err rfl)

theorem ite {c : Prop} [Decidable c] {y : Except EvalError α} (hx : Ordinary x)
    (hy : Ordinary y) : Ordinary (if c then x else y) := by
  split
  · exact hx
  · exact hy

end Ordinary

/-! ## Checks, arithmetic and functions -/

section

variable {limits : Limits}

theorem Limits.check_ordinary (n : Int) : Ordinary (limits.check n) := .ite (.error trivial) .ok

/-- That a number is over the limit is not told of one that is too long to be written. -/
theorem EvalError.failure_overLimit {n : Int} {limit : Nat} (h : Text.isWritable n = false) :
    (overLimit n limit).failure = .conversion := by
  rw [failure_eq_conversion, isWritable, numbers, List.all_cons, h, Bool.false_and]

theorem Operator.apply_ordinary (op : Operator) (a b : Int) : Ordinary (op.apply limits a b) := by
  cases op with
  | divide => exact .ite (.error trivial) .ok
  | power => exact .ite (.error trivial) (.ite (.error trivial) .ok)
  | _ => exact .ok

theorem literal_ordinary (n : Int) : Ordinary (literal limits n) :=
  (limits.check_ordinary n).bind fun _ => .ok

theorem combine_ordinary (op : Operator) (left right : Traced Int) :
    Ordinary (combine limits op left right) :=
  ((op.apply_ordinary _ _).bind limits.check_ordinary).bind fun _ => .ok

theorem opposite_ordinary (t : Traced Int) : Ordinary (opposite limits t) :=
  (limits.check_ordinary _).bind fun _ => .ok

theorem checkSides_ordinary (sides : Int) : Ordinary (checkSides limits sides) :=
  .ite (.error trivial) (.ite (.error trivial) .ok)

theorem checkDice_ordinary (count : Int) : Ordinary (checkDice limits count) :=
  .ite (.error trivial) (.ite (.error trivial) .ok)

theorem Builtin.extreme_ordinary (f : Builtin) (pick : List Int → Option Int)
    (elements : List Element) : Ordinary (f.extreme pick elements) := by
  unfold extreme
  split
  · exact .ok
  · exact .error trivial

/-- A function fails for what its arguments are, not for their kinds. -/
theorem Builtin.apply_ordinary (f : Builtin) (args : Arguments f.parameters) :
    Ordinary (f.apply limits args) := by
  cases f with
  | mod => exact .ite (.error trivial) .ok
  | maximum => exact extreme_ordinary _ _ _
  | minimum => exact extreme_ordinary _ _ _
  | take => exact .map _ (.ite (.error trivial) .ok)
  | drop => exact .map _ (.ite (.error trivial) .ok)
  | between => exact .ite (.error trivial) .ok
  | _ => exact .ok

theorem checkResult_ordinary (k : Kind) (result : k.Carrier) :
    Ordinary (checkResult limits k result) := by
  cases k with
  | scalar => exact .map _ (limits.check_ordinary result)
  | list => exact .ok

end

/-! ## Thrown dice -/

namespace ThrownDie

variable {p : Int → Prop} {dice : List ThrownDie} {d : ThrownDie}

/-- Each of the dice shows a value of the kind. -/
def All (p : Int → Prop) (dice : List ThrownDie) : Prop := ∀ d ∈ dice, p d.value

theorem throwDice_endsIn (n : Nat) :
    (throwDice n).EndsIn p EvalError.IsOrdinary (All p) :=
  .mapM fun _ _ => EndsIn.outcome.bind fun _ h => .pure h

theorem select_ordinary (word : ModifierWord) (n : Int) (dice : List ThrownDie) :
    Ordinary (select word n dice) := .ite (.error trivial) .ok

/-- A selection drops some of the dice, and leaves the others as they are. -/
theorem select_eq_ok {word : ModifierWord} {n : Int} {dice' : List ThrownDie}
    (h : select word n dice = .ok dice') : ∃ drops : ThrownDie × Nat → Bool,
      dice' = dice.zipIdx.map fun p => if drops p then p.1.dropped else p.1 := by
  unfold select at h
  split at h
  · cases h
  · exact ⟨_, (Except.ok.inj h).symm⟩

theorem select_all {word : ModifierWord} {n : Int} {dice' : List ThrownDie} (h : All p dice)
    (hselect : select word n dice = .ok dice') : All p dice' := by
  obtain ⟨drops, rfl⟩ := select_eq_ok hselect
  intro d hd
  obtain ⟨q, hmem, rfl⟩ := List.mem_map.mp hd
  have hvalue : p q.1.value := h q.1 (List.fst_mem_of_mem_zipIdx hmem)
  split
  · exact hvalue
  · exact hvalue

theorem filter_all {keep : Bool} {hits : Int → Bool} (h : All p dice) :
    All p (filter keep hits dice) := by
  intro d hd
  obtain ⟨d', hmem, rfl⟩ := List.mem_map.mp hd
  split
  · exact h d' hmem
  · exact h d' hmem

theorem rerollUntilClear_endsIn (hits : Int → Bool) (cap left : Nat) (h : p d.value) :
    (rerollUntilClear hits cap left d).EndsIn p EvalError.IsOrdinary fun d => p d.value := by
  induction left generalizing d with
  | zero => exact .ite (fun _ => trivial) fun _ => h
  | succ left ih => exact .ite (fun _ face hface => ih hface) fun _ => h

theorem rerollOne_endsIn (untilClear : Bool) (hits : Int → Bool) (cap : Nat) (h : p d.value) :
    (rerollOne untilClear hits cap d).EndsIn p EvalError.IsOrdinary fun d => p d.value :=
  .ite (fun _ => .ite (fun _ => rerollUntilClear_endsIn hits cap cap h) fun _ _ hface => hface)
    fun _ => h

theorem chain_endsIn (hits : Int → Bool) (cap left : Nat) (h : p d.value) :
    (chain hits cap left d).EndsIn p EvalError.IsOrdinary (All p) := by
  induction left generalizing d with
  | zero => exact .ite (fun _ => trivial) fun _ => List.forall_mem_singleton.mpr h
  | succ left ih =>
    refine .ite (fun _ face hface => ?_) fun _ => List.forall_mem_singleton.mpr h
    exact (ih hface).map fun dice hdice => List.forall_mem_cons.mpr ⟨h, hdice⟩

theorem explodeOne_endsIn (hits : Int → Bool) (cap : Nat) (h : p d.value) :
    (explodeOne hits cap d).EndsIn p EvalError.IsOrdinary (All p) :=
  .ite (fun _ => chain_endsIn hits cap cap h) fun _ => List.forall_mem_singleton.mpr h

end ThrownDie

/-- A modifier changes no value but for a face that it draws, and it fails for numbers only. -/
theorem Modifier.apply_endsIn {p : Int → Prop} {dice : List ThrownDie} (cap : Nat) (highest : Int)
    (m : Modifier Int) (h : ThrownDie.All p dice) :
    (m.apply cap highest dice).EndsIn p EvalError.IsOrdinary (ThrownDie.All p) := by
  cases m with
  | select selection n =>
    exact .liftM (ThrownDie.select_ordinary _ n dice) fun _ => ThrownDie.select_all h
  | filter keep c => exact ThrownDie.filter_all h
  | reroll untilClear c => exact .mapM fun d hd => ThrownDie.rerollOne_endsIn _ _ _ (h d hd)
  | explode c? =>
    cases c? with
    | none => exact .flatMapM fun d hd => ThrownDie.explodeOne_endsIn _ _ (h d hd)
    | some c => exact .flatMapM fun d hd => ThrownDie.explodeOne_endsIn _ _ (h d hd)

end DiceLang
