import DiceLang.Proofs.Drawn
import DiceLang.Proofs.Ordinary

/-!
# Passes over thrown dice

A modifier goes over the dice once, in one of four ways (`Pass`), which may be taken on their own,
with any test and any cap, and one after the other (`Pass.applyAll`). Whatever the dice show and
have shown stays on the table: a pass moves a value into a die's history or puts new dice beside it,
and adds what it draws and nothing else.

* `ThrownDie.shownBy`: what the dice show and have shown;
* `Pass.apply_accounts`: one pass adds to it what it draws;
* `Pass.applyAll_accounts`: so do any passes;
* `Modifier.apply_accounts`: so does a modifier.
-/

namespace DiceLang

/-- A pass over dice. -/
inductive Pass where
  | select (word : ModifierWord) (n : Int)
  | filter (keep : Bool) (hits : Int → Bool)
  | reroll (untilClear : Bool) (hits : Int → Bool) (cap : Nat)
  | explode (hits : Int → Bool) (cap : Nat)

def Pass.apply (dice : List ThrownDie) : Pass → ThrownDie.Throw (List ThrownDie)
  | .select word n => ThrownDie.select word n dice
  | .filter keep hits => .done (ThrownDie.filter keep hits dice)
  | .reroll untilClear hits cap => ThrownDie.reroll untilClear hits cap dice
  | .explode hits cap => ThrownDie.explode hits cap dice

/-- Passes over dice, one after the other. -/
def Pass.applyAll (passes : List Pass) (dice : List ThrownDie) :
    ThrownDie.Throw (List ThrownDie) :=
  passes.foldlM Pass.apply dice

/-- The pass that a modifier makes. -/
def Modifier.pass (cap : Nat) (highest : Int) : Modifier Int → Pass
  | .select selection n => .select selection.word n
  | .filter keep condition => .filter keep condition.holds
  | .reroll untilClear condition => .reroll untilClear condition.holds cap
  | .explode none => .explode (· == highest) cap
  | .explode (some condition) => .explode condition.holds cap

theorem Modifier.apply_eq (cap : Nat) (highest : Int) (dice : List ThrownDie) (m : Modifier Int) :
    m.apply cap highest dice = (m.pass cap highest).apply dice := by
  cases m with
  | select | filter | reroll => rfl
  | explode c? => cases c? <;> rfl

namespace ThrownDie

/-! ## What the dice show -/

/-- All that the die has shown, what it shows now last. -/
def shown (d : ThrownDie) : List Int := d.discarded ++ [d.value]

/-- All that the dice show and have shown, kept and dropped ones. -/
def shownBy (dice : List ThrownDie) : List Int := dice.flatMap shown

variable {F : Int → Prop} {word : ModifierWord} {n : Int} {dice : List ThrownDie}

theorem shown_dropped (d : ThrownDie) : d.dropped.shown = d.shown := rfl

theorem shown_rerolled (d : ThrownDie) (face : Int) :
    (d.rerolled face).shown = d.shown ++ [face] := rfl

theorem shownBy_cons (d : ThrownDie) (dice : List ThrownDie) :
    shownBy (d :: dice) = d.shown ++ shownBy dice := rfl

/-- To drop dice changes nothing of what is shown. -/
theorem shown_ite_dropped (c : Prop) [Decidable c] (d : ThrownDie) :
    (if c then d.dropped else d).shown = d.shown := by
  split
  · exact shown_dropped d
  · rfl

theorem shownBy_select {dice' : List ThrownDie} (h : select word n dice = .ok dice') :
    shownBy dice' = shownBy dice := by
  obtain ⟨drops, rfl⟩ := select_eq_ok h
  conv => rhs; rw [← List.zipIdx_map_fst 0 dice]
  rw [shownBy, shownBy, List.flatMap_map, List.flatMap_map]
  congr 1
  funext p
  exact shown_ite_dropped _ p.1

theorem shownBy_filter (keep : Bool) (hits : Int → Bool) (dice : List ThrownDie) :
    shownBy (filter keep hits dice) = shownBy dice := by
  rw [filter, shownBy, shownBy, List.flatMap_map]
  congr 1
  funext d
  exact shown_ite_dropped _ d

/-! ## Throws and rerolls -/

theorem throwDice_accounts (n : Nat) :
    (throwDice n).Accounts F fun dice drawn => (shownBy dice).Perm drawn := by
  have h : (throwDice n).Accounts F fun dice drawn =>
      (shownBy dice).Perm ((List.range n).flatMap (fun _ => []) ++ drawn) :=
    .mapM (List.range n) fun _ => .draw fun face _ => .pure rfl
  refine h.imp fun dice drawn h => ?_
  rwa [List.flatMap_eq_nil_iff.mpr fun _ _ => rfl] at h

theorem rerollUntilClear_accounts (hits : Int → Bool) (cap left : Nat) (d : ThrownDie) :
    (rerollUntilClear hits cap left d).Accounts F fun d' drawn => d'.shown = d.shown ++ drawn := by
  induction left generalizing d with
  | zero => exact .ite (fun _ => .failed _) fun _ => .pure (List.append_nil _).symm
  | succ left ih =>
    refine .ite (fun _ => .draw fun face _ => ?_) fun _ => .pure (List.append_nil _).symm
    exact (ih (d.rerolled face)).imp fun d' drawn h => by
      rw [h, shown_rerolled, List.append_assoc, List.singleton_append]

theorem rerollOne_accounts (untilClear : Bool) (hits : Int → Bool) (cap : Nat) (d : ThrownDie) :
    (rerollOne untilClear hits cap d).Accounts F fun d' drawn => d'.shown = d.shown ++ drawn := by
  refine .ite (fun _ => .ite (fun _ => rerollUntilClear_accounts hits cap cap d) fun _ => ?_)
    fun _ => .pure (List.append_nil _).symm
  exact .draw fun face _ => .pure (shown_rerolled d face)

/-! ## Explosions -/

/-- A die stays in front of the dice that it adds, and its mark shows nothing. -/
theorem chain_accounts (hits : Int → Bool) (cap left : Nat) (d : ThrownDie) :
    (chain hits cap left d).Accounts F fun dice drawn => shownBy dice = d.shown ++ drawn := by
  induction left generalizing d with
  | zero => exact .ite (fun _ => .failed _) fun _ => .pure rfl
  | succ left ih =>
    refine .ite (fun _ => .draw fun face _ => ?_) fun _ => .pure rfl
    refine (ih { value := face }).map fun dice drawn h => ?_
    rw [shownBy_cons, h]
    rfl

theorem explodeOne_accounts (hits : Int → Bool) (cap : Nat) (d : ThrownDie) :
    (explodeOne hits cap d).Accounts F fun dice drawn => shownBy dice = d.shown ++ drawn :=
  .ite (fun _ => chain_accounts hits cap cap d) fun _ => .pure rfl

end ThrownDie

/-! ## Passes -/

open ThrownDie

variable {F : Int → Prop}

/-- A pass adds what it draws to what the dice show and have shown. -/
theorem Pass.apply_accounts (pass : Pass) (dice : List ThrownDie) :
    (pass.apply dice).Accounts F fun dice' drawn =>
      (shownBy dice').Perm (shownBy dice ++ drawn) := by
  cases pass with
  | select word n =>
    refine .liftM fun dice' h => ?_
    rw [shownBy_select h, List.append_nil]
  | filter keep hits =>
    refine .pure ?_
    rw [shownBy_filter, List.append_nil]
  | reroll untilClear hits cap => exact .mapM dice (rerollOne_accounts untilClear hits cap)
  | explode hits cap => exact .flatMapM dice (explodeOne_accounts hits cap)

/-- Passes one after the other add what they draw. -/
theorem Pass.applyAll_accounts (passes : List Pass) (dice : List ThrownDie) :
    (Pass.applyAll passes dice).Accounts F fun dice' drawn =>
      (shownBy dice').Perm (shownBy dice ++ drawn) := by
  induction passes generalizing dice with
  | nil => exact .pure (.of_eq (List.append_nil _).symm)
  | cons pass passes ih =>
    refine (pass.apply_accounts dice).bind fun dice' drawn h => ?_
    refine (ih dice').imp fun dice'' more h' => ?_
    rw [← List.append_assoc]
    exact h'.trans (h.append_right more)

theorem Modifier.apply_accounts (cap : Nat) (highest : Int) (m : Modifier Int)
    (dice : List ThrownDie) : (m.apply cap highest dice).Accounts F fun dice' drawn =>
      (shownBy dice').Perm (shownBy dice ++ drawn) := by
  rw [Modifier.apply_eq]
  exact (m.pass cap highest).apply_accounts dice

end DiceLang
