import DiceLang.Chance
import DiceLang.EvalError
import DiceLang.Settings

/-!
# Thrown dice

Dice on the table, with all that happened to each, and the modifiers that change them. A modifier
draws faces of the die that was thrown; it never draws for a die that is dropped, and a dropped die
stays as it is.
-/

namespace DiceLang

structure ThrownDie where
  value : Int
  /-- The values before its rerolls, oldest first. -/
  discarded : List Int := []
  kept : Bool := true
  exploded : Bool := false
deriving Repr, DecidableEq

namespace ThrownDie

/-- What is thrown with dice: draws of faces. -/
abbrev Throw (α : Type) : Type := Chance Int EvalError α

def struck (n : Int) : String := "~~" ++ toString n ++ "~~"

/-- The die as the trace shows it: what is gone is struck out, an exploded die has a `!`. -/
def fragment (d : ThrownDie) : String :=
  let current := (if d.kept then toString d.value else struck d.value)
    ++ (if d.exploded then "!" else "")
  " ".intercalate (d.discarded.map struck ++ [current])

/-- Only a die with a history has a label. -/
def label (d : ThrownDie) : String :=
  if d.discarded.isEmpty && !d.exploded then "" else d.fragment

def dropped (d : ThrownDie) : ThrownDie := { d with kept := false }

/-- The die after a reroll that shows `face`. -/
def rerolled (d : ThrownDie) (face : Int) : ThrownDie :=
  { d with value := face, discarded := d.discarded ++ [d.value] }

/-- `n` dice. -/
def throwDice (n : Nat) : Throw (List ThrownDie) :=
  (List.range n).mapM fun _ => return { value := ← Chance.outcome }

/-! ## Selections -/

/-- The positions of the first `n` kept dice in order of value; of equal dice the earlier is first.
-/
def chosen (highFirst : Bool) (n : Nat) (dice : List ThrownDie) : List Nat :=
  let kept := dice.zipIdx.filter fun (d, _) => d.kept
  let ordered := kept.mergeSort fun (a, _) (b, _) =>
    if highFirst then b.value ≤ a.value else a.value ≤ b.value
  (ordered.take n).map Prod.snd

/-- Chooses `n` of the kept dice, and drops them or all the others. `kh` and `dh` choose the
highest, all other words the lowest; `kh` and `kl` keep the chosen, all other words drop them. -/
def select (word : ModifierWord) (n : Int) (dice : List ThrownDie) :
    Except EvalError (List ThrownDie) :=
  if n < 0 then .error (.negativeSelection word n)
  else
    let highFirst := word = .keepHigh || word = .dropHigh
    let keepChosen := word = .keepHigh || word = .keepLow
    let chosen := chosen highFirst n.toNat dice
    .ok (dice.zipIdx.map fun (d, i) =>
      if d.kept && chosen.contains i != keepChosen then d.dropped else d)

/-- Keeps the kept dice that match, or those that do not. -/
def filter (keep : Bool) (hits : Int → Bool) (dice : List ThrownDie) : List ThrownDie :=
  dice.map fun d => if d.kept && hits d.value != keep then d.dropped else d

/-! ## Rerolls -/

/-- Rerolls a die as often as it matches, `left` times at most out of `cap`. -/
def rerollUntilClear (hits : Int → Bool) (cap : Nat) : (left : Nat) → ThrownDie → Throw ThrownDie
  | 0, d => if hits d.value then .failed (.stillMatching cap) else .done d
  | left + 1, d =>
    if hits d.value then .draw fun face => rerollUntilClear hits cap left (d.rerolled face)
    else .done d

def rerollOne (untilClear : Bool) (hits : Int → Bool) (cap : Nat) (d : ThrownDie) :
    Throw ThrownDie :=
  if d.kept && hits d.value then
    if untilClear then rerollUntilClear hits cap cap d
    else .draw fun face => .done (d.rerolled face)
  else .done d

/-- Rerolls the kept dice that match, one after the other: each once, or until it is clear. -/
def reroll (untilClear : Bool) (hits : Int → Bool) (cap : Nat) (dice : List ThrownDie) :
    Throw (List ThrownDie) :=
  dice.mapM (rerollOne untilClear hits cap)

/-! ## Explosions -/

/-- A die with the dice that it adds when it explodes, and so on; `left` times at most out of
`cap`. -/
def chain (hits : Int → Bool) (cap : Nat) : (left : Nat) → ThrownDie → Throw (List ThrownDie)
  | 0, d => if hits d.value then .failed (.stillExploding cap) else .done [d]
  | left + 1, d =>
    if hits d.value then
      .draw fun face =>
        ({ d with exploded := true } :: ·) <$> chain hits cap left { value := face }
    else .done [d]

def explodeOne (hits : Int → Bool) (cap : Nat) (d : ThrownDie) : Throw (List ThrownDie) :=
  if d.kept then chain hits cap cap d else .done [d]

/-- Adds a die after every kept die that matches, and after the added ones that match. -/
def explode (hits : Int → Bool) (cap : Nat) (dice : List ThrownDie) : Throw (List ThrownDie) :=
  dice.flatMapM (explodeOne hits cap)

end ThrownDie

/-- Applies a modifier whose numbers are known to dice whose highest face is `highest`. -/
def Modifier.apply (cap : Nat) (highest : Int) (dice : List ThrownDie) :
    Modifier Int → ThrownDie.Throw (List ThrownDie)
  | .select selection n => ThrownDie.select selection.word n dice
  | .filter keep condition => .done (ThrownDie.filter keep condition.holds dice)
  | .reroll untilClear condition => ThrownDie.reroll untilClear condition.holds cap dice
  | .explode none => ThrownDie.explode (· == highest) cap dice
  | .explode (some condition) => ThrownDie.explode condition.holds cap dice

end DiceLang
