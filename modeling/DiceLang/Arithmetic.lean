import DiceLang.EvalError
import DiceLang.Settings

/-!
# Arithmetic

Exact arithmetic on integers up to a limit. A power that cannot fit is refused before it is
computed.
-/

namespace DiceLang

/-- A number within the limit. -/
def Limits.check (limits : Limits) (n : Int) : Except EvalError Int :=
  if limits.integerLimit < n.natAbs then .error (.overLimit n limits.integerLimit) else .ok n

/-- The number of binary digits. -/
def bitLength (n : Nat) : Nat := if n = 0 then 0 else n.log2 + 1

/-- `base` to a power. The powers of -1, 0 and 1 repeat, so a large exponent needs no work. -/
def powerOf (base : Int) (exponent : Nat) : Int :=
  if base.natAbs ≤ 1 ∧ 2 < exponent then base.pow (2 - exponent % 2) else base.pow exponent

/-- The result of an operation on two numbers, however large. A quotient is cut toward zero. -/
def Operator.apply (limits : Limits) : Operator → Int → Int → Except EvalError Int
  | .add, a, b => .ok (a + b)
  | .subtract, a, b => .ok (a - b)
  | .multiply, a, b => .ok (a * b)
  | .divide, a, b => if b = 0 then .error (.divisionByZero a) else .ok (a.tdiv b)
  | .power, a, b =>
    if b < 0 then .error (.negativeExponent a b)
    else if 1 < a.natAbs ∧
        bitLength limits.integerLimit < (bitLength a.natAbs - 1) * b.toNat then
      .error (.powerOverLimit a b)
    else .ok (powerOf a b.toNat)

/-- The result of an operation, if it is within the limit. -/
def Operator.calculate (limits : Limits) (op : Operator) (a b : Int) : Except EvalError Int := do
  limits.check (← op.apply limits a b)

theorem powerOf_eq (base : Int) (exponent : Nat) : powerOf base exponent = base.pow exponent := by
  unfold powerOf
  split
  · rename_i h
    have small : base = 0 ∨ base = 1 ∨ base = -1 := by omega
    have halves : exponent = 2 * ((exponent - 1) / 2) + (2 - exponent % 2) := by omega
    show base ^ (2 - exponent % 2) = base ^ exponent
    rcases small with rfl | rfl | rfl
    · rw [Int.zero_pow (by omega), Int.zero_pow (by omega)]
    · rw [Int.one_pow, Int.one_pow]
    · conv => rhs; rw [halves, Int.pow_add, Int.pow_mul]
      rw [show ((-1 : Int) ^ 2) = 1 from rfl, Int.one_pow, Int.one_mul]
  · rfl

end DiceLang
