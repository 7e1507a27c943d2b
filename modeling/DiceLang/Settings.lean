/-!
# Settings

What a table of players may configure: how large a roll may grow, what is rolled when nothing is
asked for, and how long a message may be.
-/

namespace DiceLang

/-- The bounds on reading and evaluating an expression. -/
structure Limits where
  /-- How often one die may be rerolled, or explode, by one modifier. -/
  rerollCap : Nat := 100
  maxDice : Nat := 1000
  maxSides : Nat := 1000000
  maxListLength : Nat := 1000
  /-- The largest magnitude that a number may have. -/
  integerLimit : Nat := 9223372036854775807
  /-- How many levels deep an expression may be nested. -/
  maxDepth : Nat := 100
deriving Repr, DecidableEq

/-- The number of digits of the largest number: a longer literal cannot fit. -/
def Limits.maxDigits (limits : Limits) : Nat := (toString limits.integerLimit).length

/-- The bounds on a message. -/
structure MessageLimits where
  /-- A message's markup must weigh less than this. -/
  budget : Nat := 199
  maxLength : Nat := 2000
deriving Repr, DecidableEq

structure Settings where
  limits : Limits := {}
  /-- Rolled when no expression is given. -/
  defaultRoll : String := "1d20"
  message : MessageLimits := {}
deriving Repr, DecidableEq

end DiceLang
