import DiceLang.Chance

/-!
# Supplies of random numbers

Where raw random numbers come from: a script that runs out, or a linear congruential generator that
does not. A supply also counts the numbers taken from it.
-/

namespace DiceLang

inductive Source where
  | script (numbers : List Nat)
  | generator (state : UInt64)
deriving Repr, DecidableEq

namespace Source

/-- The generator that starts from `seed`, read modulo 2⁶⁴. -/
def seeded (seed : Int) : Source :=
  .generator (seed % 18446744073709551616).toNat.toUInt64

/-- The next raw number. A generator gives the upper 31 of its 64 bits, as the lower ones have short
periods. -/
def next? : Source → Option (Nat × Source)
  | .script [] => none
  | .script (n :: rest) => some (n, .script rest)
  | .generator state =>
    let state := state * 6364136223846793005 + 1442695040888963407
    some ((state >>> 33).toNat, .generator state)

end Source

structure Supply where
  source : Source
  /-- How many numbers were taken. -/
  taken : Nat := 0
deriving Repr, DecidableEq

def Supply.next? (s : Supply) : Option (Nat × Supply) :=
  s.source.next?.map fun (n, source) => (n, ⟨source, s.taken + 1⟩)

end DiceLang
