/-!
# Decimal digits

The digits of every script that writes numbers in tens (Unicode's category `Nd`). A script's ten
digits are consecutive, so the table lists only its zeros.

* `digitValue?_ascii`: on `0` to `9` a digit's value is the usual one.
-/

namespace DiceLang.Text

/-- The code points of the digits zero, in ascending order. -/
def digitZeros : List Nat :=
  0x30 :: [0x660, 0x6F0, 0x7C0, 0x966, 0x9E6, 0xA66, 0xAE6, 0xB66, 0xBE6, 0xC66, 0xCE6, 0xD66,
   0xDE6, 0xE50, 0xED0, 0xF20, 0x1040, 0x1090, 0x17E0, 0x1810, 0x1946, 0x19D0, 0x1A80, 0x1A90,
   0x1B50, 0x1BB0, 0x1C40, 0x1C50, 0xA620, 0xA8D0, 0xA900, 0xA9D0, 0xA9F0, 0xAA50, 0xABF0,
   0xFF10, 0x104A0, 0x10D30, 0x11066, 0x110F0, 0x11136, 0x111D0, 0x112F0, 0x11450, 0x114D0,
   0x11650, 0x116C0, 0x11730, 0x118E0, 0x11950, 0x11C50, 0x11D50, 0x11DA0, 0x16A60, 0x16AC0,
   0x16B50, 0x1D7CE, 0x1D7D8, 0x1D7E2, 0x1D7EC, 0x1D7F6, 0x1E140, 0x1E2F0, 0x1E950, 0x1FBF0]

/-- The value of a decimal digit, in any script. -/
def digitValue? (c : Char) : Option Nat :=
  (digitZeros.find? fun first => first ≤ c.toNat && c.toNat < first + 10).map (c.toNat - ·)

def isDigit (c : Char) : Bool := (digitValue? c).isSome

/-- A decimal digit's value, and nothing for any other character. -/
def digitValue (c : Char) : Nat := (digitValue? c).getD 0

/-- The number that a string of digits writes, most significant first. -/
def numeral (digits : String) : Nat :=
  digits.toList.foldl (fun n c => 10 * n + digitValue c) 0

/-- The most digits that are converted, to a number or from one. Zeros in front count. -/
def maxNumeralLength : Nat := 4300

/-- The number has no more digits than are converted. -/
def isWritable (n : Int) : Bool := (toString n.natAbs).length ≤ maxNumeralLength

theorem digitValue?_ascii {c : Char} (h : c.isDigit = true) :
    digitValue? c = some (c.toNat - 0x30) := by
  simp only [Char.isDigit, Bool.and_eq_true, decide_eq_true_eq] at h
  have low : 0x30 ≤ c.toNat := h.1
  have high : c.toNat ≤ 0x39 := h.2
  have high' : c.toNat < 0x30 + 10 := by omega
  simp [digitValue?, digitZeros, low, high']

end DiceLang.Text
