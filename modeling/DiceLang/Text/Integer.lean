import DiceLang.Text.Blank
import DiceLang.Text.Digit

/-!
# Reading integers

An integer as a person types it, in ASCII digits. White space may stand around it, a sign and zeros
before it, single underscores between its digits, and a fraction of zeros after it. Among the zeros
in front any number of underscores may stand together, and the minus sign may follow the zeros
instead of preceding them. What is left, with a minus sign, must not be longer than a number that is
converted may be.
-/

namespace DiceLang.Text

/-- The sign in front and the rest. -/
def splitSign : List Char → Bool × List Char
  | '-' :: rest => (true, rest)
  | '+' :: rest => (false, rest)
  | chars => (false, chars)

/-- Digits, with single underscores between them. -/
def digitGroups : List Char → Option (List Char)
  | [] => none
  | [c] => if c.isDigit then some [c] else none
  | c :: '_' :: rest => if c.isDigit then (digitGroups rest).map (c :: ·) else none
  | c :: rest => if c.isDigit then (digitGroups rest).map (c :: ·) else none

/-- Without a fraction of zeros, which has one zero at least. -/
def dropZeroFraction (chars : List Char) : List Char :=
  match chars.dropWhile (· != '.') with
  | _ :: '0' :: zeros => if zeros.all (· == '0') then chars.takeWhile (· != '.') else chars
  | _ => chars

/-- Without the zeros in front and the underscores among them. Where nothing else follows, the last
of them stays. -/
def dropLeadingZeros : List Char → List Char
  | '0' :: rest =>
    match rest.dropWhile fun c => c == '0' || c == '_' with
    | [] => [rest.getLastD '0']
    | significant => significant
  | chars => chars

/-- Whether the first of several digits is a zero. -/
def hasSpareZero (digits : List Char) : Bool := digits.head? == some '0' && digits != ['0']

/-- The digits behind a minus sign that follows zeros: an underscore may come first, and there are
no further zeros in front. -/
def digitsAfterLateMinus (chars : List Char) : Option (List Char) :=
  let digits := if chars.head? == some '_' then chars.tail else chars
  if hasSpareZero digits then none else digitGroups digits

/-- Whether the integer is negative, and its digits without zeros in front. -/
def signAndDigits (chars : List Char) : Option (Bool × List Char) :=
  let (negative, rest) := splitSign chars
  let body := dropZeroFraction rest
  match negative, body, dropLeadingZeros body with
  | false, '0' :: _, '-' :: rest => (digitsAfterLateMinus rest).map (true, ·)
  | _, _, digits => (digitGroups digits).map (negative, ·)

def signed (negative : Bool) (n : Nat) : Int := if negative then -n else n

/-- Whether the text starts with an integer that is too long as it stands. -/
def startsTooLong (chars : List Char) : Bool :=
  let (sign, rest) := chars.span (· == '-')
  sign.length ≤ 1 && rest.head? != some '0' &&
    sign.length + (rest.takeWhile Char.isDigit).length > maxNumeralLength

/-- Why a text is not read as an integer. -/
inductive NumeralError where
  | malformed
  /-- It is too long as it stands. One whose digits must first be gathered is malformed if they are
  too many. -/
  | tooLong
deriving Repr, DecidableEq

/-- The integer that `text` writes. -/
def readInteger (text : String) : Except NumeralError Int :=
  if startsTooLong text.toList then .error .tooLong
  else match signAndDigits (trimmed isWhiteSpace text).toList with
    | none => .error .malformed
    | some (negative, digits) =>
      if negative.toNat + digits.length > maxNumeralLength then .error .malformed
      else .ok (signed negative (numeral (String.ofList digits)))

end DiceLang.Text
