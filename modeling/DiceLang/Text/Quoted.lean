import DiceLang.Text.Printable

/-!
# Quoted text

A text shown between quotes on one line. Single quotes are used unless the text has some and has no
double quote. The quote in use and the backslash are escaped, and so is every character that would
not be seen as itself.
-/

namespace DiceLang.Text

/-- `n` in lower-case hexadecimal, zeros in front up to `width` digits. -/
def hex (width n : Nat) : List Char :=
  let digits := Nat.toDigits 16 n
  List.replicate (width - digits.length) '0' ++ digits

def quoteFor (text : List Char) : Char :=
  if text.contains '\x27' && !text.contains '\x22' then '\x22' else '\x27'

/-- Tab, line feed and carriage return have letters of their own; other unprintable characters are
written by code point, in the shortest of the three lengths that holds it. -/
def escaped (quote c : Char) : List Char :=
  if c = quote || c = '\\' then ['\\', c]
  else if c = '\t' then ['\\', 't']
  else if c = '\n' then ['\\', 'n']
  else if c = '\r' then ['\\', 'r']
  else if isPrintable c then [c]
  else if c.toNat ≤ 0xFF then ['\\', 'x'] ++ hex 2 c.toNat
  else if c.toNat ≤ 0xFFFF then ['\\', 'u'] ++ hex 4 c.toNat
  else ['\\', 'U'] ++ hex 8 c.toNat

def quoted (text : String) : String :=
  let quote := quoteFor text.toList
  String.ofList ([quote] ++ text.toList.flatMap (escaped quote) ++ [quote])

end DiceLang.Text
