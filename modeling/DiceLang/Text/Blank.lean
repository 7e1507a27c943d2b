import DiceLang.Text.Range

/-!
# Blank characters

What may stand between lexemes and around a whole text: Unicode's `White_Space`, and the four
information separators U+001C to U+001F.
-/

namespace DiceLang.Text

/-- The property `White_Space`. -/
def whiteSpaceRanges : List (Nat × Nat) :=
  [(0x9, 0xD), (0x20, 0x20), (0x85, 0x85), (0xA0, 0xA0), (0x1680, 0x1680), (0x2000, 0x200A),
   (0x2028, 0x2029), (0x202F, 0x202F), (0x205F, 0x205F), (0x3000, 0x3000)]

def isWhiteSpace (c : Char) : Bool := inRanges whiteSpaceRanges c.toNat

def isBlank (c : Char) : Bool := isWhiteSpace c || inRanges [(0x1C, 0x1F)] c.toNat

/-- `text` without the characters at its two ends that satisfy `p`. -/
def trimmed (p : Char → Bool) (text : String) : String :=
  String.ofList ((text.toList.dropWhile p).reverse.dropWhile p).reverse

/-- `text` without the blanks at its two ends. -/
def strip (text : String) : String := trimmed isBlank text

end DiceLang.Text
