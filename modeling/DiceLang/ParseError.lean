import DiceLang.Lexeme
import DiceLang.Text.Listing

/-!
# Errors in a text

Why a text is no dice expression, and how this is told to the player: where reading stopped, what
could have stood there, and what was found instead.
-/

namespace DiceLang

inductive ParseError where
  /-- A character that belongs to no lexeme. -/
  | strayCharacter (position : Nat) (character : Char)
  /-- None of the readings fits: the furthest place that one of them reached, all that would have
  been accepted there, and the lexeme found, if the text goes on. -/
  | unexpected (position : Nat) (wanted : List Expectation) (found : Option Lexeme)
  /-- The expression is nested more than `limit` levels deep. -/
  | tooDeep (position : Nat) (limit : Nat) (found : Option Lexeme)
  /-- A literal has more than `limit` digits. -/
  | tooLong (position : Nat) (limit : Nat) (digits : String)
deriving Repr, DecidableEq

namespace ParseError

/-- An offset into the text, in characters. -/
def position : ParseError → Nat
  | strayCharacter p _ | unexpected p _ _ | tooDeep p _ _ | tooLong p _ _ => p

/-- `texts` in the order of their characters, each once. -/
def sortedOnce (texts : List String) : List String :=
  (texts.mergeSort fun a b => a ≤ b).eraseReps

/-- What would have been accepted, in words. -/
def expected : ParseError → List String
  | strayCharacter _ _ => []
  | unexpected _ wanted _ => sortedOnce (wanted.map Expectation.text)
  | tooDeep _ limit _ => ["at most " ++ toString limit ++ " levels of nesting"]
  | tooLong _ limit _ => ["a number of at most " ++ toString limit ++ " digits"]

/-- The text found, none at the end of input. An overlong literal is cut short. -/
def found : ParseError → Option String
  | strayCharacter _ c => some (toString c)
  | unexpected _ _ lexeme | tooDeep _ _ lexeme => lexeme.map Lexeme.text
  | tooLong _ limit digits => some (String.ofList (digits.toList.take limit) ++ "...")

def message (e : ParseError) : String :=
  "did not understand expression at position " ++ toString e.position
    ++ (if e.expected.isEmpty then "" else ": expected " ++ Text.listingOr e.expected)
    ++ (match e.found with
      | none => "; found end of input"
      | some text => "; found \"" ++ text ++ "\"")

end ParseError

/-- Why a text is not read as a roll. -/
inductive ParseFailure where
  | error (error : ParseError)
  /-- A number of so many digits cannot be converted. This is no error that the player is told of:
  the program breaks off. -/
  | conversion (length : Nat)
deriving Repr, DecidableEq

end DiceLang
