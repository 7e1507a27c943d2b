import DiceLang.Grammar
import DiceLang.Kind
import DiceLang.Token

/-!
# Reading a roll

A roll is an expression together with the kind of answer that is wanted of it. Five readings of the
whole text are tried in a fixed order, those that make a list before plain arithmetic.
-/

namespace DiceLang

structure Roll where
  kind : Kind
  expr : Expr
deriving BEq

namespace Roll

/-- The readings of a whole text, in the order in which they are tried. -/
def readings (limits : Limits) : List (Kind × Phrase Expr) :=
  let below := Grammar.nested limits.maxDigits limits.maxDepth
  [(.list, Grammar.repetition limits.maxDigits below),
   (.list, Grammar.list below),
   (.list, Grammar.call below),
   (.list, Grammar.modifiedDice limits.maxDigits below),
   (.scalar, Grammar.expr below)]

/-- A reading of all there is. -/
def whole : Kind × Phrase Expr → Phrase Roll
  | (kind, reading) => do
    let expr ← reading
    Phrase.endOfInput
    return ⟨kind, expr⟩

/-- The first reading that fits. -/
def phrase (limits : Limits) : Phrase Roll :=
  ((readings limits).map whole).foldr Phrase.orElse (Phrase.giveUp [])

/-- The token that a cursor into the lexemes stands before. -/
def tokenAt (tokens : List Token) (index : Nat) : Token := tokens.getD index ⟨none, 0⟩

/-- The text of a token, none at the end. -/
def textOf (token : Token) : String := (token.lexeme.map Lexeme.text).getD ""

/-- Reads a roll off the tokens of a text. -/
def ofTokens (limits : Limits) (tokens : List Token) : Except ParseFailure Roll :=
  match phrase limits ⟨0, tokens.filterMap Token.lexeme⟩ with
  | .matched roll _ _ => .ok roll
  | .unmatched _ missed =>
    let token := tokenAt tokens missed.index
    .error (.error (.unexpected token.position missed.wanted token.lexeme))
  | .refused .depth place =>
    let token := tokenAt tokens place.index
    .error (.error (.tooDeep token.position limits.maxDepth token.lexeme))
  | .refused .digits place =>
    let token := tokenAt tokens place.index
    .error (.error (.tooLong token.position limits.maxDigits (textOf token)))
  | .refused .conversion place =>
    .error (.conversion (textOf (tokenAt tokens place.index)).length)

def parse (limits : Limits) (text : String) : Except ParseFailure Roll := do
  ofTokens limits (← (Token.scan text).mapError .error)

end Roll

end DiceLang
