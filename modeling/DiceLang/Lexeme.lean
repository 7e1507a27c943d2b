import DiceLang.Expr
import DiceLang.Text.Digit

/-!
# Lexemes

The words, numbers and signs that a text of dice notation is made of, and the expectations that a
reader has of the next one.
-/

namespace DiceLang

inductive Symbol where
  | plus | minus | times | slash | caret
  | openParen | closeParen | openBrace | closeBrace
  | comma | hash | bang
  | less | greater | equal | lessEqual | greaterEqual
deriving Repr, DecidableEq

def Symbol.text : Symbol → String
  | .plus => "+" | .minus => "-" | .times => "*" | .slash => "/" | .caret => "^"
  | .openParen => "(" | .closeParen => ")" | .openBrace => "\x7b" | .closeBrace => "\x7d"
  | .comma => "," | .hash => "#" | .bang => "!"
  | .less => "<" | .greater => ">" | .equal => "=" | .lessEqual => "<=" | .greaterEqual => ">="

/-- The symbols of one character. -/
def Symbol.ofChar? : Char → Option Symbol
  | '+' => some .plus | '-' => some .minus | '*' => some .times | '/' => some .slash
  | '^' => some .caret | '(' => some .openParen | ')' => some .closeParen
  | '\x7b' => some .openBrace | '\x7d' => some .closeBrace | ',' => some .comma | '#' => some .hash
  | '!' => some .bang | '<' => some .less | '>' => some .greater | '=' => some .equal
  | _ => none

/-- The symbol that this one makes with an equals sign right after it. -/
def Symbol.withEqual? : Symbol → Option Symbol
  | .less => some .lessEqual
  | .greater => some .greaterEqual
  | _ => none

def Symbol.comparison? : Symbol → Option Comparison
  | .equal => some .eq | .less => some .lt | .greater => some .gt
  | .lessEqual => some .le | .greaterEqual => some .ge
  | _ => none

def Symbol.ofComparison : Comparison → Symbol
  | .eq => .equal | .lt => .less | .gt => .greater | .le => .lessEqual | .ge => .greaterEqual

inductive Lexeme where
  /-- A run of decimal digits, of any script. -/
  | number (digits : String)
  /-- A run of letters, in lower case. -/
  | word (letters : String)
  | symbol (symbol : Symbol)
deriving Repr, DecidableEq

def Lexeme.text : Lexeme → String
  | .number digits => digits
  | .word letters => letters
  | .symbol s => s.text

/-! ## Reserved words -/

def dieWord : String := "d"

def rerollWord : String := "rr"

/-- The selection that a word asks for. -/
def Selection.ofWord? (word : String) : Option Selection :=
  Selection.all.find? (·.word.text == word)

/-- Whether a word keeps or drops the dice that meet a condition. -/
def filterWord? (word : String) : Option Bool :=
  if word = ModifierWord.keepWhere.text then some true
  else if word = ModifierWord.dropWhere.text then some false
  else none

/-- The words of the notation itself; any other may name a function. -/
def isReserved (word : String) : Bool :=
  word == dieWord || word == rerollWord || (Selection.ofWord? word).isSome
    || (filterWord? word).isSome

/-! ## Expectations -/

/-- What may come next in a text. -/
inductive Expectation where
  | symbol (symbol : Symbol)
  | word (letters : String)
  | number
  | functionName
  | endOfInput
deriving Repr, DecidableEq

def Expectation.text : Expectation → String
  | .symbol s => "\"" ++ s.text ++ "\""
  | .word letters => "\"" ++ letters ++ "\""
  | .number => "a number"
  | .functionName => "a function name"
  | .endOfInput => "end of input"

/-- The next lexeme, none at the end, is of the kind expected. -/
def Expectation.admits : Expectation → Option Lexeme → Bool
  | .symbol s, some (.symbol t) => s == t
  | .word w, some (.word v) => w == v
  | .number, some (.number _) => true
  | .functionName, some (.word w) => !isReserved w
  | .endOfInput, none => true
  | _, _ => false

end DiceLang
