import DiceLang.Expr
import DiceLang.Text.Digit

/-!
# Errors of evaluation

Why a well-formed expression has no value. Each cause is of one of a few kinds; a player is told the
kind and then the detail of the cause, if its numbers are not too long to be written.
-/

namespace DiceLang

inductive EvalError where
  | divisionByZero (dividend : Int)
  | moduloByZero
  | tooFewSides (sides : Int)
  | negativeDice (count : Int)
  | negativeRepetition (count : Int)
  | negativeSelection (word : ModifierWord) (count : Int)
  | negativeLength (function : String) (count : Int)
  | negativeExponent (base exponent : Int)
  | noFaces
  | noValues (function : String)
  | unknownFunction (name : String)
  | wrongArity (function : String) (arity given : Nat)
  /-- A list where a number is needed, as an argument of `function` if that is not empty. -/
  | listForNumber (function : String) (expression : String)
  /-- A number where a list is needed, as an argument of `function` if that is not empty. -/
  | numberForList (function : String) (expression : String)
  | stillMatching (cap : Nat)
  | stillExploding (cap : Nat)
  | overLimit (value : Int) (limit : Nat)
  | powerOverLimit (base exponent : Int)
  | tooManySides (sides : Int) (limit : Nat)
  | tooManyDice (limit : Nat)
  | tooManyValues (limit : Nat)
  | rangeTooLong (limit : Nat)
deriving Repr, DecidableEq

namespace EvalError

inductive Kind where
  | divideByZero | tooFewSides | negativeCount | negativeExponent | emptyList | unknownFunction
  | arityMismatch | kindMismatch | rerollCapExceeded | overflow
deriving Repr, DecidableEq

def Kind.message : Kind → String
  | .divideByZero => "division by zero"
  | .tooFewSides => "a die needs at least one side"
  | .negativeCount => "count cannot be negative"
  | .negativeExponent => "exponent cannot be negative"
  | .emptyList => "list is empty"
  | .unknownFunction => "unknown function"
  | .arityMismatch => "wrong number of arguments"
  | .kindMismatch => "wrong kind of value"
  | .rerollCapExceeded => "too many rerolls"
  | .overflow => "number too large"

def kind : EvalError → Kind
  | divisionByZero _ | moduloByZero => .divideByZero
  | tooFewSides _ => .tooFewSides
  | negativeDice _ | negativeRepetition _ | negativeSelection _ _ | negativeLength _ _ =>
    .negativeCount
  | negativeExponent _ _ => .negativeExponent
  | noFaces | noValues _ => .emptyList
  | unknownFunction _ => .unknownFunction
  | wrongArity _ _ _ => .arityMismatch
  | listForNumber _ _ | numberForList _ _ => .kindMismatch
  | stillMatching _ | stillExploding _ => .rerollCapExceeded
  | overLimit _ _ | powerOverLimit _ _ | tooManySides _ _ | tooManyDice _ | tooManyValues _
  | rangeTooLong _ => .overflow

/-- Names the function whose argument is at fault, if there is one. -/
def forFunction (function : String) : String := if function = "" then "" else " for " ++ function

def detail : EvalError → String
  | divisionByZero dividend => toString dividend ++ " / 0"
  | moduloByZero => "mod by zero"
  | tooFewSides sides => "d" ++ toString sides
  | negativeDice count => "cannot roll " ++ toString count ++ " dice"
  | negativeRepetition count => "cannot repeat " ++ toString count ++ " times"
  | negativeSelection word count => word.text ++ toString count
  | negativeLength function count => function ++ " got " ++ toString count
  | negativeExponent base exponent => toString base ++ "^" ++ toString exponent
  | noFaces => "a custom die needs at least one face"
  | noValues function => function ++ " needs at least one value"
  | unknownFunction name => name
  | wrongArity function arity given =>
    function ++ " takes " ++ toString arity ++ " argument(s), got " ++ toString given
  | listForNumber function expression =>
    "expected a number" ++ forFunction function ++ ", got a list from " ++ expression
  | numberForList function expression =>
    "expected a list" ++ forFunction function ++ ", got a number from " ++ expression
  | stillMatching cap => "still matching after " ++ toString cap ++ " rerolls"
  | stillExploding cap => "exploded more than " ++ toString cap ++ " times"
  | overLimit value limit => toString value ++ " is over " ++ toString limit
  | powerOverLimit base exponent => toString base ++ "^" ++ toString exponent
  | tooManySides sides limit =>
    "d" ++ toString sides ++ " has more than " ++ toString limit ++ " sides"
  | tooManyDice limit => "cannot roll more than " ++ toString limit ++ " dice"
  | tooManyValues limit => "cannot make more than " ++ toString limit ++ " values"
  | rangeTooLong limit => "between would make more than " ++ toString limit ++ " values"

def message (e : EvalError) : String :=
  if e.detail = "" then e.kind.message else e.kind.message ++ ": " ++ e.detail

/-- The numbers in the detail. -/
def numbers : EvalError → List Int
  | divisionByZero n | tooFewSides n | negativeDice n | negativeRepetition n
  | negativeSelection _ n | negativeLength _ n => [n]
  | negativeExponent base exponent | powerOverLimit base exponent => [base, exponent]
  | overLimit n limit | tooManySides n limit => [n, limit]
  | wrongArity _ arity given => [arity, given]
  | stillMatching n | stillExploding n | tooManyDice n | tooManyValues n | rangeTooLong n => [n]
  | moduloByZero | noFaces | noValues _ | unknownFunction _ | listForNumber _ _
  | numberForList _ _ => []

/-- The detail can be written. -/
def isWritable (e : EvalError) : Bool := e.numbers.all Text.isWritable

end EvalError

end DiceLang
