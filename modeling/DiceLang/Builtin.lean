import DiceLang.EvalError
import DiceLang.Settings
import DiceLang.Value

/-!
# Functions

The functions that an expression may call. Each has a signature: the kinds of its parameters and the
kind of what it returns. It is applied to arguments of just those kinds, so that applying it fails
only for what the arguments are, never for their kinds. List arguments keep their labels.
-/

namespace DiceLang

/-- What a value of a kind is made of. -/
abbrev Kind.Carrier : Kind → Type
  | .scalar => Int
  | .list => List Element

def Kind.value : (k : Kind) → k.Carrier → Value
  | .scalar, n => .scalar n
  | .list, elements => .list elements

def Kind.text : Kind → String
  | .scalar => "int"
  | .list => "list"

/-- Arguments of given kinds. -/
abbrev Arguments : List Kind → Type
  | [] => Unit
  | k :: ks => k.Carrier × Arguments ks

/-- The values as arguments of these kinds, if they are that. -/
def Arguments.ofValues? : (ks : List Kind) → List Value → Option (Arguments ks)
  | [], [] => some ()
  | .scalar :: ks, .scalar n :: values => (ofValues? ks values).map fun rest => (n, rest)
  | .list :: ks, .list elements :: values => (ofValues? ks values).map fun rest => (elements, rest)
  | _, _ => none

/-- A function by name. -/
inductive Builtin where
  | abs | id | negate | max | min | mod | sum | length | maximum | minimum | sort | reverse
  | take | drop | between
deriving Repr, DecidableEq

namespace Builtin

/-- All functions, in the order in which they are listed. -/
def all : List Builtin :=
  [abs, id, negate, max, min, mod, sum, length, maximum, minimum, sort, reverse, take, drop,
    between]

def name : Builtin → String
  | abs => "abs" | id => "id" | negate => "negate" | max => "max" | min => "min" | mod => "mod"
  | sum => "sum" | length => "length" | maximum => "maximum" | minimum => "minimum"
  | sort => "sort" | reverse => "reverse" | take => "take" | drop => "drop" | between => "between"

abbrev parameters : Builtin → List Kind
  | abs | id | negate => [.scalar]
  | max | min | mod | between => [.scalar, .scalar]
  | sum | length | maximum | minimum | sort | reverse => [.list]
  | take | drop => [.scalar, .list]

def arity (f : Builtin) : Nat := f.parameters.length

abbrev returns : Builtin → Kind
  | abs | id | negate | max | min | mod | sum | length | maximum | minimum => .scalar
  | sort | reverse | take | drop | between => .list

def description : Builtin → String
  | abs => "absolute value"
  | id => "the value unchanged"
  | negate => "the value negated"
  | max => "the larger value"
  | min => "the smaller value"
  | mod => "remainder, with the sign of the divisor"
  | sum => "total of the values"
  | length => "number of values"
  | maximum => "largest value"
  | minimum => "smallest value"
  | sort => "values in ascending order"
  | reverse => "values in reverse order"
  | take => "the first n values"
  | drop => "all but the first n values"
  | between => "every integer from a to b inclusive"

def signature (f : Builtin) : String :=
  f.name ++ "(" ++ ", ".intercalate (f.parameters.map Kind.text) ++ ") -> " ++ f.returns.text

/-- The function of that name, in exactly that spelling. -/
def ofName? (name : String) : Option Builtin := all.find? (·.name == name)

def find (name : String) : Except EvalError Builtin :=
  match ofName? name with
  | some f => .ok f
  | none => .error (.unknownFunction name)

/-- The elements in ascending order of value; equal ones stay in order. -/
def sorted (elements : List Element) : List Element :=
  elements.mergeSort fun a b => a.value ≤ b.value

/-- The extreme value of a list, which must have one. -/
def extreme (f : Builtin) (pick : List Int → Option Int) (elements : List Element) :
    Except EvalError Int :=
  match pick (elements.map Element.value) with
  | some n => .ok n
  | none => .error (.noValues f.name)

/-- A length, which must not be negative. -/
def checkLength (f : Builtin) (n : Int) : Except EvalError Nat :=
  if n < 0 then .error (.negativeLength f.name n) else .ok n.toNat

/-- The integers from `low` to `high`. -/
def range (low high : Int) : List Element :=
  (List.range (high - low + 1).toNat).map fun (i : Nat) => { value := low + i }

def apply (limits : Limits) :
    (f : Builtin) → Arguments f.parameters → Except EvalError f.returns.Carrier
  | abs, (n, ()) => .ok (n.natAbs : Int)
  | id, (n, ()) => .ok n
  | negate, (n, ()) => .ok (-n)
  | max, (a, b, ()) => .ok (if a ≤ b then b else a)
  | min, (a, b, ()) => .ok (if a ≤ b then a else b)
  | mod, (a, b, ()) => if b = 0 then .error .moduloByZero else .ok (a.fmod b)
  | sum, (elements, ()) => .ok (total (elements.map Element.value))
  | length, (elements, ()) => .ok (elements.length : Int)
  | maximum, (elements, ()) => extreme maximum List.max? elements
  | minimum, (elements, ()) => extreme minimum List.min? elements
  | sort, (elements, ()) => .ok (sorted elements)
  | reverse, (elements, ()) => .ok elements.reverse
  | take, (n, elements, ()) => (checkLength take n).map fun n => elements.take n
  | drop, (n, elements, ()) => (checkLength drop n).map fun n => elements.drop n
  | between, (low, high, ()) =>
    if (limits.maxListLength : Int) < high - low + 1 then
      .error (.rangeTooLong limits.maxListLength)
    else .ok (range low high)

end Builtin

end DiceLang
