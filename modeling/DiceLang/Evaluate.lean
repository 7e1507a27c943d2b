import DiceLang.Arithmetic
import DiceLang.Builtin
import DiceLang.Roll
import DiceLang.Thrown
import DiceLang.Written

/-!
# Evaluation

What an expression comes to, with a trace: the expression as it is written, in which every throw is
followed by a record of its dice. An expression may be asked for its own value (`Expr.evaluate`), or
for a number (`Expr.number`), where a set of dice counts as its total and any other list is an
error.

The parts of an expression are evaluated from left to right, each once; the numbers of a modifier
when its turn comes. Nothing is drawn but for dice.
-/

namespace DiceLang

/-- Why an evaluation fails. -/
inductive Failure where
  | error (error : EvalError)
  /-- A number in the detail of an error has too many digits to be written. This is no error that
  the player is told of: the program breaks off. -/
  | conversion
  /-- A tree built by hand has a gap. -/
  | gap (gap : Gap)
deriving Repr, DecidableEq

/-- What an error comes to when its detail is written. -/
def EvalError.failure (e : EvalError) : Failure := if e.isWritable then .error e else .conversion

theorem EvalError.failure_eq_error {e e' : EvalError} :
    e.failure = .error e' ↔ e = e' ∧ e.isWritable = true := by
  unfold failure
  split <;> simp_all

theorem EvalError.failure_eq_conversion {e : EvalError} :
    e.failure = .conversion ↔ e.isWritable = false := by
  unfold failure
  split <;> simp_all

/-- Evaluations draw raw numbers. -/
abbrev Eval (α : Type) : Type := Chance Nat Failure α

namespace Eval

def fail (e : EvalError) : Eval α := .failed e.failure

def ofExcept : Except EvalError α → Eval α
  | .ok a => .done a
  | .error e => fail e

instance : MonadLift (Except EvalError) (Chance Nat Failure) := ⟨ofExcept⟩

@[simp] theorem liftM_ok (a : α) :
    (liftM (Except.ok a : Except EvalError α) : Eval α) = .done a := rfl

@[simp] theorem liftM_error (e : EvalError) :
    (liftM (Except.error e : Except EvalError α) : Eval α) = fail e := rfl

end Eval

/-! ## Dice -/

/-- The face that a raw number shows, on a die that has one. -/
def Die.face : Die Int → Nat → Int
  | .numbered sides, raw => 1 + raw % sides
  | .custom faces, raw => faces.getD (raw % faces.length) 0

def Die.highest : Die Int → Int
  | .numbered sides => sides
  | .custom faces => faces.max?.getD 0

/-- A throw of a die: each draw shows one of its faces. -/
def Die.throw (die : Die Int) (t : ThrownDie.Throw α) : Eval α :=
  t.adapt die.face EvalError.failure

/-- The record of the dice in a trace. -/
def record (fragments : List String) : String := " [" ++ Written.commas fragments ++ "]"

/-- A die with this many sides can be thrown. -/
def checkSides (limits : Limits) (sides : Int) : Except EvalError Unit :=
  if sides ≤ 0 then .error (.tooFewSides sides)
  else if (limits.maxSides : Int) < sides then .error (.tooManySides sides limits.maxSides)
  else .ok ()

/-- So many dice can be thrown. -/
def checkDice (limits : Limits) (count : Int) : Except EvalError Unit :=
  if count < 0 then .error (.negativeDice count)
  else if (limits.maxDice : Int) < count then .error (.tooManyDice limits.maxDice)
  else .ok ()

/-- Throws one die for its number. -/
def throwOne (die : Die (Traced Int)) : Eval (Traced Int) := do
  let face ← (die.map Traced.value).throw Chance.outcome
  return ⟨face, (die.map Traced.trace).text ++ record [toString face]⟩

/-- Throws a set of dice, given how its count, its die and its modifiers are evaluated. The dice
that were dropped are among the result. -/
def throwSet (limits : Limits) (count : Eval (Traced Int)) (die : Eval (Die (Traced Int)))
    (modify : Die Int → List ThrownDie → Eval (List ThrownDie × List (Modifier String))) :
    Eval (Traced (List ThrownDie)) := do
  let count ← count
  checkDice limits count.value
  let die ← die
  let faces := die.map Traced.value
  let thrown ← faces.throw (ThrownDie.throwDice count.value.toNat)
  let (dice, modifiers) ← modify faces thrown
  return ⟨dice, Written.dice count.trace (die.map Traced.trace) modifiers
    ++ record (dice.map ThrownDie.fragment)⟩

/-- The total of the kept dice. -/
def keptTotal (dice : List ThrownDie) : Int :=
  total ((dice.filter ThrownDie.kept).map ThrownDie.value)

/-- The kept dice as a list. -/
def keptElements (dice : List ThrownDie) : List Element :=
  (dice.filter ThrownDie.kept).map fun d => ⟨d.value, d.label⟩

/-! ## Functions and lists -/

/-- The result of a function, which must be within the limit if it is a number. -/
def checkResult (limits : Limits) : (k : Kind) → k.Carrier → Except EvalError Value
  | .scalar, n => (limits.check n).map .scalar
  | .list, elements => .ok (.list elements)

/-- Calls a function, given how many arguments there are and how they are evaluated. -/
def callFunction (limits : Limits) (name : String) (given : Nat)
    (arguments : (ks : List Kind) → given = ks.length → Eval (Arguments ks × List String)) :
    Eval (Traced Value) := do
  let f ← Builtin.find name
  if h : given = f.parameters.length then
    let (args, traces) ← arguments f.parameters h
    let result ← f.apply limits args
    return ⟨← checkResult limits f.returns result, Written.call f.name traces⟩
  else Eval.fail (.wrongArity f.name f.arity given)

/-- Puts together what `item` comes to `count` times. -/
def repeatItem (limit : Nat) (item : Eval (List Element)) :
    (count : Nat) → List Element → Eval (List Element)
  | 0, elements => return elements
  | count + 1, elements => do
    let elements := elements ++ (← item)
    if limit < elements.length then Eval.fail (.tooManyValues limit)
    else repeatItem limit item count elements

/-- Evaluates a repetition of `inner`, given how its count and its items are evaluated. -/
def repeatValue (limits : Limits) (count : Eval (Traced Int)) (item : Eval (List Element))
    (inner : Expr) : Eval (Traced (List Element)) := do
  let count ← count
  if count.value < 0 then Eval.fail (.negativeRepetition count.value)
  else if (limits.maxListLength : Int) < count.value then
    Eval.fail (.tooManyValues limits.maxListLength)
  else
    let elements ← repeatItem limits.maxListLength item count.value.toNat []
    match inner.write with
    | .ok text => return ⟨elements, Written.repeated count.trace text⟩
    | .error g => .failed (.gap g)

/-- An item of a repetition that keeps its own kind; all others are numbers. -/
def Expr.keepsKind : Expr → Bool
  | .list _ => true
  | .call _ _ => true
  | _ => false

/-- The elements that a value adds to a list. -/
def Traced.elements : Traced Value → List Element
  | ⟨.scalar n, trace⟩ => [Traced.element ⟨n, trace⟩]
  | ⟨.list elements, _⟩ => elements

/-- The elements that one item of a repetition adds, given how it is evaluated as a value and as a
number. -/
def itemElements (item : Expr) (value : Eval (Traced Value)) (number : Eval (Traced Int)) :
    Eval (List Element) :=
  if item.keepsKind then Traced.elements <$> value else (fun t => [t.element]) <$> number

/-- The value of `e` as a number, needed by `function` if that is not empty. -/
def asNumber (function : String) (e : Expr) : Traced Value → Except EvalError (Traced Int)
  | ⟨.scalar n, trace⟩ => .ok ⟨n, trace⟩
  | ⟨.list _, _⟩ => .error (.listForNumber function e.text)

/-- The value of `e` as a list, needed by `function` if that is not empty. -/
def asList (function : String) (e : Expr) :
    Traced Value → Except EvalError (Traced (List Element))
  | ⟨.scalar _, _⟩ => .error (.numberForList function e.text)
  | ⟨.list elements, trace⟩ => .ok ⟨elements, trace⟩

/-! ## Expressions -/

def literal (limits : Limits) (n : Int) : Except EvalError (Traced Int) := do
  return ⟨← limits.check n, toString n⟩

def combine (limits : Limits) (op : Operator) (left right : Traced Int) :
    Except EvalError (Traced Int) := do
  return ⟨← op.calculate limits left.value right.value, Written.binary op left.trace right.trace⟩

def opposite (limits : Limits) (t : Traced Int) : Except EvalError (Traced Int) := do
  return ⟨← limits.check (-t.value), Written.negate t.trace⟩

def Traced.wrapped (t : Traced α) : Traced α := ⟨t.value, Written.parens t.trace⟩

section

variable (limits : Limits)

mutual

/-- The expression's own value. -/
def Expr.evaluate : Expr → Eval (Traced Value)
  | .int n => do return (← literal limits n).map .scalar
  | .paren inner => do return (← inner.evaluate).wrapped
  | .binary op left right => do
    let left ← left.number ""
    let right ← right.number ""
    return (← combine limits op left right).map .scalar
  | .negate inner => do return (← opposite limits (← inner.number "")).map .scalar
  | .die d => do return (← throwOne (← evaluateDie d)).map .scalar
  | .dice count d ms => do
    let dice ← throwSet limits (evaluateCount count) (evaluateDie d) (modify ms)
    return dice.map fun dice => .list (keptElements dice)
  | .call name args => callFunction limits name args.length (evaluateArguments name args)
  | .list items => do
    let items' ← evaluateItems items
    return ⟨.list (items'.map Traced.element), (Expr.list items).text⟩
  | .repeated count inner => do
    let item := itemElements inner inner.evaluate (inner.number "")
    let elements ← repeatValue limits (count.number "") item inner
    return elements.map .list
  | .gap g => .failed (.gap g)

/-- The expression as a number, needed by `function` if that is not empty. -/
def Expr.number (function : String) : Expr → Eval (Traced Int)
  | .int n => do return ← literal limits n
  | .paren inner => do return (← inner.number function).wrapped
  | .binary op left right => do
    let left ← left.number ""
    let right ← right.number ""
    return ← combine limits op left right
  | .negate inner => do return ← opposite limits (← inner.number "")
  | .die d => do throwOne (← evaluateDie d)
  | .dice count d ms => do
    let dice ← throwSet limits (evaluateCount count) (evaluateDie d) (modify ms)
    return ⟨← limits.check (keptTotal dice.value), dice.trace⟩
  | .call name args => do
    let value ← callFunction limits name args.length (evaluateArguments name args)
    return ← asNumber function (.call name args) value
  | .list items => do
    let _ ← evaluateItems items
    Eval.fail (.listForNumber function (Expr.list items).text)
  | .repeated count inner => do
    let item := itemElements inner inner.evaluate (inner.number "")
    let _ ← repeatValue limits (count.number "") item inner
    Eval.fail (.listForNumber function (Expr.repeated count inner).text)
  | .gap g => .failed (.gap g)

def evaluateItems : List Expr → Eval (List (Traced Int))
  | [] => return []
  | e :: es => do return (← e.number "") :: (← evaluateItems es)

/-- The count of a set of dice: one, if it is left out. -/
def evaluateCount : Option Expr → Eval (Traced Int)
  | none => return ⟨1, ""⟩
  | some e => e.number ""

/-- A die that can be thrown. -/
def evaluateDie : Die Expr → Eval (Die (Traced Int))
  | .numbered sides => do
    let sides ← sides.number ""
    checkSides limits sides.value
    return .numbered sides
  | .custom [] => Eval.fail .noFaces
  | .custom (face :: faces) => do
    return .custom ((← face.number "") :: (← evaluateItems faces))

def evaluateCondition : Condition Expr → Eval (Condition (Traced Int))
  | ⟨comparison, target⟩ => do return ⟨comparison, ← target.number ""⟩

def evaluateModifier : Modifier Expr → Eval (Modifier (Traced Int))
  | .select selection count => do return .select selection (← count.number "")
  | .filter keep c => do return .filter keep (← evaluateCondition c)
  | .reroll untilClear c => do return .reroll untilClear (← evaluateCondition c)
  | .explode none => return .explode none
  | .explode (some c) => do return .explode (some (← evaluateCondition c))

/-- Applies modifiers to thrown dice, one after the other; also gives their traces. -/
def modify : List (Modifier Expr) → Die Int → List ThrownDie →
    Eval (List ThrownDie × List (Modifier String))
  | [], _, dice => return (dice, [])
  | m :: ms, die, dice => do
    let m ← evaluateModifier m
    let dice ← die.throw ((m.map Traced.value).apply limits.rerollCap die.highest dice)
    let (dice, traces) ← modify ms die dice
    return (dice, m.map Traced.trace :: traces)

/-- Arguments of a call, each evaluated as its kind demands. -/
def evaluateArguments (function : String) : (es : List Expr) → (ks : List Kind) →
    es.length = ks.length → Eval (Arguments ks × List String)
  | [], [], _ => return ((), [])
  | e :: es, .scalar :: ks, h => do
    let n ← e.number function
    let (rest, traces) ← evaluateArguments function es ks (by simpa using h)
    return ((n.value, rest), n.trace :: traces)
  | e :: es, .list :: ks, h => do
    let elements ← asList function e (← e.evaluate)
    let (rest, traces) ← evaluateArguments function es ks (by simpa using h)
    return ((elements.value, rest), elements.trace :: traces)

end

/-- The expression as a list, needed by `function` if that is not empty. -/
def Expr.elements (function : String) (e : Expr) : Eval (Traced (List Element)) := do
  return ← asList function e (← e.evaluate limits)

/-- A roll of arithmetic is a number, any other has its own value. -/
def Roll.evaluate (roll : Roll) : Eval (Traced Value) :=
  match roll.kind with
  | .scalar => do return (← roll.expr.number limits "").map .scalar
  | .list => roll.expr.evaluate limits

end

end DiceLang
