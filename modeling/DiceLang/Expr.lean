/-!
# Dice expressions

The syntax tree of an expression. The parts of a die, a condition and a modifier are of any type
`ε`: expressions in a tree, numbers when dice are thrown, texts when they are written.
-/

namespace DiceLang

inductive Comparison where
  | eq | lt | gt | le | ge
deriving Repr, DecidableEq

def Comparison.all : List Comparison := [.eq, .lt, .gt, .le, .ge]

def Comparison.text : Comparison → String
  | .eq => "=" | .lt => "<" | .gt => ">" | .le => "<=" | .ge => ">="

def Comparison.holds : Comparison → Int → Int → Bool
  | .eq, value, target => value == target
  | .lt, value, target => value < target
  | .gt, value, target => value > target
  | .le, value, target => value ≤ target
  | .ge, value, target => value ≥ target

inductive Operator where
  | add | subtract | multiply | divide | power
deriving Repr, DecidableEq

def Operator.text : Operator → String
  | .add => "+" | .subtract => "-" | .multiply => "*" | .divide => "/" | .power => "^"

/-- The words of the modifiers, as a player writes them. -/
inductive ModifierWord where
  | keepHigh | keepLow | dropHigh | dropLow | keepWhere | dropWhere | reroll | rerollUntil | explode
deriving Repr, DecidableEq

def ModifierWord.text : ModifierWord → String
  | .keepHigh => "kh" | .keepLow => "kl" | .dropHigh => "dh" | .dropLow => "dl"
  | .keepWhere => "k" | .dropWhere => "d" | .reroll => "rr" | .rerollUntil => "rr!"
  | .explode => "!"

/-- Which of the kept dice a selection chooses, and whether it keeps or drops them. -/
inductive Selection where
  | keepHigh | keepLow | dropHigh | dropLow
deriving Repr, DecidableEq

def Selection.all : List Selection := [.keepHigh, .keepLow, .dropHigh, .dropLow]

def Selection.word : Selection → ModifierWord
  | .keepHigh => .keepHigh | .keepLow => .keepLow | .dropHigh => .dropHigh | .dropLow => .dropLow

structure Condition (ε : Type) where
  comparison : Comparison
  target : ε
deriving Repr, DecidableEq

def Condition.map (f : α → β) (c : Condition α) : Condition β := ⟨c.comparison, f c.target⟩

/-- The value meets the condition. -/
def Condition.holds (c : Condition Int) (value : Int) : Bool := c.comparison.holds value c.target

/-- A suffix on a set of dice. -/
inductive Modifier (ε : Type) where
  /-- Keep or drop the highest or lowest `count`. -/
  | select (selection : Selection) (count : ε)
  /-- Keep, or drop, the dice that meet the condition. -/
  | filter (keep : Bool) (condition : Condition ε)
  /-- Reroll the dice that meet the condition, once or until they no longer do. -/
  | reroll (untilClear : Bool) (condition : Condition ε)
  /-- Add a die after each die that meets the condition; with no condition, after the highest face.
  -/
  | explode (condition : Option (Condition ε))
deriving Repr, DecidableEq

def Modifier.map (f : α → β) : Modifier α → Modifier β
  | .select s n => .select s (f n)
  | .filter keep c => .filter keep (c.map f)
  | .reroll untilClear c => .reroll untilClear (c.map f)
  | .explode c => .explode (c.map (·.map f))

/-- A die: numbered from one up, or with its faces listed. -/
inductive Die (ε : Type) where
  | numbered (sides : ε)
  | custom (faces : List ε)
deriving Repr, DecidableEq

def Die.map (f : α → β) : Die α → Die β
  | .numbered n => .numbered (f n)
  | .custom fs => .custom (fs.map f)

/-- What a tree built by hand may hold where an expression belongs: a bare number, or nothing. -/
inductive Gap where
  | number (n : Int)
  | nothing
deriving Repr, DecidableEq

inductive Expr where
  | int (value : Int)
  | paren (inner : Expr)
  | binary (op : Operator) (left right : Expr)
  | negate (inner : Expr)
  /-- A single die, for one number. -/
  | die (die : Die Expr)
  /-- A set of dice; without a count, one die. -/
  | dice (count : Option Expr) (die : Die Expr) (modifiers : List (Modifier Expr))
  | call (function : String) (args : List Expr)
  | list (items : List Expr)
  /-- `inner`, evaluated `count` times and put together. -/
  | repeated (count inner : Expr)
  | gap (gap : Gap)
deriving Inhabited

/-- An expression without the parentheses around it. -/
def Expr.unwrapped : Expr → Expr
  | .paren inner => inner.unwrapped
  | e => e

/-! ## Equality of trees -/

mutual

protected def Expr.beq : Expr → Expr → Bool
  | .int m, .int n => m == n
  | .paren a, .paren b => a.beq b
  | .binary o a b, .binary p c d => o == p && a.beq c && b.beq d
  | .negate a, .negate b => a.beq b
  | .die d, .die e => dieBeq d e
  | .dice c d ms, .dice c' d' ms' => countBeq c c' && dieBeq d d' && modifiersBeq ms ms'
  | .call f as, .call g bs => f == g && exprsBeq as bs
  | .list as, .list bs => exprsBeq as bs
  | .repeated a b, .repeated c d => a.beq c && b.beq d
  | .gap g, .gap h => g == h
  | _, _ => false

def exprsBeq : List Expr → List Expr → Bool
  | [], [] => true
  | a :: as, b :: bs => a.beq b && exprsBeq as bs
  | _, _ => false

def countBeq : Option Expr → Option Expr → Bool
  | none, none => true
  | some a, some b => a.beq b
  | _, _ => false

def dieBeq : Die Expr → Die Expr → Bool
  | .numbered a, .numbered b => a.beq b
  | .custom as, .custom bs => exprsBeq as bs
  | _, _ => false

def conditionBeq : Condition Expr → Condition Expr → Bool
  | ⟨c, a⟩, ⟨d, b⟩ => c == d && a.beq b

def modifierBeq : Modifier Expr → Modifier Expr → Bool
  | .select s a, .select t b => s == t && a.beq b
  | .filter k c, .filter l d => k == l && conditionBeq c d
  | .reroll u c, .reroll v d => u == v && conditionBeq c d
  | .explode none, .explode none => true
  | .explode (some c), .explode (some d) => conditionBeq c d
  | _, _ => false

def modifiersBeq : List (Modifier Expr) → List (Modifier Expr) → Bool
  | [], [] => true
  | m :: ms, n :: ns => modifierBeq m n && modifiersBeq ms ns
  | _, _ => false

end

instance : BEq Expr := ⟨Expr.beq⟩

end DiceLang
