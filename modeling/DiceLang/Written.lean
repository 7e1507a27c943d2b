import DiceLang.Expr
import DiceLang.Lexeme

/-!
# Writing expressions

How each form is written once its parts are written. The same rules write an expression back as
notation (`Expr.text`) and the account of its evaluation, where a throw adds the dice that it threw.
-/

namespace DiceLang

/-! ## Forms, given the texts of their parts -/

namespace Written

def commas (parts : List String) : String := ", ".intercalate parts

def parens (inner : String) : String := "(" ++ inner ++ ")"

def braces (items : List String) : String := "\x7b" ++ commas items ++ "\x7d"

/-- All operators but the power sign stand between spaces. -/
def binary : Operator → String → String → String
  | .power, left, right => left ++ Operator.power.text ++ right
  | op, left, right => left ++ " " ++ op.text ++ " " ++ right

def negate (inner : String) : String := "-" ++ inner

def call (function : String) (args : List String) : String := function ++ parens (commas args)

def repeated (count inner : String) : String := count ++ "#" ++ inner

end Written

def Die.text : Die String → String
  | .numbered sides => dieWord ++ sides
  | .custom faces => dieWord ++ Written.braces faces

def Condition.text (c : Condition String) : String := c.comparison.text ++ c.target

def Modifier.text : Modifier String → String
  | .select selection count => selection.word.text ++ count
  | .filter true c => ModifierWord.keepWhere.text ++ c.text
  | .filter false c => ModifierWord.dropWhere.text ++ c.text
  | .reroll false c => rerollWord ++ c.text
  | .reroll true c => rerollWord ++ c.text ++ "!"
  | .explode none => "!"
  | .explode (some c) => "!" ++ c.text

namespace Written

def dice (count : String) (die : Die String) (modifiers : List (Modifier String)) : String :=
  count ++ die.text ++ String.join (modifiers.map Modifier.text)

end Written

/-! ## Expressions -/

mutual

/-- The expression in canonical notation. A gap has none. -/
def Expr.text : Expr → String
  | .int n => toString n
  | .paren inner => Written.parens inner.text
  | .binary op left right => Written.binary op left.text right.text
  | .negate inner => Written.negate inner.text
  | .die d => d.texts.text
  | .dice count d ms => Written.dice (countText count) d.texts (modifierTexts ms)
  | .call function args => Written.call function (exprTexts args)
  | .list items => Written.braces (exprTexts items)
  | .repeated count inner => Written.repeated count.text inner.text
  | .gap _ => ""

def exprTexts : List Expr → List String
  | [] => []
  | e :: es => e.text :: exprTexts es

/-- A count that is left out is not written. -/
def countText : Option Expr → String
  | none => ""
  | some e => e.text

def Die.texts : Die Expr → Die String
  | .numbered sides => .numbered sides.text
  | .custom faces => .custom (exprTexts faces)

def Condition.texts : Condition Expr → Condition String
  | ⟨comparison, target⟩ => ⟨comparison, target.text⟩

def Modifier.texts : Modifier Expr → Modifier String
  | .select selection count => .select selection count.text
  | .filter keep c => .filter keep c.texts
  | .reroll untilClear c => .reroll untilClear c.texts
  | .explode none => .explode none
  | .explode (some c) => .explode (some c.texts)

def modifierTexts : List (Modifier Expr) → List (Modifier String)
  | [] => []
  | m :: ms => m.texts :: modifierTexts ms

end

/-! ## Gaps -/

def Gap.text : Gap → String
  | .number n => toString n
  | .nothing => "None"

def Gap.message (g : Gap) : String := "Not a dice expression node: " ++ g.text

mutual

/-- The first gap, in the order in which the parts are gone through: of a set of dice, the modifiers
before the die. -/
def Expr.gap? : Expr → Option Gap
  | .int _ => none
  | .paren inner => inner.gap?
  | .binary _ left right => left.gap? <|> right.gap?
  | .negate inner => inner.gap?
  | .die d => d.gap?
  | .dice count d ms => countGap? count <|> modifiersGap? ms <|> d.gap?
  | .call _ args => exprsGap? args
  | .list items => exprsGap? items
  | .repeated count inner => count.gap? <|> inner.gap?
  | .gap g => some g

def exprsGap? : List Expr → Option Gap
  | [] => none
  | e :: es => e.gap? <|> exprsGap? es

def countGap? : Option Expr → Option Gap
  | none => none
  | some e => e.gap?

def Die.gap? : Die Expr → Option Gap
  | .numbered sides => sides.gap?
  | .custom faces => exprsGap? faces

def Condition.gap? : Condition Expr → Option Gap
  | ⟨_, target⟩ => target.gap?

def Modifier.gap? : Modifier Expr → Option Gap
  | .select _ count => count.gap?
  | .filter _ c => c.gap?
  | .reroll _ c => c.gap?
  | .explode none => none
  | .explode (some c) => c.gap?

def modifiersGap? : List (Modifier Expr) → Option Gap
  | [] => none
  | m :: ms => m.gap? <|> modifiersGap? ms

end

/-- The expression in canonical notation, if it has no gaps. -/
def Expr.write (e : Expr) : Except Gap String :=
  match e.gap? with
  | some g => .error g
  | none => .ok e.text

end DiceLang
