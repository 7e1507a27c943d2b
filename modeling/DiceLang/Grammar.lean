import DiceLang.Phrase
import DiceLang.Settings

/-!
# Grammar

The phrases of dice notation. Reading never goes back inside a phrase, except that an argument of a
call is tried as a repetition first.

Expressions nest, and each level of nesting is paid for out of a number of levels that is fixed in
advance. What a phrase reads one level further down is its parameter `below`: so each rule is
written once, without recursion, and `nested` closes the knot by recursion on the levels left.

An operand of a chain of operators is one level below the operand before it, as the tree that the
chain makes leans to the left.
-/

namespace DiceLang

/-- What is read one level further down. -/
inductive Nested where
  /-- A sum. -/
  | sum
  /-- A sum's next operand and the rest of the sum, given the operator and all to the left of it. -/
  | sumAfter (left : Expr) (op : Operator)
  /-- A product's next operand and the rest of the product. -/
  | productAfter (left : Expr) (op : Operator)
  /-- The operand of a minus sign. -/
  | negation
  /-- An exponent. -/
  | power
  /-- An item of a list, or a face of a die. -/
  | expr
  /-- An argument of a call. -/
  | argument

namespace Grammar

open Phrase

variable (maxDigits : Nat) (below : Nested → Phrase Expr)

/-- An expression: a sum, one level further down. -/
def expr : Phrase Expr := below .sum

/-- A number or an expression in parentheses. Zeros in front do not count as digits, but they are
converted with the rest. -/
def count : Phrase Expr := do
  match (← ahead).head? with
  | some (.number digits) =>
    if maxDigits < (digits.toList.dropWhile (· == '0')).length then refuse .digits
    else if Text.maxNumeralLength < digits.length then refuse .conversion
    else
      skip
      return .int (Text.numeral digits)
  | some (.symbol .openParen) =>
    skip
    let inner ← expr below
    symbol .closeParen
    return .paren inner
  | _ => giveUp [.symbol .openParen, .number]

/-- A count, or a comparison and a count; with no comparison, equality. -/
def condition : Phrase (Condition Expr) := do
  match (← ahead).head? with
  | some (.symbol s) =>
    match s.comparison? with
    | some comparison => skip; return ⟨comparison, ← target⟩
    | none => return ⟨.eq, ← target⟩
  | _ => return ⟨.eq, ← target⟩
where
  target : Phrase Expr :=
    (count maxDigits below).orWanted
      (Comparison.all.map fun comparison => .symbol (Symbol.ofComparison comparison))

/-- Items divided by commas, up to and including `closing`. A comma may come at most as often as
there are lexemes. -/
def itemsUpTo (item : Phrase Expr) (closing : Symbol) : Nat → Phrase (List Expr)
  | 0 => do
    let _ ← item
    giveUp [.symbol .comma, .symbol closing]
  | commas + 1 => do
    let first ← item
    let next := (← ahead).head?
    if next = some (.symbol .comma) then
      skip
      return first :: (← itemsUpTo item closing commas)
    else if next = some (.symbol closing) then
      skip
      return [first]
    else giveUp [.symbol .comma, .symbol closing]

def items (item : Phrase Expr) (closing : Symbol) : Phrase (List Expr) := do
  itemsUpTo item closing (← ahead).length

/-- A list of expressions between braces. -/
def list : Phrase Expr := do
  symbol .openBrace
  return .list (← items (below .expr) .closeBrace)

/-- A function's name and its arguments between parentheses. -/
def call : Phrase Expr := do
  match (← ahead).head? with
  | some (.word name) =>
    if isReserved name then giveUp [.functionName]
    else
      skip
      symbol .openParen
      if (← ahead).head? = some (.symbol .closeParen) then
        skip
        return .call name []
      else return .call name (← items (below .argument) .closeParen)
  | _ => giveUp [.functionName]

/-! ## Dice -/

/-- What follows the `d` of a die. -/
def die : Phrase (Die Expr) := do
  if (← ahead).head? = some (.symbol .openBrace) then
    skip
    return .custom (← items (below .expr) .closeBrace)
  else return .numbered (← (count maxDigits below).orWanted [.symbol .openBrace])

/-- A comparison comes first among the lexemes. -/
def startsWithComparison : List Lexeme → Bool
  | .symbol s :: _ => s.comparison?.isSome
  | _ => false

/-- A modifier, if one starts here. A `k` or `d` is one only with a comparison, and a `!` right
after the condition of `rr` belongs to the `rr`. -/
def modifier? : Phrase (Option (Modifier Expr)) := do
  match ← ahead with
  | .word word :: rest =>
    if let some selection := Selection.ofWord? word then
      skip
      return some (.select selection (← count maxDigits below))
    else if word = rerollWord then
      skip
      let condition ← condition maxDigits below
      if (← ahead).head? = some (.symbol .bang) then
        skip
        return some (.reroll true condition)
      else return some (.reroll false condition)
    else match filterWord? word with
      | some keep =>
        if startsWithComparison rest then
          skip
          return some (.filter keep (← condition maxDigits below))
        else return none
      | none => return none
  | .symbol .bang :: rest =>
    skip
    if startsWithComparison rest then
      return some (.explode (some (← condition maxDigits below)))
    else return some (.explode none)
  | _ => return none

/-- Modifiers, at most `most` of them. -/
def modifiersUpTo : Nat → Phrase (List (Modifier Expr))
  | 0 => return []
  | most + 1 => do
    match ← modifier? maxDigits below with
    | some m => return m :: (← modifiersUpTo most)
    | none => return []

/-- All the modifiers that follow. -/
def modifiers : Phrase (List (Modifier Expr)) := do
  modifiersUpTo maxDigits below (← ahead).length

/-- A `d`, a die and its modifiers. A die without a count and without modifiers is a single die. -/
def dice (count : Option Expr) : Phrase Expr := do
  skip
  let die ← die maxDigits below
  let modifiers ← modifiers maxDigits below
  match count, modifiers with
  | none, [] => return .die die
  | _, _ => return .dice count die modifiers

/-! ## Arithmetic -/

def primary : Phrase Expr := do
  match (← ahead).head? with
  | some (.word word) =>
    if word = dieWord then dice maxDigits below none
    else if isReserved word then giveUp wanted
    else call below
  | some (.number _) | some (.symbol .openParen) =>
    let count ← count maxDigits below
    if (← ahead).head? = some (.word dieWord) then dice maxDigits below (some count)
    else return count
  | _ => giveUp wanted
where
  wanted : List Expectation := [.number, .symbol .openParen, .word dieWord, .functionName]

/-- A power; exponents nest to the right. -/
def power : Phrase Expr := do
  let base ← primary maxDigits below
  if (← ahead).head? = some (.symbol .caret) then
    skip
    return .binary .power base (← below .power)
  else
    missing [.symbol .caret]
    return base

def negation : Phrase Expr := do
  if (← ahead).head? = some (.symbol .minus) then
    skip
    return .negate (← below .negation)
  else power maxDigits below

/-- The rest of a product whose operands so far make `left`. -/
def productRest (left : Expr) : Phrase Expr := do
  match (← ahead).head? with
  | some (.symbol .times) => skip; below (.productAfter left .multiply)
  | some (.symbol .slash) => skip; below (.productAfter left .divide)
  | _ =>
    missing [.symbol .times, .symbol .slash]
    return left

def product : Phrase Expr := do
  productRest below (← negation maxDigits below)

/-- The rest of a sum whose operands so far make `left`. -/
def sumRest (left : Expr) : Phrase Expr := do
  match (← ahead).head? with
  | some (.symbol .plus) => skip; below (.sumAfter left .add)
  | some (.symbol .minus) => skip; below (.sumAfter left .subtract)
  | _ =>
    missing [.symbol .plus, .symbol .minus]
    return left

/-! ## Whole rolls -/

/-- A count, a `#` and what is evaluated that often. -/
def repetition : Phrase Expr := do
  let count ← count maxDigits below
  symbol .hash
  if (← ahead).head? = some (.symbol .openBrace) then return .repeated count (← list below)
  else return .repeated count (← expr below)

def argument : Phrase Expr := do
  if (← ahead).head? = some (.symbol .openBrace) then list below
  else (repetition maxDigits below).orElse (expr below)

/-- What a modifier may start with. -/
def modifierStarts : List Expectation :=
  Selection.all.map (fun s => .word s.word.text)
    ++ [.word ModifierWord.keepWhere.text, .word rerollWord, .symbol .bang]

/-- Dice that must have a modifier. -/
def modified (dice : Phrase Expr) : Phrase Expr := do
  match ← dice.orWanted modifierStarts with
  | .dice count die (m :: ms) => return .dice count die (m :: ms)
  | _ => giveUp modifierStarts

/-- A set of dice with at least one modifier. -/
def modifiedDice : Phrase Expr := do
  if (← ahead).head? = some (.word dieWord) then modified (dice maxDigits below none)
  else
    let count ← count maxDigits below
    if (← ahead).head? = some (.word dieWord) then modified (dice maxDigits below (some count))
    else giveUp [.word dieWord]

/-! ## Nesting -/

/-- The reading of what is nested, given the reading of what is nested in it in turn. -/
def rule : Nested → Phrase Expr
  | .sum => do sumRest below (← product maxDigits below)
  | .sumAfter left op => do sumRest below (.binary op left (← product maxDigits below))
  | .productAfter left op => do productRest below (.binary op left (← negation maxDigits below))
  | .negation => negation maxDigits below
  | .power => power maxDigits below
  | .expr => expr below
  | .argument => argument maxDigits below

/-- The reading of what is nested when that many levels are left. -/
def nested (levels : Nat) (what : Nested) (c : Cursor) : Reply Expr :=
  match levels with
  | 0 => refuse .depth c
  | levels + 1 => rule maxDigits (nested levels) what c

end Grammar

end DiceLang
