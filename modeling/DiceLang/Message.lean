import DiceLang.Outcome

/-!
# Messages

An outcome as a message in a chat that reads backticks, tildes, underscores and asterisks as markup
and refuses a message with too much of it. Three forms are tried, each with less markup than the one
before: with trace and labels; with the expression and placeholders; with the numbers alone. What is
still too long is cut.
-/

namespace DiceLang

/-- What a character adds to the weight of a message, in quarters. -/
def markupQuarters (c : Char) : Nat :=
  if c = '\x60' then 2 else if c = '~' || c = '_' || c = '*' then 1 else 0

def isMarkup (c : Char) : Bool := markupQuarters c != 0

/-- The weight of the markup in a text. -/
def markupWeight (text : String) : Nat :=
  text.toList.foldr (fun c n => markupQuarters c + n) 0 / 4

def stripMarkup (text : String) : String := String.ofList (text.toList.filter (!isMarkup ·))

/-- Text set as code. -/
def code (text : String) : String := "\x60" ++ text ++ "\x60"

namespace Value

def mapLabels (f : String → String) : Value → Value
  | scalar n => scalar n
  | list elements => list (elements.map fun e => ⟨e.value, f e.label⟩)

/-- A placeholder for every label. -/
def simplify : Value → Value := mapLabels fun _ => "..."

def stripLabels : Value → Value := mapLabels fun _ => ""

end Value

def header (author : String) (description : Option String) : String :=
  match description with
  | none | some "" => author ++ " rolled: "
  | some text => author ++ " rolled \"" ++ text ++ "\": "

/-- The line of an element: short numbers are padded so that the arrows align. -/
def elementLine (e : Element) : String :=
  let shown := toString e.value
  code shown ++ String.ofList (List.replicate (6 - shown.length) ' ') ++ " ⟵ " ++ e.label

/-- A message: a number follows its trace, unlabelled elements stand on one line, and labelled ones
on lines of their own. -/
def messageText (header : String) (value : Value) (trace : String) : String :=
  match value with
  | .scalar n => header ++ trace ++ ".\nOutput: " ++ toString n
  | .list [] => header ++ "No output."
  | .list elements =>
    if elements.all (·.label.isEmpty) then
      header ++ code trace ++ "\nOutput: "
        ++ Written.braces (elements.map fun e => toString e.value)
    else header ++ code trace ++ "\n  " ++ "\n  ".intercalate (elements.map elementLine)

namespace MessageLimits

def fits (limits : MessageLimits) (text : String) : Bool := markupWeight text < limits.budget

/-- The text itself, or what there is room for of it before an ellipsis. -/
def truncate (limits : MessageLimits) (text : String) : String :=
  if text.length ≤ limits.maxLength then text
  else String.ofList (text.toList.take (limits.maxLength - 1)) ++ "…"

end MessageLimits

def undisplayable : String := "[could not display rolls]"

/-- Stands for a trace that is too heavy. In a message it must be code, which it is already where
the trace of a list stands. -/
def marker : Value → String
  | .scalar _ => code undisplayable
  | .list _ => undisplayable

/-- The forms of a message, heaviest first. -/
def Outcome.fullMessage (o : Outcome) (author : String) : String :=
  messageText (header author o.description) o.value o.trace

def Outcome.simplifiedMessage (o : Outcome) (author : String) : String :=
  messageText (header author o.description) o.value.simplify
    (o.expression ++ " " ++ marker o.value)

def Outcome.bareMessage (o : Outcome) (author : String) : String :=
  messageText (stripMarkup (header author o.description)) o.value.stripLabels (marker o.value)

/-- The message for an outcome: the first form that fits, cut to length. -/
def Outcome.render (limits : MessageLimits) (o : Outcome) (author : String) : String :=
  limits.truncate
    (if limits.fits (o.fullMessage author) then o.fullMessage author
    else if limits.fits (o.simplifiedMessage author) then o.simplifiedMessage author
    else o.bareMessage author)

end DiceLang
