import DiceLang.Evaluate
import DiceLang.Text.Blank
import DiceLang.Text.LowerCase
import DiceLang.Text.Quoted

/-!
# Outcomes

Rolling a text from beginning to end, and the presets that roll the statistics of a new character.
-/

namespace DiceLang

/-- All that is needed to show a roll. -/
structure Outcome where
  value : Value
  trace : String
  /-- What was rolled, in canonical notation. -/
  expression : String
  description : Option String
deriving Repr, DecidableEq

/-- Why there is no outcome. -/
inductive RollError where
  | parse (failure : ParseFailure)
  | evaluation (failure : Failure)
  /-- There is no preset of that name. -/
  | unknownSystem (name : String)
deriving Repr, DecidableEq

/-- What is rolled for a request: the text without the blanks around it, or the default when nothing
is left of it. -/
def requested (settings : Settings) (text : Option String) : String :=
  match text.map Text.strip with
  | none | some "" => settings.defaultRoll
  | some source => source

/-- Rolls a text, or the default roll. -/
def roll (settings : Settings) (text : Option String) (description : Option String) :
    Chance Nat RollError Outcome :=
  match Roll.parse settings.limits (requested settings text) with
  | .error e => .failed (.parse e)
  | .ok parsed => do
    let t ← (parsed.evaluate settings.limits).adapt id RollError.evaluation
    return ⟨t.value, t.trace, parsed.expr.text, description⟩

/-! ## Character presets -/

structure Preset where
  name : String
  expression : String
deriving Repr, DecidableEq

/-- The presets; the first is the default. -/
def presets : List Preset := [⟨"dnd", "6#4d6dl1"⟩, ⟨"wfrp", "8#(20+1d10)"⟩]

def presetNames : List String := presets.map Preset.name

/-- The name that is meant by a request: in lower case, the default if it is empty. -/
def systemName (system : Option String) : String :=
  match system with
  | none | some "" => presetNames.headD ""
  | some name => Text.lower name

/-- Rolls the preset of that name. -/
def rollCharacter (settings : Settings) (system : Option String) : Chance Nat RollError Outcome :=
  let name := systemName system
  match presets.find? (·.name == name) with
  | some preset => roll settings (some preset.expression) (some ("genchar for " ++ name))
  | none => .failed (.unknownSystem name)

/-- The error as it is told to the player. A number that cannot be converted and a gap are not told:
there the program breaks off. -/
def RollError.message? : RollError → Option String
  | .parse (.error e) => some e.message
  | .parse (.conversion _) => none
  | .evaluation (.error e) => some e.message
  | .evaluation .conversion | .evaluation (.gap _) => none
  | .unknownSystem name =>
    some ("unknown system " ++ Text.quoted name ++ "; try " ++ Text.listingOr presetNames)

end DiceLang
