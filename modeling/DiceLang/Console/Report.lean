import DiceLang.Config.Load
import DiceLang.Console.Command
import DiceLang.Message
import DiceLang.Supply

/-!
# Reports

What a command shows and the exit code that it ends with: 0 for success, 1 for a failure, 2 where
the command line is not used properly.
-/

namespace DiceLang.Console

/-- What is shown at once. -/
inductive Block where
  | panel (title text : String)
  | line (style : Option String) (text : String)
  | table (title : String) (columns : List String) (rows : List (List String))
deriving Repr, DecidableEq

/-- Why a command breaks off. -/
inductive Fault where
  /-- The configuration is not valid. -/
  | config (error : Config.LoadError)
  /-- A roll has no outcome, and no error that is told to the player either. -/
  | roll (error : RollError)
deriving Repr, DecidableEq

structure Report where
  exitCode : Nat
  shown : List Block := []
  /-- Set if the command breaks off. -/
  fault : Option Fault := none
deriving Repr, DecidableEq

/-- The characters that a console obeys and does not show: bell, backspace, vertical tab, form feed
and carriage return. -/
def isConsoleControl (c : Char) : Bool := Text.inRanges [(0x7, 0x8), (0xB, 0xD)] c.toNat

/-- What a console shows of a text that comes from outside. -/
def legible (text : String) : String :=
  String.ofList (text.toList.filter fun c => !isConsoleControl c)

def functionRow (f : Builtin) : List String := [f.name, f.signature, f.description]

/-- All there is to call, and the character presets. -/
def functionsReport : Report where
  exitCode := 0
  shown :=
    [.table "Functions" ["Name", "Signature", "Description"] (Builtin.all.map functionRow),
     .line (some "dim") ("genchar systems: " ++ ", ".intercalate presetNames)]

def failureReport (message : String) : Report :=
  { exitCode := 1, shown := [.line (some "bold red") (legible message)] }

/-- Runs a roll and shows its outcome or why it has none. -/
def rollReport (limits : MessageLimits) (author : String) (source : Source)
    (roll : Chance Nat RollError Outcome) : Report :=
  match (roll.run Supply.next? ⟨source, 0⟩).1 with
  | .value outcome =>
    { exitCode := 0
      shown := [.panel outcome.expression (legible (outcome.render limits author))] }
  | .failed e =>
    match e.message? with
    | some message => failureReport message
    | none => { exitCode := 1, fault := some (.roll e) }
  | .exhausted => { exitCode := 1 }

/-- Runs a command. `unseeded` is drawn from where no seed is given. The listing of functions does
not depend on the configuration. -/
def Command.report (config : Except Config.LoadError Settings) (unseeded : Source) :
    Command → Report
  | .help => { exitCode := 0 }
  | .functions => functionsReport
  | .roll text description author seed =>
    match config with
    | .error e => { exitCode := 1, fault := some (.config e) }
    | .ok settings =>
      rollReport settings.message author ((seed.map Source.seeded).getD unseeded)
        (DiceLang.roll settings text description)
  | .character system author seed =>
    match config with
    | .error e => { exitCode := 1, fault := some (.config e) }
    | .ok settings =>
      rollReport settings.message author ((seed.map Source.seeded).getD unseeded)
        (rollCharacter settings system)

/-- Runs a command line. -/
def run (args : List String) (config : Except Config.LoadError Settings) (unseeded : Source) :
    Report :=
  match Command.parse? args with
  | none => { exitCode := 2 }
  | some command => command.report config unseeded

end DiceLang.Console
