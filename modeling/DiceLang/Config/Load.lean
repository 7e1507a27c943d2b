import DiceLang.Config.Toml
import DiceLang.Settings

/-!
# Loading settings

Settings from configuration data. The data has two sections, for dice and for messages; what is left
out keeps its default. Every fault is found, not only the first, and the faults are listed in the
order of the keys. Sections of other names are passed over.
-/

namespace DiceLang.Config

inductive FaultKind where
  | notASection
  | unknownKey
  | notANumber
  | notANumeral
  | numeralTooLong
  | tooSmall
  | notText
deriving Repr, DecidableEq

/-- What is wrong, and where: the section and the key. -/
structure Fault where
  place : List String
  kind : FaultKind
deriving Repr, DecidableEq

/-- How the value under a key is read. -/
inductive Key where
  /-- A number above `bound`. -/
  | number (bound : Nat) (set : Nat → Settings → Settings)
  | text (set : String → Settings → Settings)

/-- The sections and their keys. -/
def sections : List (String × List (String × Key)) :=
  [("dice",
    [("reroll_cap", .number 0 fun n s => { s with limits.rerollCap := n }),
     ("max_dice", .number 0 fun n s => { s with limits.maxDice := n }),
     ("max_die_sides", .number 0 fun n s => { s with limits.maxSides := n }),
     ("max_list_length", .number 0 fun n s => { s with limits.maxListLength := n }),
     ("integer_limit", .number 0 fun n s => { s with limits.integerLimit := n }),
     ("max_depth", .number 0 fun n s => { s with limits.maxDepth := n }),
     ("default_roll", .text fun t s => { s with defaultRoll := t })]),
   ("formatting",
    [("budget", .number 1 fun n s => { s with message.budget := n }),
     ("max_message_length", .number 0 fun n s => { s with message.maxLength := n })])]

/-- A number; truth values count as 1 and 0, and a text may write one. -/
def readNumber : Datum → Except FaultKind Int
  | .int n => .ok n
  | .bool b => .ok (if b then 1 else 0)
  | .text t =>
    match Text.readInteger t with
    | .ok n => .ok n
    | .error .malformed => .error .notANumeral
    | .error .tooLong => .error .numeralTooLong
  | _ => .error .notANumber

/-- The change to the settings that a value makes under a key. -/
def Key.read (datum : Datum) : Key → Except FaultKind (Settings → Settings)
  | .number bound set => do
    let n ← readNumber datum
    if n ≤ bound then .error .tooSmall else .ok (set n.toNat)
  | .text set =>
    match datum with
    | .text t => .ok (set t)
    | _ => .error .notText

/-- Settings read so far, with the faults found. -/
structure Reading where
  settings : Settings := {}
  faults : List Fault := []

def Reading.entry (keys : List (String × Key)) (name : String) (r : Reading)
    (entry : String × Datum) : Reading :=
  let fault kind : Reading := { r with faults := r.faults ++ [⟨[name, entry.1], kind⟩] }
  match keys.lookup entry.1 with
  | none => fault .unknownKey
  | some key =>
    match key.read entry.2 with
    | .ok set => { r with settings := set r.settings }
    | .error kind => fault kind

def Reading.sectionOf (entries : List (String × Datum)) (r : Reading)
    (part : String × List (String × Key)) : Reading :=
  match entries.lookup part.1 with
  | none => r
  | some (.table entries) =>
    (entries.mergeSort fun a b => a.1 ≤ b.1).foldl (Reading.entry part.2 part.1) r
  | some _ => { r with faults := r.faults ++ [⟨[part.1], .notASection⟩] }

/-- The settings in configuration data, or all its faults. -/
def validate : Datum → Except (List Fault) Settings
  | .table entries =>
    let r := sections.foldl (Reading.sectionOf entries) {}
    if r.faults.isEmpty then .ok r.settings else .error r.faults
  | _ => .error [⟨[], .notASection⟩]

/-- Why a configuration file gives no settings. -/
inductive LoadError where
  | malformed
  | invalid (faults : List Fault)
deriving Repr, DecidableEq

/-- The settings in a file; none, if there is no such file, which leaves the defaults. -/
def load : Option String → Except LoadError Settings
  | none => .ok {}
  | some text =>
    match Toml.parse? text with
    | none => .error .malformed
    | some datum => (validate datum).mapError .invalid

/-- The file to load: the one asked for, else the one that the environment names, if it names one.
-/
def location (asked environment : Option String) : Option String :=
  match asked, environment with
  | some path, _ => some path
  | none, some "" => none
  | none, environment => environment

end DiceLang.Config
