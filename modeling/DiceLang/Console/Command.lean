import DiceLang.Text.Integer

/-!
# Commands

The command line. Options may stand anywhere before a `--`, long ones with their value after an
equals sign or in the next word, short ones with their value in the same word or the next. Of an
option that is given twice the last counts.
-/

namespace DiceLang.Console

inductive Command where
  | roll (text description : Option String) (author : String) (seed : Option Int)
  | character (system : Option String) (author : String) (seed : Option Int)
  | functions
  /-- Only help is asked for. -/
  | help
deriving Repr, DecidableEq

/-- The values that options take. -/
inductive OptionName where
  | verbose | description | author | seed | help
deriving Repr, DecidableEq

def OptionName.takesValue : OptionName → Bool
  | .verbose | .help => false
  | .description | .author | .seed => true

/-- The names that one command gives to its options: long ones without their dashes. -/
structure OptionNames where
  long : List (String × OptionName)
  short : List (Char × OptionName)

def topOptions : OptionNames :=
  ⟨[("verbose", .verbose), ("help", .help)], [('v', .verbose)]⟩

def rollOptions : OptionNames :=
  ⟨[("description", .description), ("as", .author), ("seed", .seed), ("help", .help)],
    [('d', .description)]⟩

def characterOptions : OptionNames :=
  ⟨[("as", .author), ("seed", .seed), ("help", .help)], []⟩

def functionsOptions : OptionNames := ⟨[("help", .help)], []⟩

/-- The options and the arguments of a command, in order. An option without a value has an empty
one. -/
structure Words where
  options : List (OptionName × String) := []
  arguments : List String := []

def Words.value? (words : Words) (name : OptionName) : Option String :=
  (words.options.reverse.find? (·.1 == name)).map Prod.snd

def Words.has (words : Words) (name : OptionName) : Bool := (words.value? name).isSome

/-- A word that is read as options. A single dash is an argument. -/
def isOptionWord (word : String) : Bool :=
  match word.toList with
  | '-' :: _ :: _ => true
  | _ => false

/-- A long option, whose word continues after the two dashes, and the words left after it. -/
def longOption? (names : OptionNames) (word : List Char) (rest : List String) :
    Option ((OptionName × String) × List String) := do
  let option ← names.long.lookup (String.ofList (word.takeWhile (· != '=')))
  match word.dropWhile (· != '='), option.takesValue, rest with
  | _ :: value, true, _ => some ((option, String.ofList value), rest)
  | _ :: _, false, _ => none
  | [], false, _ => some ((option, ""), rest)
  | [], true, value :: rest => some ((option, value), rest)
  | [], true, [] => none

/-- Short options, whose word continues after the dash, and the words left after them. -/
def shortOptions? (names : OptionNames) :
    List Char → List String → Option (List (OptionName × String) × List String)
  | [], rest => some ([], rest)
  | c :: word, rest => do
    let option ← names.short.lookup c
    match option.takesValue, word, rest with
    | false, _, _ =>
      let (options, rest) ← shortOptions? names word rest
      return ((option, "") :: options, rest)
    | true, _ :: _, _ => some ([(option, String.ofList word)], rest)
    | true, [], value :: rest => some ([(option, value)], rest)
    | true, [], [] => none

/-- The options of a word, and the words left after them. -/
def options? (names : OptionNames) (word : String) (rest : List String) :
    Option (List (OptionName × String) × List String) :=
  match word.toList with
  | '-' :: '-' :: long => (longOption? names long rest).map fun (o, rest) => ([o], rest)
  | _ :: short => shortOptions? names short rest
  | [] => none

/-- Reads the words of a command, `most` of them at most. With `leading` set, the first argument
ends the options, and the words from there on are arguments. -/
def wordsUpTo? (names : OptionNames) (leading : Bool) : (most : Nat) → List String → Option Words
  | 0, _ => some {}
  | _, [] => some {}
  | most + 1, word :: rest =>
    if word = "--" then some { arguments := rest }
    else if isOptionWord word then do
      let (options, rest) ← options? names word rest
      let words ← wordsUpTo? names leading most rest
      return { words with options := options ++ words.options }
    else if leading then some { arguments := word :: rest }
    else do
      let words ← wordsUpTo? names leading most rest
      return { words with arguments := word :: words.arguments }

def words? (names : OptionNames) (leading : Bool) (args : List String) : Option Words :=
  wordsUpTo? names leading args.length args

/-- The seed that is asked for, if any, which must be an integer. -/
def Words.seed? (words : Words) : Option (Option Int) :=
  match words.value? .seed with
  | none => some none
  | some text => (Text.readInteger text).toOption.map some

def Words.author (words : Words) : String := (words.value? .author).getD "You"

/-- A command that takes at most one argument and perhaps a seed. -/
def Words.command? (words : Words) (make : Option String → Option Int → Command) :
    Option Command :=
  if words.has .help then some .help
  else do
    let seed ← words.seed?
    match words.arguments with
    | [] => some (make none seed)
    | [argument] => some (make (some argument) seed)
    | _ => none

/-- The commands by name. -/
inductive CommandName where
  | roll | genchar | functions
deriving Repr, DecidableEq

def CommandName.ofWord? : String → Option CommandName
  | "roll" => some .roll
  | "genchar" => some .genchar
  | "functions" => some .functions
  | _ => none

/-- The command of that name with its own arguments. -/
def CommandName.command? (name : CommandName) (args : List String) : Option Command := do
  match name with
  | .roll =>
    let words ← words? rollOptions false args
    words.command? fun text seed => .roll text (words.value? .description) words.author seed
  | .genchar =>
    let words ← words? characterOptions false args
    words.command? fun system seed => .character system words.author seed
  | .functions =>
    let words ← words? functionsOptions false args
    if words.has .help then some .help
    else if words.arguments.isEmpty then some .functions
    else none

/-- The help that the options in front ask for, if they do. -/
def askedHelp? (args : List String) : Option Command := do
  let words ← words? topOptions true args
  if words.has .help then some .help else none

/-- The command that a command line gives, if it is used properly. After a `--` the next word is the
command's name; where it names none it may still be an option that asks for help. -/
def Command.parse? (args : List String) : Option Command := do
  let words ← words? topOptions true args
  if words.has .help then some .help
  else match words.arguments with
    | [] => none
    | word :: rest =>
      match CommandName.ofWord? word with
      | some name => name.command? rest
      | none => askedHelp? (word :: rest)

end DiceLang.Console
