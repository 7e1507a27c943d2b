import DiceLang.Config.Datum
import DiceLang.Text.Integer

/-!
# TOML files

The part of TOML that a configuration file uses: tables under headers, entries of a bare key and an
integer, a truth value or a string without escapes, and comments. Anything else is malformed, and so
is a key or a table that is given twice.
-/

namespace DiceLang.Config.Toml

inductive Line where
  | empty
  | header (name : String)
  | entry (key : String) (value : Datum)

def isSpace (c : Char) : Bool := c = ' ' || c = '\t'

def isKeyChar (c : Char) : Bool := c.isAlphanum || c = '_' || c = '-'

def skipSpace (chars : List Char) : List Char := chars.dropWhile isSpace

/-- Only blanks and a comment are left of the line. -/
def atEnd (chars : List Char) : Bool :=
  match skipSpace chars with
  | [] => true
  | c :: _ => c = '#'

/-- A bare key, and what follows it and the blanks after it. -/
def key? (chars : List Char) : Option (String × List Char) :=
  match chars.takeWhile isKeyChar with
  | [] => none
  | name => some (String.ofList name, skipSpace (chars.dropWhile isKeyChar))

/-- A bare value: a truth value, or an integer without superfluous zeros. -/
def bareValue? (word : List Char) : Option Datum :=
  if word = "true".toList then some (.bool true)
  else if word = "false".toList then some (.bool false)
  else
    let (negative, digits) := Text.splitSign word
    if Text.hasSpareZero digits then none
    else (Text.digitGroups digits).map fun digits =>
      .int (Text.signed negative (Text.numeral (String.ofList digits)))

/-- A string ends with the quote that it starts with. -/
def quotedValue? (quote : Char) (chars : List Char) : Option Datum :=
  match chars.dropWhile fun c => c != quote && c != '\\' with
  | c :: rest =>
    if c = quote && atEnd rest then some (.text (String.ofList (chars.takeWhile (· != quote))))
    else none
  | [] => none

def value? : List Char → Option Datum
  | '\x22' :: rest => quotedValue? '\x22' rest
  | '\x27' :: rest => quotedValue? '\x27' rest
  | chars =>
    let word := chars.takeWhile fun c => !isSpace c && c != '#'
    if atEnd (chars.drop word.length) then bareValue? word else none

def line? (chars : List Char) : Option Line :=
  match skipSpace chars with
  | [] => some .empty
  | '#' :: _ => some .empty
  | '[' :: rest =>
    match key? (skipSpace rest) with
    | some (name, ']' :: rest) => if atEnd rest then some (.header name) else none
    | _ => none
  | chars =>
    match key? chars with
    | some (name, '=' :: rest) => (value? (skipSpace rest)).map (.entry name)
    | _ => none

/-- The entries read so far, and the table that the next ones belong to. -/
structure Document where
  entries : List (String × Datum)
  current : Option String

/-- Adds an entry whose key must be new. -/
def insert? (key : String) (value : Datum) (entries : List (String × Datum)) :
    Option (List (String × Datum)) :=
  if (entries.lookup key).isSome then none else some (entries ++ [(key, value)])

/-- Adds an entry to a table among the entries. -/
def insertInto? (table key : String) (value : Datum) :
    List (String × Datum) → Option (List (String × Datum))
  | [] => none
  | (name, datum) :: rest =>
    if name = table then
      match datum with
      | .table entries => (insert? key value entries).map fun entries =>
        (name, .table entries) :: rest
      | _ => none
    else (insertInto? table key value rest).map ((name, datum) :: ·)

def Document.add? (d : Document) : Line → Option Document
  | .empty => some d
  | .header name =>
    (insert? name (.table []) d.entries).map fun entries => ⟨entries, some name⟩
  | .entry key value =>
    (match d.current with
      | none => insert? key value d.entries
      | some table => insertInto? table key value d.entries).map
      fun entries => ⟨entries, d.current⟩

/-- The lines of a text, without the carriage returns before the line breaks. -/
def lines (text : String) : List (List Char) :=
  (text.splitOn "\n").map fun line =>
    let chars := line.toList
    if chars.getLast? = some '\r' then chars.dropLast else chars

/-- The table that a file holds. -/
def parse? (text : String) : Option Datum := do
  let start : Document := ⟨[], none⟩
  let document ← (lines text).foldlM (fun d chars => do d.add? (← line? chars)) start
  return .table document.entries

end DiceLang.Config.Toml
