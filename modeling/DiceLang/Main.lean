import DiceLang.Console.Report

/-!
# The command line program

Reads the configuration file that the environment names, runs the command and prints what it shows.
-/

namespace DiceLang.Console

/-- The text of a file, if there is one. -/
def readFile? (path : String) : IO (Option String) := do
  try return some (← IO.FS.readFile path)
  catch _ => return none

def randomSource : IO Source := do
  let bytes ← IO.getRandomBytes 8
  return .generator (bytes.foldl (fun n b => n * 256 + b.toUInt64) 0)

def Block.print : Block → IO Unit
  | .panel title text => IO.println (title ++ "\n\n" ++ text)
  | .line _ text => IO.println text
  | .table title columns rows => do
    IO.println title
    for row in columns :: rows do
      IO.println ("  ".intercalate row)

def Report.print (report : Report) : IO Unit := do
  if report.exitCode = 2 then
    IO.eprintln "usage: [-v] roll [EXPRESSION] | genchar [SYSTEM] | functions"
  match report.fault with
  | none => pure ()
  | some (.config _) => IO.eprintln "the configuration is not valid"
  | some (.roll _) => IO.eprintln "the roll has no outcome"
  for block in report.shown do
    block.print

end DiceLang.Console

open DiceLang in
def main (args : List String) : IO UInt32 := do
  let file ← match Config.location none (← IO.getEnv "DICE_CONFIG") with
    | none => pure none
    | some path => Console.readFile? path
  let report := Console.run args (Config.load file) (← Console.randomSource)
  report.print
  return report.exitCode.toUInt32
