import TelemetryTriggers.CommandLine.Execute

/-!
# The program

Reads the files that a command line names, does what it asks for, and prints the
answer.  Everything else is decided by `Invocation.parse` and `Invocation.execute`.
-/

namespace TelemetryTriggers
namespace CommandLine

def configVariable : String :=
  "OBD_TRIGGERS_CONFIG"

def helpText : String :=
  Text.lines
    ["Usage: [--config PATH] [--format table|json] COMMAND", "",
      "Commands:",
      "  compile   --thing --property --comparator --threshold --message",
      "  evaluate  --property --comparator --threshold [--previous] --current",
      "  run       SCENARIO [--strict]"]

/-- The number of a system error, which some calls report with its sign changed. -/
def errorNumber (code : UInt32) : UInt32 :=
  min code (0 - code)

def fileError (e : IO.Error) : FileError :=
  match e with
  | .noFileOrDirectory .. => .missing
  | .inappropriateType _ code _ =>
      if errorNumber code = 21 then .directory else .notDirectory
  | .invalidArgument _ code _ =>
      if errorNumber code = 36 then .nameTooLong else .other (toString e)
  | .userError _ => .notText
  | _ => .other (toString e)

def readFile (path : String) : IO (Except FileError String) := do
  try
    let text ← IO.FS.readFile path
    pure (.ok text)
  catch e =>
    pure (.error (fileError e))

def randomWord : IO Nat := do
  let bytes ← IO.getRandomBytes 8
  pure (bytes.toList.foldl (fun n b => 256 * n + b.toNat) 0)

def randomIds : IO IdSource := do
  let high ← randomWord
  let low ← randomWord
  let step ← randomWord
  pure (.ofSeed ((high <<< 64) + low) step)

def Invocation.perform (i : Invocation) : IO UInt32 := do
  let contents ← i.paths.mapM fun path => do
    let content ← readFile path
    pure (path, content)
  let files : Files := fun path => (contents.lookup path).getD (.error .missing)
  let answer := i.execute files (← randomIds)
  IO.print answer.output
  match answer.failure with
  | none => pure 0
  | some e => do
      IO.eprintln ("Error: " ++ e.message)
      pure 1

end CommandLine
end TelemetryTriggers

open TelemetryTriggers.CommandLine

def main (words : List String) : IO UInt32 := do
  let environment ← IO.getEnv configVariable
  match Invocation.parse environment words with
  | .ok i => i.perform
  | .error .help => do
      IO.print helpText
      pure 0
  | .error .usage => do
      IO.eprint helpText
      pure 2
