import TelemetryTriggers.CommandLine.Grammar
import TelemetryTriggers.Decimal.Numeral
import TelemetryTriggers.Report.Format

/-!
# Invocations

The command line names a configuration and a format for all commands, then one of
three commands: to compile a condition, to evaluate one transition, or to run a
scenario.  The configuration may also come from the environment.

Main definitions: `Invocation`; `Invocation.parse`.
-/

namespace TelemetryTriggers
namespace CommandLine

inductive Command
  | compile (thing property comparator : String) (threshold : Float) (message : String)
  | evaluate (property comparator : String) (threshold : Float)
      (previous : Option Float) (current : Float)
  | run (scenario : String) (strict : Bool)
deriving DecidableEq

structure Invocation where
  config : Option String
  format : Format
  command : Command
deriving DecidableEq

/-!
# Grammars of the commands
-/

def textOption (name : String) : Slot :=
  ⟨name, none, false, fun _ => true⟩

def numberOption (name : String) : Slot :=
  ⟨name, none, true, fun s => (Decimal.parseFloat? s).isSome⟩

def isPath (s : String) : Bool :=
  s != ""

def format? (s : String) : Option Format :=
  [("table", Format.table), ("json", Format.json)].lookup s

def mainGrammar : Grammar where
  options :=
    [⟨"config", some 'c', false, isPath⟩, ⟨"format", some 'f', false, (format? · |>.isSome)⟩]
  switches := []
  places := []
  subcommands := ["compile", "evaluate", "run", "help"]
  hasVersion := true

def compileGrammar : Grammar where
  options :=
    [textOption "thing", textOption "property", textOption "comparator",
      numberOption "threshold", textOption "message"]
  switches := []
  places := []
  subcommands := []
  hasVersion := false

def evaluateGrammar : Grammar where
  options :=
    [textOption "property", textOption "comparator", numberOption "threshold",
      numberOption "previous", numberOption "current"]
  switches := []
  places := []
  subcommands := []
  hasVersion := false

def runGrammar : Grammar where
  options := []
  switches := ["strict"]
  places := [⟨"scenario", none, false, isPath⟩]
  subcommands := []
  hasVersion := false

/-!
# Reading
-/

namespace Reading

def text (r : Reading) (name : String) : Except Halt String :=
  match r.value? name with
  | some s => .ok s
  | none => .error .usage

def number? (r : Reading) (name : String) : Option Float :=
  (r.value? name).bind Decimal.parseFloat?

def number (r : Reading) (name : String) : Except Halt Float :=
  match r.number? name with
  | some x => .ok x
  | none => .error .usage

end Reading

namespace Command

def parseCompile (words : List String) : Except Halt Command := do
  let r ← compileGrammar.readAll words
  .ok (.compile (← r.text "thing") (← r.text "property") (← r.text "comparator")
    (← r.number "threshold") (← r.text "message"))

def parseEvaluate (words : List String) : Except Halt Command := do
  let r ← evaluateGrammar.readAll words
  .ok (.evaluate (← r.text "property") (← r.text "comparator") (← r.number "threshold")
    (r.number? "previous") (← r.number "current"))

def parseRun (words : List String) : Except Halt Command := do
  let r ← runGrammar.readAll words
  .ok (.run (← r.text "scenario") (r.switches.contains "strict"))

def parseHelp : List String → Halt
  | [] => .help
  | [word] => if mainGrammar.subcommands.contains word then .help else .usage
  | _ => .usage

def parse (name : String) (words : List String) : Except Halt Command :=
  match name with
  | "compile" => parseCompile words
  | "evaluate" => parseEvaluate words
  | "run" => parseRun words
  | _ => .error (parseHelp words)

end Command

namespace Invocation

def configOf (given environment : Option String) : Except Halt (Option String) :=
  match given, environment with
  | none, some path => if isPath path then .ok (some path) else .error .usage
  | given, _ => .ok given

/-- Reads a command line and a configuration from the environment.  The command is
read before the last value that stands before it is checked. -/
def parse (environment : Option String) (words : List String) :
    Except Halt Invocation := do
  let (r, rest) ← mainGrammar.scan mainGrammar.start words
  match rest with
  | none => .error .usage
  | some (name, words) =>
      let command ← Command.parse name words
      let r ← r.settle
      let config ← configOf (r.value? "config") environment
      .ok ⟨config, ((r.value? "format").bind format?).getD .table, command⟩

end Invocation
end CommandLine
end TelemetryTriggers
