import TelemetryTriggers.CommandLine.FileTree
import TelemetryTriggers.CommandLine.Invocation
import TelemetryTriggers.Exchange.Config
import TelemetryTriggers.Report.Evaluation
import TelemetryTriggers.Scenario.Runner

/-!
# Doing what was asked for

A command reads at most two files: the configuration, which only a run needs, and
then the scenario.

Main definitions: `Answer`, what a command prints and how it ends;
`Invocation.execute`.
-/

namespace TelemetryTriggers
namespace CommandLine

structure Answer where
  output : String
  failure : Option CommandError
deriving DecidableEq

namespace Answer

def failed (e : CommandError) : Answer :=
  ⟨"", some e⟩

def ofReport (format : Format) (r : Report) : Answer :=
  ⟨r.write format, none⟩

end Answer

def configOf (files : Files) : Option String → Except CommandError Config
  | none => .ok .standard
  | some path =>
      match files path with
      | .error cause => .error (.config (.unreadable path cause))
      | .ok text => (Config.load text).mapError CommandError.ofTrigger

def scenarioOf (files : Files) (path : String) : Except CommandError Scenario :=
  match files path with
  | .error cause => .error (.file cause)
  | .ok text => Scenario.parse text

def runReport (files : Files) (ids : IdSource) (config : Option String)
    (scenario : String) : Except CommandError ScenarioReport := do
  let config ← configOf files config
  let scenario ← scenarioOf files scenario
  scenario.run config ids

/-- A strict run fails after its report if a step failed. -/
def runAnswer (format : Format) (strict : Bool) (r : ScenarioReport) : Answer :=
  ⟨r.report.write format,
    if strict ∧ r.failed ≠ 0 then some (.stepsFailed r.failed) else none⟩

def Invocation.execute (i : Invocation) (files : Files) (ids : IdSource) : Answer :=
  match i.command with
  | .compile thing property comparator threshold message =>
      match Predicate.compile thing property comparator threshold message with
      | .error e => .failed (.ofTrigger e)
      | .ok p => .ofReport i.format p.report
  | .evaluate property comparator threshold previous current =>
      match Evaluation.make property comparator threshold previous current with
      | .error e => .failed (.ofTrigger e)
      | .ok e => .ofReport i.format e.report
  | .run scenario strict =>
      match runReport files ids i.config scenario with
      | .error e => .failed e
      | .ok r => runAnswer i.format strict r

def Invocation.paths (i : Invocation) : List String :=
  match i.command with
  | .run scenario _ => i.config.toList ++ [scenario]
  | _ => []

end CommandLine
end TelemetryTriggers
