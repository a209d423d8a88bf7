import TelemetryTriggers.Exchange.Report
import TelemetryTriggers.Report.Format

/-!
# Reports on scenarios

Main definitions: `Outcome`, what became of one step; `ScenarioReport`, the
outcomes with what the services hold in the end; `ScenarioReport.report`.
-/

namespace TelemetryTriggers

structure Outcome where
  word : String
  ok : Bool
  detail : String
  recovery : Option RecoveryReport
deriving DecidableEq

structure ScenarioReport where
  steps : List Outcome
  resources : Counts
deriving DecidableEq

def Counts.toJson (c : Counts) : Json :=
  .record [("triggers", .nat c.triggers), ("targets", .nat c.targets),
    ("topics", .nat c.topics), ("subscriptions", .nat c.subscriptions),
    ("rules", .nat c.rules), ("deliveries", .nat c.deliveries)]

def Counts.rows (c : Counts) : List String :=
  ["Resources",
    "  Triggers:       " ++ toString c.triggers,
    "  Targets:        " ++ toString c.targets,
    "  Topics:         " ++ toString c.topics,
    "  Subscriptions:  " ++ toString c.subscriptions,
    "  Rules:          " ++ toString c.rules,
    "  Deliveries:     " ++ toString c.deliveries]

namespace Outcome

/-- The outcome of the step with a number, as an object.  Only a sweep has a
recovery report. -/
def toJson (index : Nat) (o : Outcome) : Json :=
  .record ([("index", .nat index), ("op", .text o.word), ("ok", .bool o.ok),
    ("detail", .text o.detail)] ++
    (o.recovery.map fun r => ("recovery", r.toJson)).toList)

def columns (index word result detail : String) : String :=
  Text.padded 4 index ++ " " ++ Text.padded 14 word ++ " " ++ Text.padded 6 result ++
    " " ++ detail

def row (index : Nat) (o : Outcome) : String :=
  columns (toString index) o.word (if o.ok then "ok" else "FAILED") o.detail

end Outcome

namespace ScenarioReport

def failed (r : ScenarioReport) : Nat :=
  r.steps.countP fun o => !o.ok

def numbered {α : Type} (f : Nat → Outcome → α) (r : ScenarioReport) : List α :=
  r.steps.zipIdx.map fun (o, i) => f (i + 1) o

def summary (r : ScenarioReport) : String :=
  toString r.failed ++ " of " ++ toString r.steps.length ++ " step(s) failed"

def report (r : ScenarioReport) : Report where
  table :=
    [Outcome.columns "#" "OP" "RESULT" "DETAIL", Text.rule 72 '─'] ++
      r.numbered Outcome.row ++ [""] ++ r.resources.rows ++ ["", r.summary]
  json := .record [("steps", .array (r.numbered Outcome.toJson)),
    ("resources", r.resources.toJson)]

end ScenarioReport
end TelemetryTriggers
