import TelemetryTriggers.Exchange.Condition
import TelemetryTriggers.Report.Format

/-!
# Answers about conditions

Main definitions: `Predicate.report`, a compiled predicate; `Evaluation`, whether
one transition of a reading crosses a condition, with `Evaluation.make` and
`Evaluation.report`.
-/

namespace TelemetryTriggers

def Condition.row (c : Condition) : String :=
  "Condition:   " ++ c.property ++ " " ++ c.comparator.name ++ " " ++
    Decimal.text c.threshold

def Condition.members (c : Condition) : List (String × Json) :=
  [("property", .text c.property), ("comparator", c.comparator.toJson),
    ("threshold", .float c.threshold)]

def Predicate.report (p : Predicate) : Report where
  table :=
    ["Compiled Predicate", Text.rule 34 '═', "Thing:       " ++ p.thing, p.condition.row,
      "Source:      " ++ p.source, "", p.text]
  json := .record ([("thing", .text p.thing)] ++ p.condition.members ++
    [("source_topic", .text p.source), ("predicate", .text p.text)])

structure Evaluation where
  condition : Condition
  previous : Option Float
  current : Float
  fires : Bool
deriving DecidableEq

namespace Evaluation

def make (property comparator : String) (threshold : Float) (previous : Option Float)
    (current : Float) : Except TriggerError Evaluation := do
  let condition ← Condition.read property comparator threshold
  .ok ⟨condition, previous, current, condition.crosses previous current⟩

def readingText : Option Float → String
  | some x => Decimal.text x
  | none => "-"

def report (e : Evaluation) : Report where
  table :=
    [e.condition.row,
      "Transition:  " ++ readingText e.previous ++ " -> " ++ Decimal.text e.current,
      "Fires:       " ++ if e.fires then "yes" else "no"]
  json := .record (e.condition.members ++
    [("previous", (e.previous.map Json.float).getD .null), ("current", .float e.current),
      ("fires", .bool e.fires)])

end Evaluation
end TelemetryTriggers
