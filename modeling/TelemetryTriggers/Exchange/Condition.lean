import TelemetryTriggers.Json.Record
import TelemetryTriggers.Predicate

/-!
# JSON forms of conditions and predicates

Reading checks the form only; what a caller gives is validated elsewhere.
-/

namespace TelemetryTriggers

def Comparator.ofJson? : Json → Option Comparator :=
  Json.choice? false [("lt", .lessThan), ("gt", .greaterThan), ("eq", .equal)]

def Comparator.toJson (c : Comparator) : Json :=
  .text c.name

def Condition.ofJson? (value : Json) : Option Condition := do
  let r ← Record.of? ["property", "comparator", "threshold"] value
  some ⟨← r.required "property" Json.string?,
    ← r.required "comparator" Comparator.ofJson?,
    ← r.required "threshold" Json.toFloat?⟩

def Condition.toJson (c : Condition) : Json :=
  .record [("property", .text c.property), ("comparator", c.comparator.toJson),
    ("threshold", .float c.threshold)]

/-- Reads a compiled predicate.  Its text is taken as it stands. -/
def Predicate.ofJson? (value : Json) : Option Predicate := do
  let r ← Record.of? ["thing", "condition", "message", "text"] value
  some ⟨← r.required "thing" Json.string?,
    ← r.required "condition" Condition.ofJson?,
    ← r.required "message" Json.string?,
    ← r.required "text" Json.string?⟩

def Predicate.toJson (p : Predicate) : Json :=
  .record [("thing", .text p.thing), ("condition", p.condition.toJson),
    ("message", .text p.message), ("text", .text p.text)]

end TelemetryTriggers
