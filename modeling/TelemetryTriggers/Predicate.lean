import TelemetryTriggers.Request

/-!
# Predicates of the rule engine

A device reports each property twice, with its value before and after an update.
The predicate of a condition selects an update when the new value satisfies the
condition and the old one did not, so it fires once per crossing and not on every
update past the threshold.

Main definitions: `Predicate`; `Condition.compile`, the text handed to the rule
engine; `Predicate.fires`, its meaning for one transition.
-/

namespace TelemetryTriggers

def sqlVersion : String :=
  "2016-03-23"

/-- What stands before a property's name for its value after the update. -/
def currentMark : String :=
  "curr"

/-- What stands before a property's name for its value before the update. -/
def previousMark : String :=
  "prev"

structure Predicate where
  thing : String
  condition : Condition
  message : String
  text : String
deriving DecidableEq

def sourceTopic (thing : String) : String :=
  "$aws/things/" ++ thing ++ "/shadow/update/accepted"

/-- A character of a quoted literal; quotes and backslashes get a backslash. -/
def literalChar (c : Char) : List Char :=
  if c = '"' ∨ c = '\\' then ['\\', c] else [c]

def literal (s : String) : String :=
  String.ofList (s.toList.flatMap literalChar)

def predicateText (thing : String) (c : Condition) (message : String) : String :=
  let test := c.comparator.symbol ++ " " ++ Decimal.text c.threshold
  "SELECT \"" ++ literal message ++ "\" AS default FROM '" ++ sourceTopic thing ++
    "' WHERE state.reported." ++ currentMark ++ c.property ++ " " ++ test ++
    " AND NOT (state.reported." ++ previousMark ++ c.property ++ " " ++ test ++ ")"

def Condition.compile (c : Condition) (thing message : String) :
    Except TriggerError Predicate := do
  validateThingName thing
  .ok ⟨thing, c, message, predicateText thing c message⟩

theorem Condition.compile_eq_ok {c : Condition} {thing message : String} {p : Predicate} :
    c.compile thing message = .ok p ↔
      validateThingName thing = .ok () ∧
        p = ⟨thing, c, message, predicateText thing c message⟩ := by
  rw [compile]
  cases validateThingName thing with
  | error e =>
      constructor
      · intro h
        cases h
      · rintro ⟨h, _⟩
        cases h
  | ok _ =>
      constructor
      · intro h
        cases h
        exact ⟨rfl, rfl⟩
      · rintro ⟨_, rfl⟩
        rfl

namespace Predicate

def compile (thing property comparator : String) (threshold : Float)
    (message : String) : Except TriggerError Predicate := do
  let condition ← Condition.read property comparator threshold
  condition.compile thing message

def source (p : Predicate) : String :=
  sourceTopic p.thing

/-- The predicate selects a transition.  Without a previous value the first
reading that satisfies the condition is a crossing. -/
def fires (p : Predicate) (previous : Option Float) (current : Float) : Bool :=
  p.condition.crosses previous current

end Predicate
end TelemetryTriggers
