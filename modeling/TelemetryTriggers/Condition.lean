import TelemetryTriggers.Decimal.Layout
import TelemetryTriggers.Error
import TelemetryTriggers.Text.Pattern

/-!
# Threshold conditions

A condition compares the reading of one reported property with a threshold.

Main definitions: `Comparator` with its spellings; `Condition`, its grammar
`Condition.make` and its meaning `Condition.isSatisfied`.
-/

namespace TelemetryTriggers

inductive Comparator
  | lessThan
  | greaterThan
  | equal
deriving DecidableEq

namespace Comparator

/-- The comparison of two readings.  A value that is no number satisfies none. -/
def holds : Comparator → Float → Float → Bool
  | .lessThan, left, right => decide (left < right)
  | .greaterThan, left, right => decide (right < left)
  | .equal, left, right => left == right

def symbol : Comparator → String
  | .lessThan => "<"
  | .greaterThan => ">"
  | .equal => "="

def name : Comparator → String
  | .lessThan => "lt"
  | .greaterThan => "gt"
  | .equal => "eq"

def spellings : List (String × Comparator) :=
  [("lt", .lessThan), ("<", .lessThan), ("less-than", .lessThan),
   ("less_than", .lessThan), ("gt", .greaterThan), (">", .greaterThan),
   ("greater-than", .greaterThan), ("greater_than", .greaterThan),
   ("eq", .equal), ("=", .equal), ("==", .equal), ("equal", .equal)]

def parse (s : String) : Except TriggerError Comparator :=
  let word := Text.lowerAscii (Text.trim s)
  match spellings.lookup word with
  | some comparator => .ok comparator
  | none =>
      .error (.invalidCondition
        (if word = "" then .noComparator else .unknownComparator word))

end Comparator

structure Condition where
  property : String
  comparator : Comparator
  threshold : Float
deriving DecidableEq

namespace Condition

/-- A property name can stand in a predicate: a letter or underscore, then
letters, digits and underscores. -/
def isProperty (property : String) : Bool :=
  Text.startsThen Text.isWordStart Text.isWordChar property.toList

/-- A condition, if its property can stand in a predicate and its threshold is a
number.  The flaws are looked for in this order. -/
def make (property : String) (comparator : Comparator) (threshold : Float) :
    Except TriggerError Condition :=
  if property = "" then
    .error (.invalidCondition .noProperty)
  else if maxPropertyLength < property.utf8ByteSize then
    .error (.invalidCondition .longProperty)
  else if isProperty property = false then
    .error (.invalidCondition (.badProperty property))
  else if threshold.isFinite = false then
    .error (.invalidCondition .thresholdNotFinite)
  else
    .ok ⟨property, comparator, threshold⟩

def read (property comparator : String) (threshold : Float) :
    Except TriggerError Condition := do
  let comparator ← Comparator.parse comparator
  make property comparator threshold

def isSatisfied (c : Condition) (reading : Float) : Bool :=
  c.comparator.holds reading c.threshold

def crosses (c : Condition) (previous : Option Float) (current : Float) : Bool :=
  c.isSatisfied current && !previous.any c.isSatisfied

def text (c : Condition) : String :=
  c.property ++ " " ++ c.comparator.symbol ++ " " ++ Decimal.text c.threshold

end Condition
end TelemetryTriggers
