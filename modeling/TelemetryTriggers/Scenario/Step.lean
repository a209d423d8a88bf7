import TelemetryTriggers.Exchange.Request
import TelemetryTriggers.Json.Reader
import TelemetryTriggers.Scenario.Error

/-!
# Scenarios

A scenario is a list of paired devices and a list of steps.  A step names its
operation, either as the member `op` of an object or as the first item of an array
that goes on with the fields of the step in order.  A step is kept as a whole
before it is read, so it has to be sound.

Main definitions: `Step`; `Scenario`; `Scenario.parse`.
-/

namespace TelemetryTriggers

inductive FaultKind
  | notFound
  | rejected
  | unavailable
deriving DecidableEq

def FaultKind.error : FaultKind → String → ServiceError
  | .notFound => .notFound
  | .rejected => .rejected
  | .unavailable => .unavailable

inductive Step
  | create (name : String) (request : CreateRequest)
  | delete (trigger : String) (user : UserId)
  | addTarget (trigger : String) (user : UserId) (target : TargetSpec)
  | removeTarget (trigger : String) (user : UserId) (address : String)
  | ingest (thing : String) (document : Json)
  | fail (operation : String) (kind : FaultKind) (reason : Option String)
      (times after : Option Nat)
  | delay (operation : String) (millis : Nat)
  | clearFaults
  | recover

def Step.word : Step → String
  | create .. => "create"
  | delete .. => "delete"
  | addTarget .. => "add_target"
  | removeTarget .. => "remove_target"
  | ingest .. => "ingest"
  | fail .. => "fail"
  | delay .. => "delay"
  | clearFaults => "clear_faults"
  | recover => "recover"

structure Scenario where
  things : List Thing
  steps : List Step

/-!
# Reading
-/

def FaultKind.ofJson? : Json → Option FaultKind :=
  Json.choice? true
    [("not_found", .notFound), ("rejected", .rejected), ("unavailable", .unavailable)]

namespace Step

def create? (fields : Json) : Option Step := do
  let r ← Record.of? ["name", "request"] fields
  some (.create (← r.required "name" Json.string?)
    (← r.required "request" CreateRequest.ofJson?))

def delete? (fields : Json) : Option Step := do
  let r ← Record.of? ["trigger", "user"] fields
  some (.delete (← r.required "trigger" Json.string?) (← r.required "user" UserId.ofJson?))

def addTarget? (fields : Json) : Option Step := do
  let r ← Record.of? ["trigger", "user", "target"] fields
  some (.addTarget (← r.required "trigger" Json.string?)
    (← r.required "user" UserId.ofJson?) (← r.required "target" TargetSpec.ofJson?))

def removeTarget? (fields : Json) : Option Step := do
  let r ← Record.of? ["trigger", "user", "address"] fields
  some (.removeTarget (← r.required "trigger" Json.string?)
    (← r.required "user" UserId.ofJson?) (← r.required "address" Json.string?))

def ingest? (fields : Json) : Option Step := do
  let r ← Record.of? ["thing", "document"] fields
  some (.ingest (← r.required "thing" Json.string?) (← r.required "document" some))

def fail? (fields : Json) : Option Step := do
  let r ← Record.of? ["operation", "error", "reason", "times", "after"] fields
  some (.fail (← r.required "operation" Json.string?)
    (← r.required "error" FaultKind.ofJson?)
    (← r.withDefault "reason" none (Record.nullable Json.string?))
    (← r.withDefault "times" none (Record.nullable Json.word?))
    (← r.withDefault "after" none (Record.nullable Json.word?)))

def delay? (fields : Json) : Option Step := do
  let r ← Record.of? ["operation", "millis"] fields
  some (.delay (← r.required "operation" Json.string?) (← r.required "millis" Json.word?))

/-- A step without fields.  An object may hold anything beside the operation, an
array nothing. -/
def bare? (step : Step) : Json → Option Step
  | .array (_ :: _) => none
  | _ => some step

def readers : List (String × (Json → Option Step)) :=
  [("create", create?), ("delete", delete?), ("add_target", addTarget?),
   ("remove_target", removeTarget?), ("ingest", ingest?), ("fail", fail?),
   ("delay", delay?), ("clear_faults", bare? .clearFaults), ("recover", bare? .recover)]

def ofFields? (word : String) (fields : Json) : Option Step :=
  (readers.lookup word).bind fun read => read fields

def isOperation (member : Option String × Json) : Bool :=
  member.1 == some "op"

def ofKept? : Json → Option Step
  | .object members =>
      match members.filter isOperation with
      | [(_, .string (some word))] =>
          ofFields? word (.object (members.filter fun member => !isOperation member))
      | _ => none
  | .array (.string (some word) :: items) => ofFields? word (.array items)
  | _ => none

/-- How deeply a step may be nested, inside a list inside a scenario. -/
def maxLevels : Nat :=
  Json.maxLevels - 2

def ofJson? (value : Json) : Option Step :=
  if value.sound maxLevels then ofKept? value else none

end Step

namespace Scenario

def fieldNames : List String :=
  ["things", "steps"]

def hasOnlyFields : Json → Bool
  | .object members => members.all fun member => member.1.any fieldNames.contains
  | _ => true

/-- Reads a scenario.  Devices may be left out; members that are no fields are
refused. -/
def ofJson? (value : Json) : Option Scenario :=
  if hasOnlyFields value then do
    let r ← Record.of? fieldNames value
    some ⟨← r.withDefault "things" [] (Json.list? Thing.ofJson?),
      ← r.required "steps" (Json.list? Step.ofJson?)⟩
  else
    none

def parse (text : String) : Except CommandError Scenario :=
  match (Json.read? text).bind ofJson? with
  | some scenario => .ok scenario
  | none => .error (.scenario .malformed)

end Scenario
end TelemetryTriggers
