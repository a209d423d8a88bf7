import TelemetryTriggers.Condition
import TelemetryTriggers.Target.Spec

/-!
# Creation requests

A request is checked as a whole before anything is touched.

Main definitions: `CreateRequest`, what a caller gives; `ValidRequest`, what
creation works with; `CreateRequest.validate`, the check.
-/

namespace TelemetryTriggers

structure CreateRequest where
  user : UserId
  thingName : String
  property : String
  comparator : String
  threshold : Float
  message : String
  targets : List TargetSpec
deriving DecidableEq

structure ValidRequest where
  thingName : String
  condition : Condition
  message : String
  targets : List ValidTarget
deriving DecidableEq

def isThingNameChar (c : Char) : Bool :=
  c.isAlphanum || c == ':' || c == '_' || c == '-'

def validateThingName (name : String) : Except TriggerError Unit :=
  if name = "" then
    .error (.validation .noThingName)
  else if Text.consistsOf isThingNameChar 1 maxThingNameLength name.toList = false then
    .error (.validation (.badThingName name))
  else
    .ok ()

def validateMessage (message : String) : Except TriggerError String :=
  let message := Text.trim message
  if message = "" then .error (.validation .noMessage)
  else if maxMessageLength < message.length then .error (.validation .longMessage)
  else .ok message

def validateTargets : List TargetSpec → Except TriggerError (List ValidTarget)
  | [] => .ok []
  | spec :: specs => do
      let target ← spec.validate
      let targets ← validateTargets specs
      .ok (target :: targets)

/-- Checks everything about a request that needs no service.  The flaws are looked
for in this order: name, comparator, condition, message, number of targets, each
target. -/
def CreateRequest.validate (request : CreateRequest) (maxTargets : Nat) :
    Except TriggerError ValidRequest := do
  validateThingName request.thingName
  let condition ←
    Condition.read (Text.trim request.property) request.comparator request.threshold
  let message ← validateMessage request.message
  if maxTargets < request.targets.length then
    .error (.validation (.tooManyTargets maxTargets request.targets.length))
  else
    let targets ← validateTargets request.targets
    .ok ⟨request.thingName, condition, message, targets⟩

end TelemetryTriggers
