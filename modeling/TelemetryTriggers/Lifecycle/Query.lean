import TelemetryTriggers.Saga.Undo

/-!
# Questions about triggers

An account sees the provisioned triggers that it owns, and their targets.  A
trigger that it may not see is reported like one that does not exist.

Main definitions: `visibleTrigger`; `getTrigger`, `listTriggers`, `listTargets`
and `getTarget`, which take no lock; `isBusy`.
-/

namespace TelemetryTriggers

structure TriggerDetails where
  trigger : Trigger
  targets : List Target
deriving DecidableEq

namespace Lifecycle

def noTrigger (id : TriggerId) : TriggerError :=
  .notFound .trigger id.text

def noTarget (id : TargetId) : TriggerError :=
  .notFound .target id.text

def isVisibleTo (user : UserId) (t : Trigger) : Bool :=
  t.user == user && t.isProvisioned

def visibleTrigger (user : UserId) (id : TriggerId) : Operation Trigger := do
  let row : Option Trigger ← .ask (.getTrigger id)
  .orFail (row.filter (isVisibleTo user)) (noTrigger id)

def getTrigger (user : UserId) (id : TriggerId) : Operation TriggerDetails := do
  let trigger ← visibleTrigger user id
  let targets : List Target ← .ask (.listTargets id)
  pure ⟨trigger, targets⟩

def listTriggers (user : UserId) : Operation (List Trigger) := do
  let rows : List Trigger ← .ask (.listTriggers user)
  pure (rows.filter (·.isProvisioned))

def listTargets (user : UserId) (id : TriggerId) : Operation (List Target) := do
  let _ ← visibleTrigger user id
  .ask (.listTargets id)

/-- A target whose trigger cannot be seen does not exist for the caller. -/
def hideTrigger (id : TargetId) : TriggerError → TriggerError
  | .notFound _ _ => noTarget id
  | e => e

def getTarget (user : UserId) (id : TargetId) : Operation Target := do
  let row : Option Target ← .ask (.getTarget id)
  let target ← .orFail row (noTarget id)
  let _ ← (visibleTrigger user target.trigger).adapt (hideTrigger id)
  pure target

def isBusy (id : TriggerId) : Saga Bool :=
  .isHeld id .done

end Lifecycle
end TelemetryTriggers
