import TelemetryTriggers.Config
import TelemetryTriggers.Lifecycle.Query

/-!
# Adding and removing targets

A target is subscribed before its row is written, and its row is deleted only once
its subscription is gone, so a row never stands for a subscription that was not
made.

Main definitions: `Lifecycle.addTarget` and `Lifecycle.removeTarget`.
-/

namespace TelemetryTriggers
namespace Lifecycle

def addTargetOwned (maxTargets : Nat) (user : UserId) (id : TriggerId)
    (target : ValidTarget) : Operation Target := do
  let trigger ← visibleTrigger user id
  let handles ← .orFail trigger.handles (noTrigger id)
  let targets : List Target ← .ask (.listTargets id)
  if maxTargets ≤ targets.length then
    .fail (.validation (.targetLimit id maxTargets))
  else
    let subscription : SubscriptionHandle ←
      .ask (.subscribe handles.topic target.kind.protocol target.address)
    let u ← .fresh
    let row : Target := ⟨⟨u⟩, id, target.kind, target.address, subscription⟩
    (Operation.ask (.insertTarget row)).orUndo [.unsubscribe subscription]
    pure row

def addTarget (config : Config) (user : UserId) (id : TriggerId) (spec : TargetSpec) :
    Operation Target := do
  let target ← .ofExcept spec.validate
  .detached (.locked id (addTargetOwned config.maxTargets user id target))

/-- Removes a target of a trigger of an account, whose lock is held.  The row is
read again, because another removal may have come first. -/
def removeTargetOwned (user : UserId) (id : TargetId) : Operation Unit := do
  let row : Option Target ← .ask (.getTarget id)
  let target ← .orFail row (noTarget id)
  let _ ← visibleTrigger user target.trigger
  .ensureGone (.unsubscribe target.subscription)
  .ensureGone (.deleteTarget id)

def removeTarget (user : UserId) (id : TargetId) : Operation Unit := do
  let target ← getTarget user id
  .detached (.locked target.trigger (removeTargetOwned user id))

end Lifecycle
end TelemetryTriggers
