import TelemetryTriggers.Config
import TelemetryTriggers.Lifecycle.Query

/-!
# Deletion

The rule and the topic of a trigger go first, then the rows of its targets, then
its own row, so that a deletion that failed can be tried again as long as the row
is there.  What is already absent is passed over.  A draft has no handles, but an
interrupted creation may have left a rule and a topic that are named after it.

Main definitions: `Lifecycle.delete`, with its parts `removeResources`,
`removeLeftovers` and `deleteRows`.
-/

namespace TelemetryTriggers
namespace Lifecycle

def removeAll : List Call → Operation Unit
  | [] => pure ()
  | c :: cs => do
      .ensureGone c
      removeAll cs

def removeResources (handles : Handles) : Operation Unit :=
  removeAll [.removeRule handles.rule, .deleteTopic handles.topic]

def removeLeftovers (naming : ResourceNaming) (id : TriggerId) : Operation Unit := do
  let rules : List RuleInfo ← .ask .listRules
  removeAll ((rules.filter fun rule => naming.triggerForRule? rule.name == some id).map
    fun rule => .removeRule rule.handle)
  let topics : List Topic ← .ask .listTopics
  removeAll ((topics.filter fun topic => naming.triggerForTopic? topic.name == some id).map
    fun topic => .deleteTopic topic.handle)

/-- Removes the subscriptions of targets, as far as that works. -/
def unsubscribeAll : List Target → Operation Unit
  | [] => pure ()
  | target :: targets => do
      let _ ← Operation.ofSaga (Saga.invoke (.unsubscribe target.subscription))
      unsubscribeAll targets

def deleteRows (id : TriggerId) (targets : List Target) : Operation Unit :=
  removeAll (targets.map (fun target => .deleteTarget target.id) ++ [.deleteTrigger id])

def deleteOwned (naming : ResourceNaming) (user : UserId) (id : TriggerId) :
    Operation Unit := do
  let row : Option Trigger ← .ask (.getTrigger id)
  let trigger ← .orFail (row.filter (·.user == user)) (noTrigger id)
  let targets : List Target ← .ask (.listTargets id)
  match trigger.handles with
  | some handles => removeResources handles
  | none => do
      removeLeftovers naming id
      unsubscribeAll targets
  deleteRows id targets

def delete (config : Config) (user : UserId) (id : TriggerId) : Operation Unit :=
  .detached (.locked id (deleteOwned config.naming user id))

end Lifecycle
end TelemetryTriggers
