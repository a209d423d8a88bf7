import TelemetryTriggers.Config
import TelemetryTriggers.Lifecycle.Query

/-!
# Creation

A trigger starts as a draft, a row without handles.  Then its topic is created,
each target is subscribed and gets a row, the rule is installed, and at last the
handles are written, which makes the trigger visible.  If a step fails, all steps
before it are taken back.

Main definitions: `Lifecycle.create`, with its parts `pairedThing` and
`provision`.
-/

namespace TelemetryTriggers
namespace Lifecycle

def pairedThing (user : UserId) (name : String) : Operation Thing := do
  let row : Option Thing ← .ask (.thingNamed name)
  .orFail (row.filter (·.owner == user)) (.validation (.unpairedThing name))

/-- Subscribes targets to the topic of their trigger and writes their rows, one
target after the other.  Returns the rows with the grown stack of actions that
take everything back. -/
def subscribeTargets (id : TriggerId) (topic : TopicHandle) :
    List ValidTarget → List Undo → Operation (List Target × List Undo)
  | [], undos => pure ([], undos)
  | target :: targets, undos => do
      let subscription : SubscriptionHandle ←
        (Operation.ask (.subscribe topic target.kind.protocol target.address)).orUndo undos
      let undos := .unsubscribe subscription :: undos
      let u ← .fresh
      let row : Target := ⟨⟨u⟩, id, target.kind, target.address, subscription⟩
      (Operation.ask (.insertTarget row)).orUndo undos
      let (rows, undos) ← subscribeTargets id topic targets (.deleteTarget row.id :: undos)
      pure (row :: rows, undos)

def provision (naming : ResourceNaming) (draft : Trigger) (thing : Thing)
    (targets : List ValidTarget) (undos : List Undo) : Operation TriggerDetails := do
  let topic : TopicHandle ←
    (Operation.ask (.createTopic (naming.topicName draft.id))).orUndo undos
  let (rows, undos) ← subscribeTargets draft.id topic targets (.deleteTopic topic :: undos)
  let predicate ←
    (Operation.ofExcept (draft.condition.compile thing.name draft.message)).orUndo undos
  let rule : RuleHandle ←
    (Operation.ask (.installRule (naming.ruleName draft.id) predicate topic)).orUndo undos
  let handles : Handles := ⟨topic, rule⟩
  (Operation.ask (.setHandles draft.id handles)).orUndo (.removeRule rule :: undos)
  pure ⟨{ draft with handles := some handles }, rows⟩

def createWithId (naming : ResourceNaming) (user : UserId) (request : ValidRequest)
    (id : TriggerId) : Operation TriggerDetails := do
  let thing ← pairedThing user request.thingName
  let draft : Trigger :=
    ⟨id, user, thing.id, request.condition, request.message, none⟩
  .ask (.insertTrigger draft)
  provision naming draft thing request.targets [.deleteTrigger id]

/-- Creates a trigger with its topic, its subscriptions and its rule.  A request
with a flaw touches nothing. -/
def create (config : Config) (request : CreateRequest) : Operation TriggerDetails := do
  let valid ← .ofExcept (request.validate config.maxTargets)
  .detached do
    let id : TriggerId := ⟨← .fresh⟩
    .locked id (createWithId config.naming request.user valid id)

end Lifecycle
end TelemetryTriggers
