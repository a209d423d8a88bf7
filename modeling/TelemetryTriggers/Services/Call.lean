import TelemetryTriggers.Services.World

/-!
# Calls on the services

A call is one request to the store, the broker or the rule engine.  It is logged
and put before the fault plan when it starts, and its work is done when it ends.
A call that is held up beyond its deadline is dropped: its work is never done.

Main definitions: `Call` with `Call.Reply`, the type of its reply; `Call.perform`,
its work; `Call.attempt`, the call as a whole.
-/

namespace TelemetryTriggers

inductive Call
  | thingNamed (name : String)
  | insertTrigger (row : Trigger)
  | setHandles (id : TriggerId) (handles : Handles)
  | deleteTrigger (id : TriggerId)
  | getTrigger (id : TriggerId)
  | listTriggers (user : UserId)
  | listAllTriggers
  | insertTarget (row : Target)
  | deleteTarget (id : TargetId)
  | getTarget (id : TargetId)
  | listTargets (trigger : TriggerId)
  | createTopic (name : String)
  | deleteTopic (topic : TopicHandle)
  | subscribe (topic : TopicHandle) (protocol endpoint : String)
  | unsubscribe (subscription : SubscriptionHandle)
  | listTopics
  | installRule (name : String) (predicate : Predicate) (topic : TopicHandle)
  | removeRule (rule : RuleHandle)
  | listRules
deriving DecidableEq

inductive Service
  | store
  | broker
  | ruleEngine
deriving DecidableEq

def Service.failure : Service → ServiceError → TriggerError
  | .store => .store
  | .broker => .broker
  | .ruleEngine => .ruleEngine

namespace Call

abbrev Reply : Call → Type
  | thingNamed _ => Option Thing
  | insertTrigger _ => Unit
  | setHandles _ _ => Unit
  | deleteTrigger _ => Unit
  | getTrigger _ => Option Trigger
  | listTriggers _ => List Trigger
  | listAllTriggers => List Trigger
  | insertTarget _ => Unit
  | deleteTarget _ => Unit
  | getTarget _ => Option Target
  | listTargets _ => List Target
  | createTopic _ => TopicHandle
  | deleteTopic _ => Unit
  | subscribe _ _ _ => SubscriptionHandle
  | unsubscribe _ => Unit
  | listTopics => List Topic
  | installRule _ _ _ => RuleHandle
  | removeRule _ => Unit
  | listRules => List RuleInfo

def service : Call → Service
  | createTopic _ => .broker
  | deleteTopic _ => .broker
  | subscribe _ _ _ => .broker
  | unsubscribe _ => .broker
  | listTopics => .broker
  | installRule _ _ _ => .ruleEngine
  | removeRule _ => .ruleEngine
  | listRules => .ruleEngine
  | _ => .store

def operation : Call → String
  | thingNamed _ => "store.get_thing_by_name"
  | insertTrigger _ => "store.insert_trigger"
  | setHandles _ _ => "store.update_trigger_handles"
  | deleteTrigger _ => "store.delete_trigger"
  | getTrigger _ => "store.get_trigger"
  | listTriggers _ => "store.list_triggers"
  | listAllTriggers => "store.list_all_triggers"
  | insertTarget _ => "store.insert_target"
  | deleteTarget _ => "store.delete_target"
  | getTarget _ => "store.get_target"
  | listTargets _ => "store.list_targets"
  | createTopic _ => "broker.create_topic"
  | deleteTopic _ => "broker.delete_topic"
  | subscribe _ _ _ => "broker.subscribe"
  | unsubscribe _ => "broker.unsubscribe"
  | listTopics => "broker.list_topics"
  | installRule _ _ _ => "rules.install_rule"
  | removeRule _ => "rules.remove_rule"
  | listRules => "rules.list_rules"

/-!
# The work of a call
-/

def onStore (w : World) : Except ServiceError Store → Except ServiceError Unit × World
  | .ok store => (.ok (), { w with store })
  | .error e => (.error e, w)

def onBroker (w : World) : Except ServiceError Broker → Except ServiceError Unit × World
  | .ok broker => (.ok (), { w with broker })
  | .error e => (.error e, w)

def onEngine (w : World) :
    Except ServiceError RuleEngine → Except ServiceError Unit × World
  | .ok engine => (.ok (), { w with engine })
  | .error e => (.error e, w)

/-- Does the work of a call.  A subscription draws an identifier, unless it is
refused. -/
def perform : (c : Call) → World → Except ServiceError c.Reply × World
  | thingNamed name, w => (.ok (w.store.thingNamed? name), w)
  | insertTrigger row, w => onStore w (w.store.insertTrigger row)
  | setHandles id handles, w => onStore w (w.store.setHandles id handles)
  | deleteTrigger id, w => onStore w (w.store.deleteTrigger id)
  | getTrigger id, w => (.ok (w.store.trigger? id), w)
  | listTriggers user, w => (.ok (w.store.triggersOf user), w)
  | listAllTriggers, w => (.ok w.store.triggers, w)
  | insertTarget row, w => onStore w (w.store.insertTarget row)
  | deleteTarget id, w => onStore w (w.store.deleteTarget id)
  | getTarget id, w => (.ok (w.store.target? id), w)
  | listTargets trigger, w => (.ok (w.store.targetsOf trigger), w)
  | createTopic name, w =>
      (.ok (Broker.handleFor name), { w with broker := w.broker.createTopic name })
  | deleteTopic topic, w => onBroker w (w.broker.deleteTopic topic)
  | subscribe topic protocol endpoint, w =>
      let (suffix, ids) := w.ids.next
      match w.broker.subscribe topic protocol endpoint suffix with
      | .ok (handle, broker) => (.ok handle, { w with broker, ids })
      | .error e => (.error e, w)
  | unsubscribe subscription, w => onBroker w (w.broker.unsubscribe subscription)
  | listTopics, w => (.ok w.broker.topicsByName, w)
  | installRule name predicate topic, w =>
      match w.engine.installRule name predicate topic with
      | .ok (handle, engine) => (.ok handle, { w with engine })
      | .error e => (.error e, w)
  | removeRule rule, w => onEngine w (w.engine.removeRule rule)
  | listRules, w => (.ok w.engine.rulesByName, w)

/-!
# Calls with deadlines
-/

def timedOut (c : Call) (deadline : Nat) : ServiceError :=
  .unavailable (c.operation ++ " timed out after " ++ toString deadline ++ "ms")

def start (c : Call) (w : World) : Verdict × World :=
  let (verdict, faults) := w.faults.check c.operation
  (verdict, { w with faults })

/-- Makes a call that has some milliseconds, or as long as it takes. -/
def attempt (deadline : Option Nat) (c : Call) (w : World) :
    Except ServiceError c.Reply × World :=
  match c.start w with
  | (.refuse e, w) => (.error e, w)
  | (.pass, w) => c.perform w
  | (.pause millis, w) =>
      match deadline with
      | none => c.perform w
      | some limit => if limit < millis then (.error (c.timedOut limit), w) else c.perform w

end Call
end TelemetryTriggers
