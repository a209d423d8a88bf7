import TelemetryTriggers.Proofs.Services.Broker
import TelemetryTriggers.Services.Call

/-!
# What a call can come to

A call is refused, or it only asks, or it makes the one change that it is there for.  What
other modules say about the changes of calls is read off `Call.performed`.

Main definitions: `Call.Reads`, a call that only asks; `Call.Performed`, what a call answers and
leaves behind.
-/

namespace TelemetryTriggers
namespace Call

def Reads : Call -> Prop
  | thingNamed _ => True
  | getTrigger _ => True
  | listTriggers _ => True
  | listAllTriggers => True
  | getTarget _ => True
  | listTargets _ => True
  | listTopics => True
  | listRules => True
  | _ => False

/-- What a call answers and leaves behind, with what it has found if it changed something. -/
inductive Performed (w : World) : (c : Call) -> Except ServiceError c.Reply -> World -> Prop
  | refused {c : Call} (e : ServiceError) : Performed w c (.error e) w
  | answered {c : Call} (hreads : c.Reads) (reply : c.Reply) : Performed w c (.ok reply) w
  | insertTrigger {row : Trigger} (hfree : forall t, t ∈ w.store.triggers -> t.id ≠ row.id) :
      Performed w (.insertTrigger row) (.ok ())
        { w with store := { w.store with triggers := w.store.triggers ++ [row] } }
  | setHandles {id : TriggerId} {handles : Handles}
      (hdraft : exists t, w.store.trigger? id = some t ∧ t.isProvisioned = false) :
      Performed w (.setHandles id handles) (.ok ())
        { w with store := { w.store with
          triggers := Store.withHandles id handles w.store.triggers } }
  | deleteTrigger {id : TriggerId} (hempty : forall r, r ∈ w.store.targets -> r.trigger ≠ id) :
      Performed w (.deleteTrigger id) (.ok ())
        { w with store := { w.store with triggers := w.store.triggers.filter (·.id != id) } }
  | insertTarget {row : Target} (howner : exists t, t ∈ w.store.triggers ∧ t.id = row.trigger)
      (hfree : forall q, q ∈ w.store.targets -> q.id ≠ row.id) :
      Performed w (.insertTarget row) (.ok ())
        { w with store := { w.store with targets := w.store.targets ++ [row] } }
  | deleteTarget {id : TargetId} :
      Performed w (.deleteTarget id) (.ok ())
        { w with store := { w.store with targets := w.store.targets.filter (·.id != id) } }
  | createTopic {name : String} (hnew : w.broker.hasTopic (Broker.handleFor name) = false) :
      Performed w (.createTopic name) (.ok (Broker.handleFor name))
        { w with broker := { w.broker with
          topics := w.broker.topics ++ [⟨name, Broker.handleFor name⟩] } }
  | keepTopic {name : String} (hold : w.broker.hasTopic (Broker.handleFor name) = true) :
      Performed w (.createTopic name) (.ok (Broker.handleFor name)) w
  | deleteTopic {topic : TopicHandle} :
      Performed w (.deleteTopic topic) (.ok ())
        { w with broker := { w.broker with
          topics := w.broker.topics.filter (·.handle != topic)
          subscriptions := w.broker.subscriptions.filter (·.topic != topic) } }
  | subscribe {topic : TopicHandle} {protocol endpoint : String} {handle : SubscriptionHandle}
      (htopic : w.broker.hasTopic topic = true)
      (hhandle : handle = Broker.subscriptionHandle topic w.ids.next.1) :
      Performed w (.subscribe topic protocol endpoint) (.ok handle)
        { w with
          broker := { w.broker with
            subscriptions := w.broker.subscriptions.filter (·.handle != handle) ++
              [⟨handle, topic, protocol, endpoint⟩] }
          ids := w.ids.next.2 }
  | unsubscribe {handle : SubscriptionHandle} :
      Performed w (.unsubscribe handle) (.ok ())
        { w with broker := { w.broker with
          subscriptions := w.broker.subscriptions.filter (·.handle != handle) } }
  | installRule {name : String} {predicate : Predicate} {topic : TopicHandle}
      (hfree : forall r, r ∈ w.engine.rules -> r.handle ≠ RuleEngine.handleFor name) :
      Performed w (.installRule name predicate topic) (.ok (RuleEngine.handleFor name))
        { w with engine :=
          ⟨w.engine.rules ++ [⟨RuleEngine.handleFor name, name, predicate, topic⟩]⟩ }
  | removeRule {rule : RuleHandle} :
      Performed w (.removeRule rule) (.ok ())
        { w with engine := ⟨w.engine.rules.filter (·.handle != rule)⟩ }

theorem performed {c : Call} {w v : World} {reply : Except ServiceError c.Reply}
    (h : c.perform w = (reply, v)) : c.Performed w reply v := by
  rcases congrArg Prod.fst h with rfl
  rcases congrArg Prod.snd h with rfl
  clear h
  cases c with
  | insertTrigger row =>
      simp only [perform]
      cases hs : w.store.insertTrigger row with
      | error e => exact .refused e
      | ok s =>
          rcases Store.insertTrigger_eq_ok hs with ⟨hfree, rfl⟩
          exact .insertTrigger hfree
  | setHandles id handles =>
      simp only [perform]
      cases hs : w.store.setHandles id handles with
      | error e => exact .refused e
      | ok s =>
          rcases Store.setHandles_eq_ok hs with ⟨hdraft, rfl⟩
          exact .setHandles hdraft
  | deleteTrigger id =>
      simp only [perform]
      cases hs : w.store.deleteTrigger id with
      | error e => exact .refused e
      | ok s =>
          rcases Store.deleteTrigger_eq_ok hs with ⟨hempty, rfl⟩
          exact .deleteTrigger hempty
  | insertTarget row =>
      simp only [perform]
      cases hs : w.store.insertTarget row with
      | error e => exact .refused e
      | ok s =>
          rcases Store.insertTarget_eq_ok hs with ⟨howner, hfree, rfl⟩
          exact .insertTarget howner hfree
  | deleteTarget id =>
      simp only [perform]
      cases hs : w.store.deleteTarget id with
      | error e => exact .refused e
      | ok s =>
          rcases Store.deleteTarget_eq_ok hs with rfl
          exact .deleteTarget
  | createTopic name =>
      simp only [perform]
      rcases Broker.createTopic_cases w.broker name with ⟨hold, heq⟩ | ⟨hnew, heq⟩
      · rw [heq]
        exact .keepTopic hold
      · rw [heq]
        exact .createTopic hnew
  | deleteTopic topic =>
      simp only [perform]
      cases hb : w.broker.deleteTopic topic with
      | error e => exact .refused e
      | ok b =>
          rcases Broker.deleteTopic_eq_ok hb with rfl
          exact .deleteTopic
  | subscribe topic protocol endpoint =>
      simp only [perform]
      cases hb : w.broker.subscribe topic protocol endpoint w.ids.next.1 with
      | error e => exact .refused e
      | ok made =>
          rcases made with ⟨handle, b⟩
          rcases Broker.subscribe_eq_ok hb with ⟨htopic, hhandle, rfl⟩
          exact .subscribe htopic hhandle
  | unsubscribe handle =>
      simp only [perform]
      cases hb : w.broker.unsubscribe handle with
      | error e => exact .refused e
      | ok b =>
          rcases Broker.unsubscribe_eq_ok hb with rfl
          exact .unsubscribe
  | installRule name predicate topic =>
      simp only [perform]
      cases he : w.engine.installRule name predicate topic with
      | error e => exact .refused e
      | ok made =>
          rcases made with ⟨handle, e⟩
          rcases RuleEngine.installRule_eq_ok he with ⟨hfree, rfl, rfl⟩
          exact .installRule hfree
  | removeRule rule =>
      simp only [perform]
      cases he : w.engine.removeRule rule with
      | error e => exact .refused e
      | ok e =>
          rcases RuleEngine.removeRule_eq_ok he with rfl
          exact .removeRule
  | thingNamed _ | getTrigger _ | listTriggers _ | listAllTriggers | getTarget _
  | listTargets _ | listTopics | listRules =>
      refine .answered ?_ _
      trivial

end Call
end TelemetryTriggers
