import TelemetryTriggers.Proofs.Saga.Calm

/-!
# The log of deliveries

No operation on triggers reads the log of deliveries or writes to it.

Main definition: `World.withDeliveries`.  The main statement is
`Saga.play_withDeliveries`.
-/

namespace TelemetryTriggers

def World.withDeliveries (deliveries : List Delivery) (w : World) : World :=
  { w with broker := { w.broker with deliveries } }

theorem Broker.subscribe_withDeliveries (b : Broker) (deliveries : List Delivery)
    (topic : TopicHandle) (protocol endpoint : String) (suffix : Uuid) :
    subscribe { b with deliveries } topic protocol endpoint suffix =
      (b.subscribe topic protocol endpoint suffix).map
        fun subscribed => (subscribed.1, { subscribed.2 with deliveries }) := by
  unfold subscribe
  by_cases hknown : protocols.contains protocol = false
  · rw [if_pos hknown, if_pos hknown]
    rfl
  · rw [if_neg hknown, if_neg hknown]
    by_cases hlive : b.hasTopic topic = false
    · rw [if_pos hlive]
      exact if_pos hlive
    · rw [if_neg hlive]
      exact if_neg hlive

theorem Call.perform_withDeliveries (c : Call) (w : World) (deliveries : List Delivery) :
    c.perform (w.withDeliveries deliveries) =
      ((c.perform w).1, (c.perform w).2.withDeliveries deliveries) := by
  have hstore : forall r, onStore (w.withDeliveries deliveries) r =
      ((onStore w r).1, (onStore w r).2.withDeliveries deliveries) := by
    intro r
    cases r with
    | error e => rfl
    | ok store => rfl
  have hengine : forall r, onEngine (w.withDeliveries deliveries) r =
      ((onEngine w r).1, (onEngine w r).2.withDeliveries deliveries) := by
    intro r
    cases r with
    | error e => rfl
    | ok engine => rfl
  cases c with
  | createTopic name =>
      simp only [perform, World.withDeliveries, Broker.createTopic, Broker.hasTopic]
      by_cases hlive : w.broker.topics.any (·.handle == Broker.handleFor name) = true
      · simp only [hlive, if_true]
      · simp only [hlive, if_false, Bool.false_eq_true]
  | deleteTopic topic =>
      simp only [perform, World.withDeliveries, Broker.deleteTopic, Broker.hasTopic]
      by_cases hlive : w.broker.topics.any (·.handle == topic) = true
      · simp only [hlive, if_true, onBroker]
      · simp only [hlive, if_false, Bool.false_eq_true, onBroker]
  | subscribe topic protocol endpoint =>
      have hsubscribe := w.broker.subscribe_withDeliveries deliveries topic protocol endpoint
        w.ids.next.1
      simp only [perform, World.withDeliveries]
      rw [hsubscribe]
      cases w.broker.subscribe topic protocol endpoint w.ids.next.1 with
      | error e => rfl
      | ok subscribed => rfl
  | unsubscribe subscription =>
      simp only [perform, World.withDeliveries, Broker.unsubscribe, Broker.hasSubscription]
      by_cases hlive : w.broker.subscriptions.any (·.handle == subscription) = true
      · simp only [hlive, if_true, onBroker]
      · simp only [hlive, if_false, Bool.false_eq_true, onBroker]
  | installRule name predicate topic =>
      simp only [perform, World.withDeliveries]
      cases w.engine.installRule name predicate topic with
      | error e => rfl
      | ok installed => rfl
  | insertTrigger row => exact hstore _
  | setHandles id handles => exact hstore _
  | deleteTrigger id => exact hstore _
  | insertTarget row => exact hstore _
  | deleteTarget id => exact hstore _
  | removeRule rule => exact hengine _
  | _ => rfl

theorem Saga.play_withDeliveries {α : Type} (s : Saga α) (w : World)
    (deliveries : List Delivery) :
    s.play (w.withDeliveries deliveries) =
      ((s.play w).1, (s.play w).2.withDeliveries deliveries) := by
  induction s generalizing w with
  | done a => rfl
  | call c next ih =>
      rw [play, play, c.perform_withDeliveries]
      exact ih _ _
  | acquire id next ih =>
      simp only [play]
      rw [show (w.withDeliveries deliveries).locks = w.locks from rfl]
      cases w.locks.acquire? id with
      | none => exact ih _ _
      | some locks => exact ih _ { w with locks }
  | release id next ih => exact ih { w with locks := w.locks.release id }
  | isHeld id next ih => exact ih _ _
  | draw next ih => exact ih _ { w with ids := w.ids.next.2 }
  | detach next ih => exact ih _

end TelemetryTriggers
