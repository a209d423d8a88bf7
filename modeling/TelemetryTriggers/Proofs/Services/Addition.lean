import TelemetryTriggers.Proofs.Services.World

/-!
# Calls that add something

One lemma for each call: what it found and what it left when it succeeded.
-/

namespace TelemetryTriggers
namespace Call

variable {w v : World}

theorem insertTrigger_ok {row : Trigger} {r : Unit}
    (h : (insertTrigger row).perform w = (.ok r, v)) :
    (forall t, t ∈ w.store.triggers -> t.id ≠ row.id) ∧
      v = { w with store := { w.store with triggers := w.store.triggers ++ [row] } } := by
  cases performed h with
  | answered hreads => exact hreads.elim
  | insertTrigger hfree => exact ⟨hfree, rfl⟩

theorem setHandles_ok {id : TriggerId} {handles : Handles} {r : Unit}
    (h : (setHandles id handles).perform w = (.ok r, v)) :
    (exists t, w.store.trigger? id = some t ∧ t.isProvisioned = false) ∧
      v = { w with store := { w.store with
        triggers := Store.withHandles id handles w.store.triggers } } := by
  cases performed h with
  | answered hreads => exact hreads.elim
  | setHandles hdraft => exact ⟨hdraft, rfl⟩

theorem insertTarget_ok {row : Target} {r : Unit}
    (h : (insertTarget row).perform w = (.ok r, v)) :
    (forall q, q ∈ w.store.targets -> q.id ≠ row.id) ∧
      v = { w with store := { w.store with targets := w.store.targets ++ [row] } } := by
  cases performed h with
  | answered hreads => exact hreads.elim
  | insertTarget _ hfree => exact ⟨hfree, rfl⟩

theorem createTopic_ok {name : String} {topic : TopicHandle}
    (h : (createTopic name).perform w = (.ok topic, v)) :
    topic = Broker.handleFor name ∧
      ((w.broker.hasTopic topic = true ∧ v = w) ∨
        (w.broker.hasTopic topic = false ∧
          v = { w with broker := { w.broker with
            topics := w.broker.topics ++ [⟨name, topic⟩] } })) := by
  cases performed h with
  | answered hreads => exact hreads.elim
  | keepTopic hold => exact ⟨rfl, Or.inl ⟨hold, rfl⟩⟩
  | createTopic hnew => exact ⟨rfl, Or.inr ⟨hnew, rfl⟩⟩

theorem subscribe_ok {topic : TopicHandle} {protocol endpoint : String}
    {handle : SubscriptionHandle}
    (h : (subscribe topic protocol endpoint).perform w = (.ok handle, v)) :
    w.broker.hasTopic topic = true ∧
      handle = Broker.subscriptionHandle topic w.ids.next.1 ∧
      v = { w with
        broker := { w.broker with
          subscriptions := w.broker.subscriptions.filter (·.handle != handle) ++
            [⟨handle, topic, protocol, endpoint⟩] }
        ids := w.ids.next.2 } := by
  cases performed h with
  | answered hreads => exact hreads.elim
  | subscribe htopic hhandle => exact ⟨htopic, hhandle, rfl⟩

theorem installRule_ok {name : String} {predicate : Predicate} {topic : TopicHandle}
    {rule : RuleHandle}
    (h : (installRule name predicate topic).perform w = (.ok rule, v)) :
    (forall r, r ∈ w.engine.rules -> r.handle ≠ rule) ∧
      rule = RuleEngine.handleFor name ∧
      v = { w with engine := ⟨w.engine.rules ++ [⟨rule, name, predicate, topic⟩]⟩ } := by
  cases performed h with
  | answered hreads => exact hreads.elim
  | installRule hfree => exact ⟨hfree, rfl, rfl⟩

/-!
# Calls that succeed

The other way round: what a call has to find so that it succeeds.
-/

theorem insertTrigger_of_fresh {row : Trigger}
    (h : forall t, t ∈ w.store.triggers -> t.id ≠ row.id) :
    (insertTrigger row).perform w =
      (.ok (), { w with store := { w.store with triggers := w.store.triggers ++ [row] } }) := by
  have hnone : w.store.hasTrigger row.id = false := by
    rw [Store.hasTrigger, List.any_eq_false]
    exact fun t ht => by simpa using h t ht
  simp only [perform, Store.insertTrigger, hnone]
  rfl

theorem setHandles_of_draft {t : Trigger} {id : TriggerId} {handles : Handles}
    (ht : w.store.trigger? id = some t) (hdraft : t.isProvisioned = false) :
    (setHandles id handles).perform w =
      (.ok (), { w with store := { w.store with
        triggers := Store.withHandles id handles w.store.triggers } }) := by
  simp only [perform, Store.setHandles, ht, hdraft]
  rfl

theorem insertTarget_of_fresh {row : Target}
    (howner : exists t, t ∈ w.store.triggers ∧ t.id = row.trigger)
    (h : forall q, q ∈ w.store.targets -> q.id ≠ row.id) :
    (insertTarget row).perform w =
      (.ok (), { w with store := { w.store with targets := w.store.targets ++ [row] } }) := by
  have hsome : w.store.hasTrigger row.trigger = true := by
    rcases howner with ⟨t, ht, hid⟩
    exact List.any_eq_true.mpr ⟨t, ht, beq_iff_eq.mpr hid⟩
  have hnone : w.store.hasTarget row.id = false := by
    rw [Store.hasTarget, List.any_eq_false]
    exact fun q hq => by simpa using h q hq
  simp only [perform, Store.insertTarget, hsome, hnone]
  rfl

theorem createTopic_of_absent {name : String}
    (h : w.broker.hasTopic (Broker.handleFor name) = false) :
    (createTopic name).perform w =
      (.ok (Broker.handleFor name), { w with broker := { w.broker with
        topics := w.broker.topics ++ [⟨name, Broker.handleFor name⟩] } }) := by
  simp only [perform, Broker.createTopic, h]
  rfl

theorem subscribe_of_live {topic : TopicHandle} {kind : TargetKind} {endpoint : String}
    (hlive : w.broker.hasTopic topic = true)
    (h : forall s, s ∈ w.broker.subscriptions ->
      s.handle ≠ Broker.subscriptionHandle topic w.ids.next.1) :
    (subscribe topic kind.protocol endpoint).perform w =
      (.ok (Broker.subscriptionHandle topic w.ids.next.1), { w with
        broker := { w.broker with
          subscriptions := w.broker.subscriptions ++
            [⟨Broker.subscriptionHandle topic w.ids.next.1, topic, kind.protocol, endpoint⟩] }
        ids := w.ids.next.2 }) := by
  have hknown : Broker.protocols.contains kind.protocol = true := by
    cases kind with
    | email => decide
    | sms => decide
  have hkept : (w.broker.subscriptions.filter
      fun s => s.handle != Broker.subscriptionHandle topic w.ids.next.1) =
        w.broker.subscriptions :=
    List.filter_eq_self.mpr fun s hs => by simpa using h s hs
  simp only [perform, Broker.subscribe, hknown, hlive, hkept]
  rfl

theorem installRule_of_fresh {name : String} {predicate : Predicate} {topic : TopicHandle}
    (h : forall r, r ∈ w.engine.rules -> r.handle ≠ RuleEngine.handleFor name) :
    (installRule name predicate topic).perform w =
      (.ok (RuleEngine.handleFor name), { w with engine := ⟨w.engine.rules ++
        [⟨RuleEngine.handleFor name, name, predicate, topic⟩]⟩ }) := by
  have hnone : w.engine.hasRule (RuleEngine.handleFor name) = false := by
    rw [RuleEngine.hasRule, List.any_eq_false]
    exact fun r hr => by simpa using h r hr
  simp only [perform, RuleEngine.installRule, hnone]
  rfl

end Call
end TelemetryTriggers
