import TelemetryTriggers.Proofs.Services.World

/-!
# Calls that remove something

A removal takes out what has a given key, and it finds nothing to take out just when
there is nothing of that key.  Either way nothing of the key is left.

Main definition: `Call.Clears`, a removal that succeeds or reports absence.
-/

namespace TelemetryTriggers

/-- The call removes something or finds it absent, and leaves the second world. -/
def Call.Clears (c : Call) (w v : World) : Prop :=
  (exists r, c.perform w = (.ok r, v)) ∨
    exists e, e.isAbsence = true ∧ c.perform w = (.error e, v)

theorem filter_ne_of_absent {α β : Type} [DecidableEq β] {key : α -> β} {k : β}
    {items : List α} (h : items.any (fun a => key a == k) = false) :
    (items.filter fun a => key a != k) = items := by
  rw [List.filter_eq_self]
  intro a ha
  simpa using List.any_eq_false.mp h a ha

namespace Call

theorem clears_deleteTarget (id : TargetId) (w : World) :
    (deleteTarget id).Clears w
      { w with store := { w.store with targets := w.store.targets.filter (·.id != id) } } := by
  unfold Clears
  simp only [perform, Store.deleteTarget]
  cases htarget : w.store.hasTarget id with
  | true => exact Or.inl ⟨(), rfl⟩
  | false =>
      refine Or.inr ⟨.notFound ("target " ++ id.text), rfl, ?_⟩
      rw [filter_ne_of_absent htarget]
      rfl

theorem clears_deleteTrigger {id : TriggerId} {w : World}
    (h : forall r, r ∈ w.store.targets -> r.trigger ≠ id) :
    (deleteTrigger id).Clears w
      { w with store := { w.store with triggers := w.store.triggers.filter (·.id != id) } } := by
  have htargets : w.store.targets.any (·.trigger == id) = false := by
    rw [List.any_eq_false]
    intro r hr
    simpa using h r hr
  unfold Clears
  simp only [perform, Store.deleteTrigger, htargets]
  cases htrigger : w.store.hasTrigger id with
  | true => exact Or.inl ⟨(), rfl⟩
  | false =>
      refine Or.inr ⟨.notFound ("trigger " ++ id.text), rfl, ?_⟩
      rw [filter_ne_of_absent htrigger]
      rfl

theorem clears_unsubscribe (handle : SubscriptionHandle) (w : World) :
    (unsubscribe handle).Clears w
      { w with broker := { w.broker with
          subscriptions := w.broker.subscriptions.filter (·.handle != handle) } } := by
  unfold Clears
  simp only [perform, Broker.unsubscribe]
  cases hsubscription : w.broker.hasSubscription handle with
  | true => exact Or.inl ⟨(), rfl⟩
  | false =>
      refine Or.inr ⟨.notFound ("subscription " ++ handle.text), rfl, ?_⟩
      rw [filter_ne_of_absent hsubscription]
      rfl

theorem clears_deleteTopic {w : World} (hw : w.broker.Integrity) (topic : TopicHandle) :
    (deleteTopic topic).Clears w
      { w with broker := { w.broker with
          topics := w.broker.topics.filter (·.handle != topic)
          subscriptions := w.broker.subscriptions.filter (·.topic != topic) } } := by
  unfold Clears
  simp only [perform, Broker.deleteTopic]
  cases htopic : w.broker.hasTopic topic with
  | true => exact Or.inl ⟨(), rfl⟩
  | false =>
      -- there are no subscriptions to an absent topic that would have to go with it
      have hnone : w.broker.subscriptions.any (·.topic == topic) = false := by
        rw [List.any_eq_false]
        intro s hs hto
        have hlive := hw.live s hs
        rw [eq_of_beq hto, htopic] at hlive
        cases hlive
      refine Or.inr ⟨.notFound ("topic " ++ topic.text), rfl, ?_⟩
      rw [filter_ne_of_absent htopic, filter_ne_of_absent hnone]
      rfl

theorem clears_removeRule (handle : RuleHandle) (w : World) :
    (removeRule handle).Clears w
      { w with engine := ⟨w.engine.rules.filter (·.handle != handle)⟩ } := by
  unfold Clears
  simp only [perform, RuleEngine.removeRule]
  cases hrule : w.engine.hasRule handle with
  | true => exact Or.inl ⟨(), rfl⟩
  | false =>
      refine Or.inr ⟨.notFound ("rule " ++ handle.text), rfl, ?_⟩
      rw [filter_ne_of_absent hrule]
      rfl

end Call
end TelemetryTriggers
