import TelemetryTriggers.Proofs.Services.Pairing

/-!
# Fan-out

An update makes the rules that select it publish one after the other, and nothing that is
published depends on what was published before.  On a topic that only one rule publishes
on, the deliveries are the message of this rule, once for each subscription.

Main definition: `World.logged`, services with more deliveries in the log.  The main
statements are `World.dispatch_log`, `RuleEngine.dispatch_on_topic`, for a topic with one rule,
`Broker.Integrity.deliveries_to`, for one subscription to it, and
`Broker.Serves.deliveries_perm`, for subscriptions that stand for rows of targets.
-/

namespace TelemetryTriggers

theorem Condition.eq_of_compile {c : Condition} {thing message : String} {p : Predicate}
    (h : c.compile thing message = .ok p) :
    p = ⟨thing, c, message, predicateText thing c message⟩ :=
  (Condition.compile_eq_ok.mp h).2

namespace Broker

variable {b : Broker} {topic other : TopicHandle} {message : String} {d : Delivery}

theorem exists_subscription (h : d ∈ b.deliveriesOf topic message) :
    b.hasTopic topic = true ∧
      exists s, s ∈ b.subscriptions ∧ s.topic = topic ∧ d = deliver message s := by
  unfold deliveriesOf at h
  split at h
  · rename_i hlive
    rcases List.mem_map.mp (List.mem_mergeSort.mp h) with ⟨s, hs, rfl⟩
    rcases List.mem_filter.mp hs with ⟨hs, hon⟩
    exact ⟨hlive, s, hs, eq_of_beq hon, rfl⟩
  · cases h

theorem mem_deliveriesOf (h : d ∈ b.deliveriesOf topic message) :
    b.hasTopic topic = true ∧ d.topic = topic := by
  rcases exists_subscription h with ⟨hlive, s, _, hon, rfl⟩
  exact ⟨hlive, hon⟩

theorem filter_deliveriesOf_self :
    (b.deliveriesOf topic message).filter (·.topic == topic) = b.deliveriesOf topic message := by
  rw [List.filter_eq_self]
  intro d hd
  rw [(mem_deliveriesOf hd).2, BEq.rfl]

theorem filter_deliveriesOf_of_ne (h : other ≠ topic) :
    (b.deliveriesOf other message).filter (·.topic == topic) = [] := by
  rw [List.filter_eq_nil_iff]
  intro d hd
  rw [(mem_deliveriesOf hd).2, beq_iff_eq]
  exact h

theorem Serves.deliveries_perm {rows : List Target}
    (h : b.Serves (fun s => s) topic rows) (hlive : b.hasTopic topic = true) :
    (b.deliveriesOf topic message).Perm (rows.map fun r =>
      ⟨topic, r.subscription, r.kind.protocol, r.address, message⟩) := by
  rw [deliveriesOf, if_pos hlive]
  apply (List.mergeSort_perm _ _).trans
  have hmessages := h.symm.map (deliver message)
  rw [List.map_id', List.map_map] at hmessages
  exact hmessages

theorem Integrity.deliveries_to (h : b.Integrity) {s : Subscription} (hs : s ∈ b.subscriptions)
    (message : String) :
    (b.deliveriesOf s.topic message).filter (·.subscription == s.handle) =
      [deliver message s] := by
  have hmem : s ∈ b.subscriptionsOf s.topic := List.mem_filter.mpr ⟨hs, BEq.rfl⟩
  have honly : (b.subscriptionsOf s.topic).filter (·.handle == s.handle) = [s] :=
    filter_key_eq_singleton (nodup_map_filter h.subscription_handles _) hmem
  apply List.perm_singleton.mp
  rw [deliveriesOf, if_pos (h.live s hs)]
  apply ((List.mergeSort_perm _ _).filter _).trans
  rw [List.filter_map]
  show List.Perm (List.map _ ((b.subscriptionsOf s.topic).filter (·.handle == s.handle))) _
  rw [honly]
  exact List.Perm.refl _

end Broker

namespace RuleEngine

variable {e : RuleEngine} {b : Broker} {u : ShadowUpdate} {rule : Rule}

theorem publishAll_made (ms : List RuleMatch) (b : Broker) :
    (publishAll ms b).1 = ms.flatMap fun m => b.deliveriesOf m.topic m.message := by
  induction ms generalizing b with
  | nil => rfl
  | cons m ms ih =>
      rw [List.flatMap_cons]
      exact congrArg (b.deliveriesOf m.topic m.message ++ ·) (ih (b.publish m.topic m.message).2)

theorem live_of_publishAll (ms : List RuleMatch) (b : Broker) {d : Delivery}
    (hd : d ∈ (publishAll ms b).1) : b.hasTopic d.topic = true := by
  rw [publishAll_made] at hd
  rcases List.mem_flatMap.mp hd with ⟨m, _, hmade⟩
  rcases Broker.mem_deliveriesOf hmade with ⟨hlive, hon⟩
  rw [hon]
  exact hlive

theorem flatMap_filter {α β : Type} {f : α -> List β} {p : α -> Bool} {xs : List α}
    (h : forall x, x ∈ xs -> p x = false -> f x = []) :
    (xs.filter p).flatMap f = xs.flatMap f := by
  induction xs with
  | nil => rfl
  | cons x xs ih =>
      have hrest := ih fun y hy => h y (List.mem_cons_of_mem x hy)
      rw [List.filter_cons, List.flatMap_cons]
      cases hp : p x with
      | false => rw [if_neg Bool.false_ne_true, hrest, h x List.mem_cons_self hp, List.nil_append]
      | true => rw [if_pos rfl, List.flatMap_cons, hrest]

theorem publishAll_log (ms : List RuleMatch) (b : Broker) :
    (publishAll ms b).2 = { b with deliveries := b.deliveries ++ (publishAll ms b).1 } := by
  induction ms generalizing b with
  | nil => simp [publishAll]
  | cons m ms ih =>
      rw [publishAll, ih]
      simp only [Broker.publish, List.append_assoc]

theorem Integrity.only_on_topic (h : e.Integrity) (hrule : rule ∈ e.rules)
    (honly : forall other, other ∈ e.rules -> other.topic = rule.topic -> other = rule) :
    e.rules.filter (·.topic == rule.topic) = [rule] := by
  apply filter_eq_singleton h.handles.of_map hrule
  intro other hother
  rw [beq_iff_eq]
  exact ⟨honly other hother, congrArg Rule.topic⟩

theorem select_on_topic (hrule : e.rules.filter (·.topic == rule.topic) = [rule]) :
    (e.select u).filter (·.topic == rule.topic) =
      if u.isSelectedBy rule.predicate then [fired rule] else [] := by
  have hselected : ((e.select u).filter (·.topic == rule.topic)).Perm
      (if u.isSelectedBy rule.predicate then [fired rule] else []) := by
    apply ((List.mergeSort_perm _ _).filter _).trans
    rw [List.filter_map]
    show List.Perm (List.map fired (List.filter (·.topic == rule.topic) _)) _
    rw [List.filter_comm, hrule, List.filter_cons]
    split
    · exact List.Perm.refl _
    · exact List.Perm.refl _
  split
  · rename_i hfires
    rw [if_pos hfires] at hselected
    exact List.perm_singleton.mp hselected
  · rename_i hquiet
    rw [if_neg hquiet] at hselected
    exact hselected.eq_nil

theorem dispatch_on_topic (hrule : e.rules.filter (·.topic == rule.topic) = [rule]) :
    (e.dispatch u b).1.filter (·.topic == rule.topic) =
      if u.isSelectedBy rule.predicate then
        b.deliveriesOf rule.topic rule.predicate.message
      else [] := by
  have hothers : forall m, m ∈ e.select u -> (m.topic == rule.topic) = false ->
      (b.deliveriesOf m.topic m.message).filter (·.topic == rule.topic) = [] :=
    fun m _ hne => Broker.filter_deliveriesOf_of_ne (beq_eq_false_iff_ne.mp hne)
  rw [dispatch, publishAll_made, List.filter_flatMap, ← flatMap_filter hothers,
    select_on_topic hrule]
  split
  · rw [List.flatMap_singleton]
    exact Broker.filter_deliveriesOf_self
  · rfl

end RuleEngine

namespace World

def logged (w : World) (made : List Delivery) : World :=
  { w with broker := { w.broker with deliveries := w.broker.deliveries ++ made } }

theorem logged_logged (w : World) (made more : List Delivery) :
    (w.logged made).logged more = w.logged (made ++ more) := by
  simp only [logged, List.append_assoc]

theorem dispatch_log (w : World) (u : ShadowUpdate) :
    (w.dispatch u).2 = w.logged (w.dispatch u).1 :=
  congrArg (fun broker => { w with broker }) (RuleEngine.publishAll_log _ _)

end World
end TelemetryTriggers
