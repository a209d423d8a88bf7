import Mathlib.Data.List.Forall2
import Mathlib.Data.String.Basic
import TelemetryTriggers.Proofs.Services.Fanout

/-!
# The order of deliveries

An update is dispatched rule by rule, in the order of their handles, and the message of each
rule goes to the subscriptions in the order of their endpoints.  So the deliveries do not
depend on the order in which rules were installed and endpoints subscribed, except that one
endpoint with several subscriptions may get its copies of a message in any order.

Main definitions: `Broker.FansOut`, what a message on a topic comes to; `EqualButTies`;
`World.SameContent`.  The main statement is `World.dispatch_in_order`.
-/

namespace TelemetryTriggers

theorem pairwise_mergeSort_text {α : Type} (text : α -> String) (items : List α) :
    (items.mergeSort fun a b => decide (text a ≤ text b)).Pairwise
      fun a b => text a ≤ text b := by
  let before (a b : α) : Bool := decide (text a ≤ text b)
  have htrans : forall a b c, before a b = true -> before b c = true -> before a c = true := by
    intro a b c hab hbc
    exact decide_eq_true (le_trans (of_decide_eq_true hab) (of_decide_eq_true hbc))
  have htotal : forall a b, (before a b || before b a) = true := by
    intro a b
    simpa [before] using le_total (text a) (text b)
  have hsorted := List.pairwise_mergeSort htrans htotal items
  simpa [before] using hsorted

/-!
# Deliveries in the same order
-/

def Delivery.route (d : Delivery) : TopicHandle × String × String :=
  (d.topic, d.message, d.endpoint)

/-- The same deliveries, which may differ in the order of those that have the topic, the
message and the endpoint in common. -/
structure EqualButTies (ds es : List Delivery) : Prop where
  perm : ds.Perm es
  routes : ds.map Delivery.route = es.map Delivery.route

theorem EqualButTies.append {ds es ds' es' : List Delivery} (h : EqualButTies ds es)
    (h' : EqualButTies ds' es') : EqualButTies (ds ++ ds') (es ++ es') where
  perm := h.perm.append h'.perm
  routes := by rw [List.map_append, List.map_append, h.routes, h'.routes]

theorem EqualButTies.flatMap {α : Type} {f g : α -> List Delivery} {items : List α}
    (h : forall a, a ∈ items -> EqualButTies (f a) (g a)) :
    EqualButTies (items.flatMap f) (items.flatMap g) := by
  induction items with
  | nil => exact ⟨.refl _, rfl⟩
  | cons a items ih =>
      rw [List.flatMap_cons, List.flatMap_cons]
      exact (h a List.mem_cons_self).append (ih fun b hb => h b (List.mem_cons_of_mem a hb))

/-!
# One message
-/

namespace Broker

variable {b b' : Broker} {topic : TopicHandle} {message : String} {made made' : List Delivery}

/-- What a message on a topic comes to: each subscription to the topic gets it once, in the
order of their endpoints, and nobody does when the topic is gone. -/
structure FansOut (b : Broker) (topic : TopicHandle) (message : String)
    (made : List Delivery) : Prop where
  gone : b.hasTopic topic = false -> made = []
  once : b.hasTopic topic = true ->
    made.Perm ((b.subscriptions.filter (·.topic == topic)).map fun s =>
      ⟨topic, s.handle, s.protocol, s.endpoint, message⟩)
  ordered : made.Pairwise fun d e => d.endpoint ≤ e.endpoint

theorem map_deliver_subscriptionsOf (b : Broker) (topic : TopicHandle) (message : String) :
    (b.subscriptionsOf topic).map (deliver message) =
      (b.subscriptions.filter (·.topic == topic)).map fun s =>
        ⟨topic, s.handle, s.protocol, s.endpoint, message⟩ := by
  apply List.map_congr_left
  intro s hs
  rw [deliver, eq_of_beq (List.mem_filter.mp hs).2]

theorem fansOut_deliveriesOf (b : Broker) (topic : TopicHandle) (message : String) :
    b.FansOut topic message (b.deliveriesOf topic message) := by
  unfold deliveriesOf
  split
  · rename_i hlive
    refine ⟨?_, ?_, pairwise_mergeSort_text Delivery.endpoint _⟩
    · intro hgone
      rw [hlive] at hgone
      cases hgone
    · intro _
      rw [← map_deliver_subscriptionsOf]
      exact List.mergeSort_perm _ _
  · rename_i hgone
    exact ⟨fun _ => rfl, fun hlive => absurd hlive hgone, .nil⟩

theorem FansOut.route_eq (h : b.FansOut topic message made) :
    made.map Delivery.route = (made.map (·.endpoint)).map (topic, message, ·) := by
  rw [List.map_map]
  apply List.map_congr_left
  intro d hd
  cases hlive : b.hasTopic topic with
  | false =>
      rw [h.gone hlive] at hd
      cases hd
  | true =>
      rcases List.mem_map.mp ((h.once hlive).mem_iff.mp hd) with ⟨s, _, rfl⟩
      rfl

theorem FansOut.equalButTies (h : b.FansOut topic message made)
    (h' : b'.FansOut topic message made') (htopic : b.hasTopic topic = b'.hasTopic topic)
    (hsubscriptions : b.subscriptions.Perm b'.subscriptions) : EqualButTies made made' := by
  have hperm : made.Perm made' := by
    cases hlive : b.hasTopic topic with
    | false =>
        rw [h.gone hlive, h'.gone (htopic.symm.trans hlive)]
    | true =>
        exact (h.once hlive).trans (((hsubscriptions.filter _).map _).trans
          (h'.once (htopic.symm.trans hlive)).symm)
  refine ⟨hperm, ?_⟩
  rw [h.route_eq, h'.route_eq]
  congr 1
  exact (hperm.map _).eq_of_pairwise (fun _ _ _ _ => le_antisymm)
    (List.pairwise_map.mpr h.ordered) (List.pairwise_map.mpr h'.ordered)

end Broker

/-!
# The rules that an update fires
-/

namespace RuleEngine

variable {e e' : RuleEngine} {u : ShadowUpdate}

def firing (e : RuleEngine) (u : ShadowUpdate) : List Rule :=
  (e.rules.filter fun rule => u.isSelectedBy rule.predicate).mergeSort
    fun r s => decide (r.handle.text ≤ s.handle.text)

theorem firing_perm (e : RuleEngine) (u : ShadowUpdate) :
    (e.firing u).Perm (e.rules.filter fun rule => u.isSelectedBy rule.predicate) :=
  List.mergeSort_perm _ _

theorem mem_rules_of_firing {rule : Rule} (h : rule ∈ e.firing u) : rule ∈ e.rules :=
  List.mem_of_mem_filter ((firing_perm e u).mem_iff.mp h)

theorem eq_of_handle_text (h : (e.rules.map (·.handle)).Nodup) {r s : Rule} (hr : r ∈ e.rules)
    (hs : s ∈ e.rules) (heq : r.handle.text = s.handle.text) : r = s :=
  List.inj_on_of_nodup_map h hr hs (congrArg RuleHandle.mk heq)

theorem firing_ordered (h : (e.rules.map (·.handle)).Nodup) :
    (e.firing u).Pairwise fun r s => r.handle.text < s.handle.text := by
  have hnodup : (e.firing u).Nodup := (firing_perm e u).nodup_iff.mpr (h.of_map.filter _)
  have hsorted := pairwise_mergeSort_text (fun rule : Rule => rule.handle.text)
    (e.rules.filter fun rule => u.isSelectedBy rule.predicate)
  apply (hsorted.and hnodup).imp_of_mem
  rintro r s hr hs ⟨hle, hne⟩
  apply lt_of_le_of_ne hle
  intro heq
  exact hne (eq_of_handle_text h (mem_rules_of_firing hr) (mem_rules_of_firing hs) heq)

theorem select_eq (e : RuleEngine) (u : ShadowUpdate) : e.select u = (e.firing u).map fired := by
  rw [select, firing, List.map_mergeSort]
  intro r _ s _
  rfl

theorem dispatch_made (e : RuleEngine) (u : ShadowUpdate) (b : Broker) :
    (e.dispatch u b).1 = (e.firing u).flatMap fun rule =>
      b.deliveriesOf rule.topic rule.predicate.message := by
  rw [dispatch, publishAll_made, select_eq, List.flatMap_map]
  rfl

theorem firing_eq_of_perm (h : (e.rules.map (·.handle)).Nodup) (hperm : e.rules.Perm e'.rules) :
    e.firing u = e'.firing u := by
  have h' : (e'.rules.map (·.handle)).Nodup := (hperm.map _).nodup_iff.mp h
  have hsame : (e.firing u).Perm (e'.firing u) :=
    (firing_perm e u).trans ((hperm.filter _).trans (firing_perm e' u).symm)
  exact hsame.eq_of_pairwise (fun _ _ _ _ hlt hgt => absurd hgt (lt_asymm hlt))
    (firing_ordered h) (firing_ordered h')

end RuleEngine

/-!
# Dispatch
-/

namespace World

structure SameContent (w v : World) : Prop where
  rules : w.engine.rules.Perm v.engine.rules
  topics : w.broker.topics.Perm v.broker.topics
  subscriptions : w.broker.subscriptions.Perm v.broker.subscriptions

/-- An update is delivered by the rules that it fires, one after the other in the order of
their handles, and each message goes out once for each subscription to the topic of its rule,
in the order of the endpoints.  The log grows by what is delivered, and nothing else changes.
In another world with the same rules, topics and subscriptions the deliveries are the same,
in the same order as far as topic, message and endpoint tell them apart.  An engine finds its
rules by their handles, so no two of them have one handle. -/
theorem dispatch_in_order (w : World) (u : ShadowUpdate)
    (h : (w.engine.rules.map (·.handle)).Nodup) :
    exists made, w.dispatch u = (made, w.logged made) ∧
      (exists rules blocks,
        rules.Perm (w.engine.rules.filter fun rule => u.isSelectedBy rule.predicate) ∧
        (rules.Pairwise fun r s => r.handle.text < s.handle.text) ∧
        List.Forall₂ (fun (rule : Rule) block =>
          w.broker.FansOut rule.topic rule.predicate.message block) rules blocks ∧
        made = blocks.flatten) ∧
      forall v : World, w.SameContent v -> EqualButTies made (v.dispatch u).1 := by
  refine ⟨_, Prod.ext rfl (w.dispatch_log u), ?_, ?_⟩
  · refine ⟨w.engine.firing u, _, w.engine.firing_perm u, RuleEngine.firing_ordered h, ?_,
      w.engine.dispatch_made u w.broker⟩
    rw [List.forall₂_map_right_iff, List.forall₂_same]
    exact fun rule _ => w.broker.fansOut_deliveriesOf _ _
  · intro v hsame
    show EqualButTies (w.engine.dispatch u w.broker).1 (v.engine.dispatch u v.broker).1
    rw [RuleEngine.dispatch_made, RuleEngine.dispatch_made,
      ← RuleEngine.firing_eq_of_perm h hsame.rules]
    apply EqualButTies.flatMap
    intro rule _
    exact (w.broker.fansOut_deliveriesOf _ _).equalButTies (v.broker.fansOut_deliveriesOf _ _)
      hsame.topics.any_eq hsame.subscriptions

def reversed (w : World) : World :=
  { w with
    engine := ⟨w.engine.rules.reverse⟩
    broker := { w.broker with
      topics := w.broker.topics.reverse
      subscriptions := w.broker.subscriptions.reverse } }

theorem sameContent_reversed (w : World) : w.SameContent w.reversed where
  rules := (List.reverse_perm _).symm
  topics := (List.reverse_perm _).symm
  subscriptions := (List.reverse_perm _).symm

def warns (name topic message : String) : Rule :=
  ⟨RuleEngine.handleFor name, name, ⟨"thermostat", ⟨"temperature", .greaterThan, 30⟩, message, ""⟩,
    Broker.handleFor topic⟩

/-- Three rules, of which two publish on one topic and one on a topic that is gone, and an
endpoint that is subscribed twice. -/
def rush : World where
  store := Store.empty
  broker :=
    ⟨[⟨"heat", Broker.handleFor "heat"⟩],
      [⟨⟨"1"⟩, Broker.handleFor "heat", "sms", "+4912345678"⟩,
        ⟨⟨"2"⟩, Broker.handleFor "heat", "email", "driver@example.com"⟩,
        ⟨⟨"3"⟩, Broker.handleFor "heat", "sms", "+4912345678"⟩], []⟩
  engine := ⟨[warns "c" "heat" "Too warm", warns "b" "frost" "Too cold", warns "a" "heat" "Open"]⟩
  faults := FaultPlan.empty
  locks := LockTable.empty
  ids := ⟨Uuid.ofNat, 0⟩

theorem rush_in_order :
    let u := (ShadowUpdate.ofThing "thermostat").withTransition "temperature" (some 19) 31
    (rush.engine.rules.map (·.handle)).Nodup ∧ rush.SameContent rush.reversed ∧
      rush.reversed.engine.rules ≠ rush.engine.rules ∧
      exists made, rush.dispatch u = (made, rush.logged made) ∧
        (exists rules blocks, rules.Perm rush.engine.rules ∧
          (rules.Pairwise fun r s => r.handle.text < s.handle.text) ∧
          List.Forall₂ (fun (rule : Rule) block =>
            rush.broker.FansOut rule.topic rule.predicate.message block) rules blocks ∧
          made = blocks.flatten) ∧
        EqualButTies made (rush.reversed.dispatch u).1 := by
  intro u
  have hhandles : (rush.engine.rules.map (·.handle)).Nodup := by decide
  have hfire : (rush.engine.rules.filter fun rule => u.isSelectedBy rule.predicate) =
      rush.engine.rules := by
    decide +kernel
  rcases rush.dispatch_in_order u hhandles with ⟨made, hmade, hblocks, hsame⟩
  rw [hfire] at hblocks
  exact ⟨hhandles, rush.sameContent_reversed, by decide +kernel, made, hmade, hblocks,
    hsame rush.reversed rush.sameContent_reversed⟩

end World
end TelemetryTriggers
