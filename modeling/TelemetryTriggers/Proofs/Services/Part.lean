import TelemetryTriggers.Proofs.Services.Share

/-!
# Services that hold one trigger only

A call about one trigger finds the same things and does the same with them if the
services hold nothing else.

Main definitions: `Store.part`, `Broker.part` and `RuleEngine.part`, what a service
holds of a trigger, with `World.part`.  There is one lemma for each operation.
-/

namespace TelemetryTriggers

/-!
# Filtered lists
-/

section Lists

variable {α : Type} {p q : α -> Bool} {items : List α}

theorem any_filter_of_imp (h : forall a, a ∈ items -> q a = true -> p a = true) :
    (items.filter p).any q = items.any q := by
  rw [List.any_filter, Bool.eq_iff_iff, List.any_eq_true, List.any_eq_true]
  constructor
  · rintro ⟨a, ha, hboth⟩
    exact ⟨a, ha, (Bool.and_eq_true_iff.mp hboth).2⟩
  · rintro ⟨a, ha, hq⟩
    exact ⟨a, ha, Bool.and_eq_true_iff.mpr ⟨h a ha hq, hq⟩⟩

theorem find?_filter_of_imp (h : forall a, a ∈ items -> q a = true -> p a = true) :
    (items.filter p).find? q = items.find? q := by
  induction items with
  | nil => rfl
  | cons a items ih =>
      have hrest := ih fun b hb => h b (List.mem_cons_of_mem a hb)
      cases hq : q a with
      | true =>
          rw [List.filter_cons_of_pos (h a List.mem_cons_self hq), List.find?_cons_of_pos hq,
            List.find?_cons_of_pos hq]
      | false =>
          rw [List.find?_cons_of_neg (by simp [hq]), ← hrest, List.filter_cons]
          split
          · rw [List.find?_cons_of_neg (by simp [hq])]
          · rfl

theorem filter_swap (p q : α -> Bool) (items : List α) :
    (items.filter p).filter q = (items.filter q).filter p := by
  rw [List.filter_filter, List.filter_filter]
  exact List.filter_congr fun a _ => Bool.and_comm _ _

theorem filter_concat_of_pos (items : List α) {a : α} (h : p a = true) :
    (items ++ [a]).filter p = items.filter p ++ [a] := by
  rw [List.filter_append, List.filter_cons_of_pos h, List.filter_nil]

theorem filter_mergeSort_of_nodup {β : Type} {key : α -> β} {k : β} (le : α -> α -> Bool)
    (hnodup : (items.map key).Nodup) (h : forall a, a ∈ items -> p a = true -> key a = k) :
    (items.mergeSort le).filter p = (items.filter p).mergeSort le := by
  have hkeys : (items.filter p).map key = List.replicate (items.filter p).length k := by
    refine List.eq_replicate_iff.mpr ⟨List.length_map key, ?_⟩
    intro b hb
    rcases List.mem_map.mp hb with ⟨a, ha, rfl⟩
    exact h a (List.mem_of_mem_filter ha) (List.mem_filter.mp ha).2
  have hone : (items.filter p).length ≤ 1 := by
    rw [← List.nodup_replicate (a := k), ← hkeys]
    exact nodup_map_filter hnodup p
  have hperm : ((items.mergeSort le).filter p).Perm ((items.filter p).mergeSort le) :=
    ((List.mergeSort_perm items le).filter p).trans (List.mergeSort_perm _ le).symm
  have hshort : ((items.filter p).mergeSort le).length ≤ 1 := by
    rw [List.length_mergeSort]
    exact hone
  rcases Nat.le_one_iff_eq_zero_or_eq_one.mp hshort with hnone | hsingle
  · rw [List.length_eq_zero_iff.mp hnone] at hperm ⊢
    exact hperm.eq_nil
  · rcases List.length_eq_one_iff.mp hsingle with ⟨a, ha⟩
    rw [ha] at hperm ⊢
    exact List.perm_singleton.mp hperm

end Lists

/-!
# The store
-/

namespace Store

def part (id : TriggerId) (s : Store) : Store where
  things := s.things
  triggers := s.triggers.filter (·.id == id)
  targets := s.targets.filter (·.trigger == id)

variable {id : TriggerId} {s : Store}

@[simp] theorem hasTrigger_part : (s.part id).hasTrigger id = s.hasTrigger id :=
  any_filter_of_imp fun _ _ h => h

@[simp] theorem trigger?_part : (s.part id).trigger? id = s.trigger? id :=
  find?_filter_of_imp fun _ _ h => h

@[simp] theorem targetsOf_part : (s.part id).targetsOf id = s.targetsOf id := by
  simp [targetsOf, part, List.filter_filter]

theorem hasTarget_part {target : TargetId}
    (h : forall r, r ∈ s.targets -> r.id = target -> r.trigger = id) :
    (s.part id).hasTarget target = s.hasTarget target :=
  any_filter_of_imp fun r hr hid => beq_iff_eq.mpr (h r hr (beq_iff_eq.mp hid))

theorem target?_part {target : TargetId}
    (h : forall r, r ∈ s.targets -> r.id = target -> r.trigger = id) :
    (s.part id).target? target = s.target? target :=
  find?_filter_of_imp fun r hr hid => beq_iff_eq.mpr (h r hr (beq_iff_eq.mp hid))

theorem insertTrigger_part {row : Trigger} (h : row.id = id) :
    (s.part id).insertTrigger row = (s.insertTrigger row).map (part id) := by
  subst h
  unfold insertTrigger
  rw [hasTrigger_part]
  split
  · rfl
  · simp only [Except.map, part]
    rw [filter_concat_of_pos]
    exact BEq.rfl

theorem filter_withHandles_self (handles : Handles) (rows : List Trigger) :
    (withHandles id handles rows).filter (·.id == id) =
      withHandles id handles (rows.filter (·.id == id)) := by
  rw [withHandles, List.filter_map]
  congr 1
  apply List.filter_congr
  intro t _
  simp only [Function.comp_apply]
  split
  · rfl
  · rfl

theorem setHandles_part (handles : Handles) :
    (s.part id).setHandles id handles = (s.setHandles id handles).map (part id) := by
  unfold setHandles
  rw [trigger?_part]
  cases s.trigger? id with
  | none => rfl
  | some t =>
      simp only
      split
      · rfl
      · simp only [Except.map, part, filter_withHandles_self]

theorem deleteTrigger_part :
    (s.part id).deleteTrigger id = (s.deleteTrigger id).map (part id) := by
  have hany : (s.part id).targets.any (·.trigger == id) = s.targets.any (·.trigger == id) :=
    any_filter_of_imp fun _ _ h => h
  unfold deleteTrigger
  rw [hany, hasTrigger_part]
  split
  · rfl
  · split
    · simp only [Except.map, part]
      rw [filter_swap]
    · rfl

theorem insertTarget_part {row : Target} (hrow : row.trigger = id)
    (h : forall r, r ∈ s.targets -> r.id = row.id -> r.trigger = id) :
    (s.part id).insertTarget row = (s.insertTarget row).map (part id) := by
  subst hrow
  unfold insertTarget
  rw [hasTrigger_part, hasTarget_part h]
  split
  · rfl
  · split
    · rfl
    · simp only [Except.map, part]
      rw [filter_concat_of_pos]
      exact BEq.rfl

theorem deleteTarget_part {target : TargetId}
    (h : forall r, r ∈ s.targets -> r.id = target -> r.trigger = id) :
    (s.part id).deleteTarget target = (s.deleteTarget target).map (part id) := by
  unfold deleteTarget
  rw [hasTarget_part h]
  split
  · simp only [Except.map, part]
    rw [filter_swap]
  · rfl

end Store

/-!
# The broker
-/

namespace Broker

def part (naming : ResourceNaming) (id : TriggerId) (b : Broker) : Broker where
  topics := b.topics.filter fun t => naming.triggerForTopic? t.name == some id
  subscriptions := b.subscriptions.filter fun s => naming.triggerForHandle? s.topic == some id
  deliveries := []

variable {naming : ResourceNaming} {id : TriggerId} {b : Broker} {topic : TopicHandle}

theorem hasTopic_part (hb : b.Integrity) (h : naming.triggerForHandle? topic = some id) :
    (b.part naming id).hasTopic topic = b.hasTopic topic := by
  apply any_filter_of_imp
  intro t ht hhandle
  rw [beq_iff_eq] at hhandle ⊢
  rw [← hb.owner_of_live ht, hhandle, h]

theorem createTopic_part {name : String} (hb : b.Integrity)
    (h : naming.triggerForTopic? name = some id) :
    (b.part naming id).createTopic name = (b.createTopic name).part naming id := by
  have howner : naming.triggerForHandle? (handleFor name) = some id := by
    rw [ResourceNaming.triggerForHandle?_handleFor, h]
  unfold createTopic
  rw [hasTopic_part hb howner]
  split
  · rfl
  · simp only [part]
    rw [filter_concat_of_pos]
    exact beq_iff_eq.mpr h

theorem deleteTopic_part (hb : b.Integrity) (h : naming.triggerForHandle? topic = some id) :
    (b.part naming id).deleteTopic topic = (b.deleteTopic topic).map (part naming id) := by
  unfold deleteTopic
  rw [hasTopic_part hb h]
  split
  · simp only [Except.map, part]
    rw [filter_swap _ fun t : Topic => t.handle != topic,
      filter_swap _ fun s : Subscription => s.topic != topic]
  · rfl

theorem subscribe_part (hb : b.Integrity) (h : naming.triggerForHandle? topic = some id)
    (protocol endpoint : String) (suffix : Uuid) :
    (b.part naming id).subscribe topic protocol endpoint suffix =
      (b.subscribe topic protocol endpoint suffix).map
        fun made => (made.1, made.2.part naming id) := by
  unfold subscribe
  rw [hasTopic_part hb h]
  split
  · rfl
  · split
    · rfl
    · simp only [Except.map, part]
      rw [filter_swap, filter_concat_of_pos]
      exact beq_iff_eq.mpr h

theorem unsubscribe_part {handle : SubscriptionHandle}
    (h : forall s, s ∈ b.subscriptions -> s.handle = handle ->
      naming.triggerForHandle? s.topic = some id) :
    (b.part naming id).unsubscribe handle = (b.unsubscribe handle).map (part naming id) := by
  have hany : (b.part naming id).hasSubscription handle = b.hasSubscription handle :=
    any_filter_of_imp fun s hs hhandle =>
      beq_iff_eq.mpr (h s hs (beq_iff_eq.mp hhandle))
  unfold unsubscribe
  rw [hany]
  split
  · simp only [Except.map, part]
    rw [filter_swap]
  · rfl

theorem topicsByName_part (topic : TopicHandle) (hb : b.Integrity)
    (h : forall t, t ∈ b.topics -> naming.triggerForTopic? t.name = some id ->
      t.handle = topic) :
    (b.part naming id).topicsByName =
      b.topicsByName.filter fun t => naming.triggerForTopic? t.name == some id := by
  rw [topicsByName, topicsByName, filter_mergeSort_of_nodup (k := topic) _ hb.topic_handles]
  · rfl
  · exact fun t ht howner => h t ht (beq_iff_eq.mp howner)

end Broker

/-!
# The rule engine
-/

namespace RuleEngine

def part (naming : ResourceNaming) (id : TriggerId) (e : RuleEngine) : RuleEngine where
  rules := e.rules.filter fun r => naming.triggerForRule? r.name == some id

variable {naming : ResourceNaming} {id : TriggerId} {e : RuleEngine} {rule : RuleHandle}

theorem hasRule_part
    (h : forall r, r ∈ e.rules -> r.handle = rule -> naming.triggerForRule? r.name = some id) :
    (e.part naming id).hasRule rule = e.hasRule rule :=
  any_filter_of_imp fun r hr hhandle => beq_iff_eq.mpr (h r hr (beq_iff_eq.mp hhandle))

theorem installRule_part {name : String} (he : e.Integrity)
    (h : naming.triggerForRule? name = some id) (predicate : Predicate) (topic : TopicHandle) :
    (e.part naming id).installRule name predicate topic =
      (e.installRule name predicate topic).map fun made => (made.1, made.2.part naming id) := by
  have howner : forall r, r ∈ e.rules -> r.handle = handleFor name ->
      naming.triggerForRule? r.name = some id := by
    intro r hr hhandle
    rw [handleFor_injective ((he.named r hr).symm.trans hhandle), h]
  unfold installRule
  simp only [hasRule_part howner]
  split
  · rfl
  · simp only [Except.map, part]
    rw [filter_concat_of_pos]
    exact beq_iff_eq.mpr h

theorem removeRule_part
    (h : forall r, r ∈ e.rules -> r.handle = rule -> naming.triggerForRule? r.name = some id) :
    (e.part naming id).removeRule rule = (e.removeRule rule).map (part naming id) := by
  unfold removeRule
  rw [hasRule_part h]
  split
  · simp only [Except.map, part]
    rw [filter_swap]
  · rfl

theorem rulesByName_part (rule : RuleHandle) (he : e.Integrity)
    (h : forall r, r ∈ e.rules -> naming.triggerForRule? r.name = some id -> r.handle = rule) :
    (e.part naming id).rulesByName =
      e.rulesByName.filter fun r => naming.triggerForRule? r.name == some id := by
  have hnodup : ((e.rules.map info).map (·.handle)).Nodup := by
    rw [List.map_map]
    exact he.handles
  rw [rulesByName, rulesByName, filter_mergeSort_of_nodup (k := rule) _ hnodup]
  · rw [List.filter_map]
    rfl
  · intro listed hlisted howner
    rcases List.mem_map.mp hlisted with ⟨r, hr, rfl⟩
    exact h r hr (beq_iff_eq.mp howner)

end RuleEngine

/-!
# The services together
-/

namespace World

def part (naming : ResourceNaming) (id : TriggerId) (ids : IdSource) (w : World) : World where
  store := w.store.part id
  broker := w.broker.part naming id
  engine := w.engine.part naming id
  faults := .empty
  locks := .empty
  ids := ids

structure Alike (naming : ResourceNaming) (id : TriggerId) (w v : World) : Prop where
  things : v.store.things = w.store.things
  estate : v.estate naming id = w.estate naming id

variable {naming : ResourceNaming} {id : TriggerId} {w v : World}

theorem part_eq_iff (ids : IdSource) :
    v.part naming id ids = w.part naming id ids ↔ w.Alike naming id v := by
  constructor
  · intro h
    constructor
    · exact congrArg (·.store.things) h
    · simp only [estate, share, Option.some_beq_some]
      have hshare := congrArg (fun u : World => Share.mk u.store.triggers u.store.targets
        u.broker.topics u.broker.subscriptions u.engine.rules) h
      exact hshare
  · intro h
    have hestate := h.estate
    simp only [estate, share, Option.some_beq_some, Share.mk.injEq] at hestate
    rcases hestate with ⟨htriggers, htargets, htopics, hsubscriptions, hrules⟩
    simp only [part, Store.part, Broker.part, RuleEngine.part, h.things, htriggers, htargets,
      htopics, hsubscriptions, hrules]

end World
end TelemetryTriggers
