import TelemetryTriggers.Proofs.Services.Change

/-!
# What belongs to which trigger

Rows carry the identifier of their trigger, topics and rules carry it in their
names, and a subscription belongs to the trigger whose topic it is for.  A call that
is about one trigger leaves everything else as it is, in the order that it has.

Main definitions: `World.share`, what belongs to some of the triggers, with
`World.outside` and `World.estate`; `Item`, one thing that belongs to a trigger;
`Call.About`, the calls that are about one trigger.  The main statement is
`Call.share_perform`.
-/

namespace TelemetryTriggers

/-!
# Filtered lists
-/

theorem filter_without {α β : Type} [BEq β] [LawfulBEq β] {p : α -> Bool} {key : α -> β} {k : β}
    {items : List α} (h : forall a, a ∈ items -> key a = k -> p a = false) :
    (items.filter fun a => key a != k).filter p = items.filter p := by
  rw [List.filter_filter]
  apply List.filter_congr
  intro a ha
  cases hkey : key a != k with
  | false => rw [h a ha (by simpa using hkey), Bool.false_and]
  | true => rw [Bool.and_true]

theorem filter_concat_of_not {α : Type} {p : α -> Bool} (items : List α) {a : α}
    (h : p a = false) : (items ++ [a]).filter p = items.filter p := by
  rw [List.filter_append, List.filter_cons_of_neg (by simp [h]), List.filter_nil,
    List.append_nil]

theorem filter_withHandles {p : TriggerId -> Bool} {id : TriggerId} (handles : Handles)
    (rows : List Trigger) (h : p id = false) :
    (Store.withHandles id handles rows).filter (fun t => p t.id) =
      rows.filter fun t => p t.id := by
  induction rows with
  | nil => rfl
  | cons t rows ih =>
      rw [Store.withHandles, List.map_cons]
      by_cases hid : t.id = id
      · rw [if_pos hid, List.filter_cons_of_neg (by simp [hid, h]),
          List.filter_cons_of_neg (by simp [hid, h])]
        exact ih
      · rw [if_neg hid, List.filter_cons, List.filter_cons]
        split
        · exact congrArg (t :: ·) ih
        · exact ih

/-!
# Shares
-/

structure Share where
  triggers : List Trigger
  targets : List Target
  topics : List Topic
  subscriptions : List Subscription
  rules : List Rule

namespace World

/-- What belongs to those triggers that pass a test, with what belongs to none if
that passes it. -/
def share (naming : ResourceNaming) (p : Option TriggerId -> Bool) (w : World) :
    Share where
  triggers := w.store.triggers.filter fun t => p (some t.id)
  targets := w.store.targets.filter fun r => p (some r.trigger)
  topics := w.broker.topics.filter fun t => p (naming.triggerForTopic? t.name)
  subscriptions :=
    w.broker.subscriptions.filter fun s => p (naming.triggerForHandle? s.topic)
  rules := w.engine.rules.filter fun r => p (naming.triggerForRule? r.name)

def outside (naming : ResourceNaming) (id : TriggerId) (w : World) : Share :=
  w.share naming (· != some id)

def estate (naming : ResourceNaming) (id : TriggerId) (w : World) : Share :=
  w.share naming (· == some id)

end World

/-!
# Single items
-/

inductive Item
  | trigger (row : Trigger)
  | target (row : Target)
  | topic (t : Topic)
  | subscription (s : Subscription)
  | rule (r : Rule)

def Item.owner? (naming : ResourceNaming) : Item -> Option TriggerId
  | .trigger row => some row.id
  | .target row => some row.trigger
  | .topic t => naming.triggerForTopic? t.name
  | .subscription s => naming.triggerForHandle? s.topic
  | .rule r => naming.triggerForRule? r.name

def World.Holds (w : World) : Item -> Prop
  | .trigger row => row ∈ w.store.triggers
  | .target row => row ∈ w.store.targets
  | .topic t => t ∈ w.broker.topics
  | .subscription s => s ∈ w.broker.subscriptions
  | .rule r => r ∈ w.engine.rules

theorem World.holds_of_share {naming : ResourceNaming} {p : Option TriggerId -> Bool}
    {w v : World} (h : v.share naming p = w.share naming p) {item : Item}
    (hitem : v.Holds item) (hp : p (item.owner? naming) = true) : w.Holds item := by
  cases item with
  | trigger row =>
      have hmem : row ∈ (v.share naming p).triggers := List.mem_filter.mpr ⟨hitem, hp⟩
      rw [h] at hmem
      exact List.mem_of_mem_filter hmem
  | target row =>
      have hmem : row ∈ (v.share naming p).targets := List.mem_filter.mpr ⟨hitem, hp⟩
      rw [h] at hmem
      exact List.mem_of_mem_filter hmem
  | topic t =>
      have hmem : t ∈ (v.share naming p).topics := List.mem_filter.mpr ⟨hitem, hp⟩
      rw [h] at hmem
      exact List.mem_of_mem_filter hmem
  | subscription s =>
      have hmem : s ∈ (v.share naming p).subscriptions := List.mem_filter.mpr ⟨hitem, hp⟩
      rw [h] at hmem
      exact List.mem_of_mem_filter hmem
  | rule r =>
      have hmem : r ∈ (v.share naming p).rules := List.mem_filter.mpr ⟨hitem, hp⟩
      rw [h] at hmem
      exact List.mem_of_mem_filter hmem

theorem World.share_of_forall {naming : ResourceNaming} {p : Option TriggerId -> Bool}
    {w : World} (h : forall item, w.Holds item -> p (item.owner? naming) = true) :
    w.share naming p = ⟨w.store.triggers, w.store.targets, w.broker.topics,
      w.broker.subscriptions, w.engine.rules⟩ := by
  have htriggers : (w.store.triggers.filter fun t => p (some t.id)) = w.store.triggers :=
    List.filter_eq_self.mpr fun t ht => h (.trigger t) ht
  have htargets : (w.store.targets.filter fun r => p (some r.trigger)) = w.store.targets :=
    List.filter_eq_self.mpr fun r hr => h (.target r) hr
  have htopics : (w.broker.topics.filter fun t => p (naming.triggerForTopic? t.name)) =
      w.broker.topics :=
    List.filter_eq_self.mpr fun t ht => h (.topic t) ht
  have hsubscriptions : (w.broker.subscriptions.filter
      fun s => p (naming.triggerForHandle? s.topic)) = w.broker.subscriptions :=
    List.filter_eq_self.mpr fun s hs => h (.subscription s) hs
  have hrules : (w.engine.rules.filter fun r => p (naming.triggerForRule? r.name)) =
      w.engine.rules :=
    List.filter_eq_self.mpr fun r hr => h (.rule r) hr
  rw [World.share, htriggers, htargets, htopics, hsubscriptions, hrules]

theorem World.share_of_outside {naming : ResourceNaming} {id : TriggerId}
    {p : Option TriggerId -> Bool} {w v : World} (hp : p (some id) = false)
    (h : v.outside naming id = w.outside naming id) : v.share naming p = w.share naming p := by
  have hshare : forall u : World, u.share naming p =
      ⟨(u.outside naming id).triggers.filter fun t => p (some t.id),
        (u.outside naming id).targets.filter fun r => p (some r.trigger),
        (u.outside naming id).topics.filter fun t => p (naming.triggerForTopic? t.name),
        (u.outside naming id).subscriptions.filter
          fun s => p (naming.triggerForHandle? s.topic),
        (u.outside naming id).rules.filter fun r => p (naming.triggerForRule? r.name)⟩ := by
    intro u
    have hid : forall owner, owner = some id -> p owner = false := by
      intro owner heq
      rcases heq with rfl
      exact hp
    simp only [outside, share]
    rw [filter_without fun t _ => hid (some t.id),
      filter_without fun r _ => hid (some r.trigger),
      filter_without fun t _ => hid (naming.triggerForTopic? t.name),
      filter_without fun s _ => hid (naming.triggerForHandle? s.topic),
      filter_without fun r _ => hid (naming.triggerForRule? r.name)]
  rw [hshare v, hshare w, h]

/-!
# Who a handle belongs to
-/

theorem Broker.Integrity.owner_of_live {b : Broker} (h : b.Integrity)
    {topic : Topic} (htopic : topic ∈ b.topics) (naming : ResourceNaming) :
    naming.triggerForHandle? topic.handle = naming.triggerForTopic? topic.name := by
  rw [h.named topic htopic, ResourceNaming.triggerForHandle?_handleFor]

theorem Broker.Integrity.topic_of_suffixed {b : Broker} (h : b.Integrity)
    {s : Subscription} (hs : s ∈ b.subscriptions) {topic : TopicHandle} {u : Uuid}
    (hhandle : s.handle = Broker.subscriptionHandle topic u) : s.topic = topic := by
  rcases h.suffixed s hs with ⟨v, hv⟩
  exact (Broker.subscriptionHandle_inj (hv.symm.trans hhandle)).1

/-!
# Calls about one trigger
-/

/-- Whatever the call changes belongs to the trigger. -/
def Call.About (naming : ResourceNaming) (id : TriggerId) (w : World) : Call -> Prop
  | .insertTrigger row => row.id = id
  | .setHandles other _ => other = id
  | .deleteTrigger other => other = id
  | .insertTarget row => row.trigger = id
  | .deleteTarget target => forall r, r ∈ w.store.targets -> r.id = target -> r.trigger = id
  | .createTopic name => naming.triggerForTopic? name = some id
  | .deleteTopic topic => naming.triggerForHandle? topic = some id
  | .subscribe topic _ _ => naming.triggerForHandle? topic = some id
  | .unsubscribe handle =>
      forall s, s ∈ w.broker.subscriptions -> s.handle = handle ->
        naming.triggerForHandle? s.topic = some id
  | .installRule name _ _ => naming.triggerForRule? name = some id
  | .removeRule handle =>
      forall r, r ∈ w.engine.rules -> r.handle = handle ->
        naming.triggerForRule? r.name = some id
  | _ => True

namespace Call

variable {naming : ResourceNaming} {id : TriggerId} {p : Option TriggerId -> Bool}
  {c : Call} {w : World}

theorem filter_triggers_perform (hp : p (some id) = false) (h : c.About naming id w) :
    (c.perform w).2.store.triggers.filter (fun t => p (some t.id)) =
      w.store.triggers.filter fun t => p (some t.id) := by
  rcases c.triggers_perform w with heq | ⟨row, rfl, heq⟩ | ⟨other, handles, rfl, heq⟩ |
    ⟨other, rfl, heq⟩
  · rw [heq]
  · have hid : row.id = id := h
    rw [heq, filter_concat_of_not]
    rw [hid, hp]
  · have hid : other = id := h
    rw [heq, filter_withHandles handles w.store.triggers (p := fun id => p (some id))]
    rw [hid, hp]
  · have hid : other = id := h
    rw [heq, filter_without]
    intro t _ ht
    rw [ht, hid, hp]

theorem filter_targets_perform (hp : p (some id) = false) (h : c.About naming id w) :
    (c.perform w).2.store.targets.filter (fun r => p (some r.trigger)) =
      w.store.targets.filter fun r => p (some r.trigger) := by
  rcases c.targets_perform w with heq | ⟨row, rfl, heq⟩ | ⟨target, rfl, heq⟩
  · rw [heq]
  · have hid : row.trigger = id := h
    rw [heq, filter_concat_of_not]
    rw [hid, hp]
  · rw [heq, filter_without]
    intro r hr hid
    rw [h r hr hid, hp]

theorem filter_topics_perform (hp : p (some id) = false) (hw : w.Integrity)
    (h : c.About naming id w) :
    (c.perform w).2.broker.topics.filter (fun t => p (naming.triggerForTopic? t.name)) =
      w.broker.topics.filter fun t => p (naming.triggerForTopic? t.name) := by
  rcases c.topics_perform w with heq | ⟨name, rfl, heq⟩ | ⟨topic, rfl, heq⟩
  · rw [heq]
  · have hid : naming.triggerForTopic? name = some id := h
    rw [heq, filter_concat_of_not]
    rw [hid, hp]
  · have hid : naming.triggerForHandle? topic = some id := h
    rw [heq, filter_without]
    intro t ht hhandle
    rw [← hw.broker.owner_of_live ht, hhandle, hid, hp]

theorem filter_subscriptions_perform (hp : p (some id) = false) (hw : w.Integrity)
    (h : c.About naming id w) :
    (c.perform w).2.broker.subscriptions.filter
        (fun s => p (naming.triggerForHandle? s.topic)) =
      w.broker.subscriptions.filter fun s => p (naming.triggerForHandle? s.topic) := by
  rcases c.subscriptions_perform w with heq | ⟨topic, rfl, heq⟩ |
    ⟨topic, protocol, endpoint, u, rfl, heq⟩ | ⟨handle, rfl, heq⟩
  · rw [heq]
  · have hid : naming.triggerForHandle? topic = some id := h
    rw [heq, filter_without]
    intro s _ htopic
    rw [htopic, hid, hp]
  · have hid : naming.triggerForHandle? topic = some id := h
    rw [heq, filter_concat_of_not, filter_without]
    · intro s hs hold
      rw [hw.broker.topic_of_suffixed hs hold, hid, hp]
    · rw [hid, hp]
  · rw [heq, filter_without]
    intro s hs hhandle
    rw [h s hs hhandle, hp]

theorem filter_rules_perform (hp : p (some id) = false) (h : c.About naming id w) :
    (c.perform w).2.engine.rules.filter (fun r => p (naming.triggerForRule? r.name)) =
      w.engine.rules.filter fun r => p (naming.triggerForRule? r.name) := by
  rcases c.rules_perform w with heq | ⟨name, predicate, topic, rfl, heq⟩ | ⟨handle, rfl, heq⟩
  · rw [heq]
  · have hid : naming.triggerForRule? name = some id := h
    rw [heq, filter_concat_of_not]
    rw [hid, hp]
  · rw [heq, filter_without]
    intro r hr hhandle
    rw [h r hr hhandle, hp]

theorem share_perform (hp : p (some id) = false) (hw : w.Integrity)
    (h : c.About naming id w) :
    (c.perform w).2.share naming p = w.share naming p := by
  rw [World.share, World.share, filter_triggers_perform hp h, filter_targets_perform hp h,
    filter_topics_perform hp hw h, filter_subscriptions_perform hp hw h,
    filter_rules_perform hp h]

end Call

/-!
# Worlds that differ in one trigger
-/

namespace World

structure SameOutside (naming : ResourceNaming) (id : TriggerId) (w v : World) :
    Prop where
  things : v.store.things = w.store.things
  deliveries : v.broker.deliveries = w.broker.deliveries
  outside : v.outside naming id = w.outside naming id

namespace SameOutside

variable {naming : ResourceNaming} {id : TriggerId} {w v : World}

theorem refl (naming : ResourceNaming) (id : TriggerId) (w : World) :
    w.SameOutside naming id w :=
  ⟨rfl, rfl, rfl⟩

theorem perform {c : Call} (h : w.SameOutside naming id v) (hv : v.Integrity)
    (hc : c.About naming id v) : w.SameOutside naming id (c.perform v).2 where
  things := (c.perform_records v).1.trans h.things
  deliveries := (c.perform_records v).2.trans h.deliveries
  outside := (Call.share_perform (by simp) hv hc).trans h.outside

theorem holds (h : w.SameOutside naming id v) {item : Item} (hitem : v.Holds item)
    (hother : item.owner? naming ≠ some id) : w.Holds item :=
  holds_of_share h.outside hitem (by simpa using hother)

theorem services_eq (h : w.SameOutside naming id v)
    (hw : forall item, w.Holds item -> item.owner? naming ≠ some id)
    (hv : forall item, v.Holds item -> item.owner? naming ≠ some id) :
    v.store = w.store ∧ v.broker = w.broker ∧ v.engine = w.engine := by
  have hall := h.outside
  unfold World.outside at hall
  rw [share_of_forall fun item hitem => by simpa using hv item hitem,
    share_of_forall fun item hitem => by simpa using hw item hitem] at hall
  injection hall with htriggers htargets htopics hsubscriptions hrules
  refine ⟨?_, ?_, ?_⟩
  · show Store.mk v.store.things v.store.triggers v.store.targets = _
    rw [h.things, htriggers, htargets]
  · show Broker.mk v.broker.topics v.broker.subscriptions v.broker.deliveries = _
    rw [htopics, hsubscriptions, h.deliveries]
  · show RuleEngine.mk v.engine.rules = _
    rw [hrules]

theorem symm (h : w.SameOutside naming id v) : v.SameOutside naming id w :=
  ⟨h.things.symm, h.deliveries.symm, h.outside.symm⟩

theorem trans {u : World} (h : w.SameOutside naming id v) (hu : v.SameOutside naming id u) :
    w.SameOutside naming id u :=
  ⟨hu.things.trans h.things, hu.deliveries.trans h.deliveries, hu.outside.trans h.outside⟩

theorem about {c : Call} (h : w.SameOutside naming id v) (hc : c.About naming id w) :
    c.About naming id v := by
  cases c with
  | deleteTarget target =>
      intro r hr htarget
      by_contra hid
      have hrow : v.Holds (.target r) := hr
      exact hid (hc r (h.holds hrow fun heq => hid (Option.some.inj heq)) htarget)
  | unsubscribe handle =>
      intro s hs hhandle
      by_contra hid
      have hsubscription : v.Holds (.subscription s) := hs
      exact hid (hc s (h.holds hsubscription hid) hhandle)
  | removeRule handle =>
      intro r hr hhandle
      by_contra hid
      have hrule : v.Holds (.rule r) := hr
      exact hid (hc r (h.holds hrule hid) hhandle)
  | _ => exact hc

end SameOutside

/-!
# Triggers that nothing belongs to
-/

/-- No row, topic or rule has the identifier. -/
structure Fresh (naming : ResourceNaming) (id : TriggerId) (w : World) : Prop where
  row : forall t, t ∈ w.store.triggers -> t.id ≠ id
  topic : forall t, t ∈ w.broker.topics -> naming.triggerForTopic? t.name ≠ some id
  rule : forall r, r ∈ w.engine.rules -> naming.triggerForRule? r.name ≠ some id

namespace Fresh

variable {naming : ResourceNaming} {id : TriggerId} {w : World}

theorem owner_ne (h : w.Fresh naming id) (hw : w.Integrity) {item : Item}
    (hitem : w.Holds item) : item.owner? naming ≠ some id := by
  cases item with
  | trigger row => exact fun hid => h.row row hitem (Option.some.inj hid)
  | target row =>
      intro hid
      rcases hw.store.owned row hitem with ⟨t, ht, htrigger⟩
      exact h.row t ht (htrigger.trans (Option.some.inj hid))
  | topic t => exact h.topic t hitem
  | subscription s =>
      intro hid
      rcases Broker.hasTopic_iff.mp (hw.broker.live s hitem) with ⟨t, ht, hhandle⟩
      apply h.topic t ht
      rw [← hw.broker.owner_of_live ht, hhandle]
      exact hid
  | rule r => exact h.rule r hitem

end Fresh
end World
end TelemetryTriggers
