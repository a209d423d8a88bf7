import TelemetryTriggers.Proofs.Orchestrator.Names
import TelemetryTriggers.Proofs.Orchestrator.SweepSafety
import TelemetryTriggers.Proofs.Services.Part

/-!
# Calls that keep to one trigger

Work under the lock of a trigger makes calls whose answers depend on what belongs to
that trigger only, apart from listings, of which it uses only what belongs to the
trigger.  Such a call does the same in all worlds that agree on the trigger.

Main definitions: `World.Assigned`, what then has to be true of the names of things;
`Call.Confined`; `Call.view`, the part of an answer that is used.  The main statements
are `Call.Confined.perform_part` and `Call.Confined.alike`.
-/

namespace TelemetryTriggers

/-!
# Identifiers to come
-/

namespace IdSource

def gaveUntil (source later : IdSource) : List Uuid :=
  (List.range' source.drawn (later.drawn - source.drawn)).map source.sequence

def Supplies (source : IdSource) (us : List Uuid) : Prop :=
  forall k u, us[k]? = some u -> source.sequence (source.drawn + k) = u

def skip (source : IdSource) (n : Nat) : IdSource :=
  { source with drawn := source.drawn + n }

variable {source later : IdSource} {us rest : List Uuid} {u : Uuid}

@[simp] theorem gaveUntil_self (source : IdSource) : source.gaveUntil source = [] := by
  simp [gaveUntil]

@[simp] theorem gaveUntil_next (source : IdSource) :
    source.gaveUntil source.next.2 = [source.next.1] := by
  simp [gaveUntil, next]

theorem skip_gaveUntil (h : source.Precedes later) :
    source.skip (source.gaveUntil later).length = later := by
  have hdrawn := h.drawn
  rw [skip, gaveUntil, List.length_map, List.length_range', Nat.add_sub_cancel' hdrawn,
    ← h.sequence]

theorem supplies_gaveUntil (source later : IdSource) :
    source.Supplies (source.gaveUntil later) := by
  intro k u hu
  rw [gaveUntil, List.getElem?_map] at hu
  rcases Option.map_eq_some_iff.mp hu with ⟨j, hj, rfl⟩
  rcases List.getElem?_eq_some_iff.mp hj with ⟨hk, rfl⟩
  rw [List.getElem_range', Nat.one_mul]

theorem Supplies.head (h : source.Supplies (u :: us)) : source.next.1 = u :=
  h 0 u rfl

theorem Supplies.skip (h : source.Supplies (us ++ rest)) :
    (source.skip us.length).Supplies rest := by
  intro k u hu
  have hlater : (us ++ rest)[us.length + k]? = some u := by
    rw [List.getElem?_append_right (Nat.le_add_right _ _), Nat.add_sub_cancel_left]
    exact hu
  rw [← h _ u hlater, ← Nat.add_assoc]
  rfl

theorem Supplies.front (h : source.Supplies (us ++ rest)) : source.Supplies us := by
  intro k u hu
  apply h k u
  rw [List.getElem?_append_left (List.getElem?_eq_some_iff.mp hu).1]
  exact hu

theorem Supplies.next (h : source.Supplies (u :: us)) : source.next.2.Supplies us := by
  have happend : source.Supplies ([u] ++ us) := h
  exact happend.skip

end IdSource

def Call.Draws : Call -> Prop
  | subscribe _ _ _ => True
  | _ => False

theorem Call.ids_perform {c : Call} (h : ¬ c.Draws) (w : World) :
    (c.perform w).2.ids = w.ids := by
  rcases hperform : c.perform w with ⟨reply, v⟩
  cases performed hperform with
  | subscribe => exact absurd trivial h
  | _ => rfl

/-!
# Everything has its trigger
-/

theorem History.Issued.mono {H K : History} (h : forall request drawn, H request drawn ->
    K request drawn) {id : TriggerId} {u : Uuid} (hu : H.Issued id u) : K.Issued id u := by
  rcases hu with ⟨request, drawn, hdrawn, hnames, hmem⟩
  exact ⟨request, drawn, h request drawn hdrawn, hnames, hmem⟩

namespace World

structure Assigned (naming : ResourceNaming) (H : History) (w : World) : Prop where
  integrity : w.Integrity
  named : w.Named naming
  handles : forall t, t ∈ w.store.triggers -> forall handles, t.handles = some handles ->
    handles = naming.handles t.id
  targets : forall r, r ∈ w.store.targets -> r.BelongsTo naming H r.trigger

theorem Sound.assigned {config : Config} {H K : History} {w : World} (h : w.Sound config H)
    (hnamed : w.Named config.naming)
    (hK : forall request drawn, H request drawn -> K request drawn) :
    w.Assigned config.naming K :=
  ⟨h.integrity, hnamed, h.handles,
    fun r hr => ⟨(h.targets r hr).issued.mono hK, (h.targets r hr).suffixed⟩⟩

namespace Assigned

variable {naming : ResourceNaming} {H : History} {id : TriggerId} {w v : World}

theorem around (h : w.Assigned naming H) (faults : FaultPlan) (locks : LockTable)
    (ids : IdSource) : Assigned naming H { w with faults, locks, ids } :=
  ⟨⟨h.integrity.store, h.integrity.broker, h.integrity.engine⟩,
    ⟨h.named.topics, h.named.rules⟩, h.handles, h.targets⟩

theorem trigger_of_issued (h : w.Assigned naming H) (hH : H.Distinct) {r : Target}
    (hr : r ∈ w.store.targets) (hissued : H.Issued id r.id.uuid) : r.trigger = id :=
  hH _ _ _ (h.targets r hr).issued hissued

theorem owner_of_subscription (h : w.Assigned naming H) {s : Subscription}
    (hs : s ∈ w.broker.subscriptions) {u : Uuid}
    (hhandle : s.handle = Broker.subscriptionHandle (naming.topicHandle id) u) :
    naming.triggerForHandle? s.topic = some id := by
  rw [h.integrity.broker.topic_of_suffixed hs hhandle,
    ResourceNaming.triggerForHandle?_topicHandle]

theorem owner_of_rule (h : w.Assigned naming H) {r : Rule} (hr : r ∈ w.engine.rules)
    (hhandle : r.handle = naming.ruleHandle id) : naming.triggerForRule? r.name = some id := by
  have hname : RuleEngine.handleFor r.name = RuleEngine.handleFor (naming.ruleName id) :=
    (h.integrity.engine.named r hr).symm.trans hhandle
  rw [RuleEngine.handleFor_injective hname, ResourceNaming.triggerForRule?_ruleName]

end Assigned
end World

/-!
# Confined calls
-/

namespace Call

/-- What the call asks about and what it changes belongs to the trigger.  A target that
it inserts is one of those that the caller has drawn for it. -/
def Confined (naming : ResourceNaming) (H : History) (id : TriggerId) (own : List Uuid) :
    Call -> Prop
  | thingNamed _ => True
  | insertTrigger row => row.id = id ∧ row.handles = none
  | setHandles other handles => other = id ∧ handles = naming.handles id
  | deleteTrigger other => other = id
  | getTrigger other => other = id
  | listTriggers _ => False
  | listAllTriggers => False
  | insertTarget row => row.trigger = id ∧ row.BelongsTo naming H id ∧ row.id.uuid ∈ own
  | deleteTarget target => H.Issued id target.uuid
  | getTarget target => H.Issued id target.uuid
  | listTargets other => other = id
  | createTopic name => name = naming.topicName id
  | deleteTopic topic => topic = naming.topicHandle id
  | subscribe topic _ _ => topic = naming.topicHandle id
  | unsubscribe handle => exists u,
      handle = Broker.subscriptionHandle (naming.topicHandle id) u
  | listTopics => True
  | installRule name _ _ => name = naming.ruleName id
  | removeRule rule => rule = naming.ruleHandle id
  | listRules => True

def view (naming : ResourceNaming) (id : TriggerId) : (c : Call) -> c.Reply -> c.Reply
  | listTopics, topics =>
      List.filter (fun t : Topic => naming.triggerForTopic? t.name == some id) topics
  | listRules, rules =>
      List.filter (fun r : RuleInfo => naming.triggerForRule? r.name == some id) rules
  | _, reply => reply

def spend (own : List Uuid) : Call -> List Uuid
  | insertTarget row => own.filter (· != row.id.uuid)
  | _ => own

variable {naming : ResourceNaming} {H : History} {id : TriggerId} {own own' : List Uuid}
  {c : Call} {w v : World}

theorem Confined.mono (h : c.Confined naming H id own) (hown : own ⊆ own') :
    c.Confined naming H id own' := by
  cases c with
  | insertTarget row => exact ⟨h.1, h.2.1, hown h.2.2⟩
  | _ => exact h

theorem spend_subset (c : Call) (own : List Uuid) : c.spend own ⊆ own := by
  cases c with
  | insertTarget row => exact fun u hu => List.mem_of_mem_filter hu
  | _ => exact List.Subset.refl own

theorem spend_mono (c : Call) (hown : own ⊆ own') : c.spend own ⊆ c.spend own' := by
  cases c with
  | insertTarget row =>
      intro u hu
      rcases List.mem_filter.mp hu with ⟨hmem, hother⟩
      exact List.mem_filter.mpr ⟨hown hmem, hother⟩
  | _ => exact hown

namespace Confined

theorem about (h : c.Confined naming H id own) (hw : w.Assigned naming H) (hH : H.Distinct) :
    c.About naming id w := by
  cases c with
  | insertTrigger row => exact h.1
  | setHandles other handles => exact h.1
  | deleteTrigger other => exact h
  | insertTarget row => exact h.1
  | deleteTarget target =>
      intro r hr heq
      rcases heq with rfl
      exact hw.trigger_of_issued hH hr h
  | createTopic name =>
      cases h
      exact naming.triggerForTopic?_topicName id
  | deleteTopic topic =>
      cases h
      exact naming.triggerForHandle?_topicHandle id
  | subscribe topic protocol endpoint =>
      cases h
      exact naming.triggerForHandle?_topicHandle id
  | unsubscribe handle =>
      rcases h with ⟨u, rfl⟩
      exact fun s hs hhandle => hw.owner_of_subscription hs hhandle
  | installRule name predicate topic =>
      cases h
      exact naming.triggerForRule?_ruleName id
  | removeRule rule =>
      cases h
      exact fun r hr hhandle => hw.owner_of_rule hr hhandle
  | _ => trivial

theorem wellNamed (h : c.Confined naming H id own) : c.WellNamed naming := by
  cases c with
  | createTopic name => exact ⟨id, h⟩
  | installRule name predicate topic => exact ⟨id, h⟩
  | _ => trivial

end Confined
end Call

theorem World.Assigned.perform {naming : ResourceNaming} {H : History} {id : TriggerId}
    {own : List Uuid} {c : Call} {w : World} (h : w.Assigned naming H)
    (hc : c.Confined naming H id own) : (c.perform w).2.Assigned naming H := by
  refine ⟨c.integrity_perform h.integrity, h.named.perform hc.wellNamed, ?_, ?_⟩
  · intro t ht handles hhandles
    rcases c.triggers_perform w with heq | ⟨row, rfl, heq⟩ | ⟨other, written, rfl, heq⟩ |
      ⟨other, rfl, heq⟩
    · rw [heq] at ht
      exact h.handles t ht handles hhandles
    · rw [heq] at ht
      rcases List.mem_append.mp ht with hold | hnew
      · exact h.handles t hold handles hhandles
      · rw [List.mem_singleton.mp hnew, hc.2] at hhandles
        cases hhandles
    · rw [heq] at ht
      rcases List.mem_map.mp ht with ⟨old, hold, hwritten⟩
      split at hwritten
      · rename_i hid
        rw [← hwritten] at hhandles ⊢
        cases hhandles
        show handles = naming.handles old.id
        rw [hid, hc.1, hc.2]
      · rw [← hwritten] at hhandles ⊢
        exact h.handles old hold handles hhandles
    · rw [heq] at ht
      exact h.handles t (List.mem_of_mem_filter ht) handles hhandles
  · intro r hr
    rcases c.targets_perform w with heq | ⟨row, rfl, heq⟩ | ⟨target, rfl, heq⟩
    · rw [heq] at hr
      exact h.targets r hr
    · rw [heq] at hr
      rcases List.mem_append.mp hr with hold | hnew
      · exact h.targets r hold
      · rw [List.mem_singleton.mp hnew, hc.1]
        exact hc.2.1
    · rw [heq] at hr
      exact h.targets r (List.mem_of_mem_filter hr)

/-!
# The same call on less
-/

namespace Call

variable {naming : ResourceNaming} {H : History} {id : TriggerId} {own : List Uuid}
  {c : Call} {w v : World}

theorem onStore_part (ids : IdSource) (r : Except ServiceError Store) :
    onStore (w.part naming id ids) (r.map (Store.part id)) =
      ((onStore w r).1, (onStore w r).2.part naming id ids) := by
  cases r with
  | error e => rfl
  | ok s => rfl

theorem onBroker_part (ids : IdSource) (r : Except ServiceError Broker) :
    onBroker (w.part naming id ids) (r.map (Broker.part naming id)) =
      ((onBroker w r).1, (onBroker w r).2.part naming id ids) := by
  cases r with
  | error e => rfl
  | ok b => rfl

theorem onEngine_part (ids : IdSource) (r : Except ServiceError RuleEngine) :
    onEngine (w.part naming id ids) (r.map (RuleEngine.part naming id)) =
      ((onEngine w r).1, (onEngine w r).2.part naming id ids) := by
  cases r with
  | error e => rfl
  | ok e => rfl

theorem map_view {α : Type} (r : Except ServiceError α) : r.map (fun a => a) = r := by
  cases r with
  | error e => rfl
  | ok a => rfl

namespace Confined

theorem perform_part_of_not_draws (hc : c.Confined naming H id own) (hdraws : ¬ c.Draws)
    (hw : w.Assigned naming H) (hH : H.Distinct) (ids : IdSource) :
    c.perform (w.part naming id ids) =
      ((c.perform w).1.map (c.view naming id), (c.perform w).2.part naming id ids) := by
  have hrow : forall {target : TargetId}, H.Issued id target.uuid ->
      forall r, r ∈ w.store.targets -> r.id = target -> r.trigger = id := by
    intro target hissued r hr heq
    rcases heq with rfl
    exact hw.trigger_of_issued hH hr hissued
  have htopic := naming.triggerForHandle?_topicHandle id
  cases c with
  | subscribe topic protocol endpoint => exact absurd trivial hdraws
  | listTriggers user => exact hc.elim
  | listAllTriggers => exact hc.elim
  | thingNamed name => rfl
  | insertTrigger row =>
      show onStore _ ((w.store.part id).insertTrigger row) = _
      rw [Store.insertTrigger_part hc.1, onStore_part, ← map_view (onStore w _).1]
      rfl
  | setHandles other handles =>
      cases hc.1
      show onStore _ ((w.store.part id).setHandles id handles) = _
      rw [Store.setHandles_part, onStore_part, ← map_view (onStore w _).1]
      rfl
  | deleteTrigger other =>
      cases hc
      show onStore _ ((w.store.part id).deleteTrigger id) = _
      rw [Store.deleteTrigger_part, onStore_part, ← map_view (onStore w _).1]
      rfl
  | insertTarget row =>
      show onStore _ ((w.store.part id).insertTarget row) = _
      rw [Store.insertTarget_part hc.1 (hrow hc.2.1.issued), onStore_part,
        ← map_view (onStore w _).1]
      rfl
  | deleteTarget target =>
      show onStore _ ((w.store.part id).deleteTarget target) = _
      rw [Store.deleteTarget_part (hrow hc), onStore_part, ← map_view (onStore w _).1]
      rfl
  | getTrigger other =>
      cases hc
      show (Except.ok ((w.store.part id).trigger? id), _) = _
      rw [Store.trigger?_part]
      rfl
  | getTarget target =>
      show (Except.ok ((w.store.part id).target? target), _) = _
      rw [Store.target?_part (hrow hc)]
      rfl
  | listTargets other =>
      cases hc
      show (Except.ok ((w.store.part id).targetsOf id), _) = _
      rw [Store.targetsOf_part]
      rfl
  | createTopic name =>
      cases hc
      show (Except.ok _, { w.part naming id ids with
        broker := (w.broker.part naming id).createTopic (naming.topicName id) }) = _
      rw [Broker.createTopic_part hw.integrity.broker (naming.triggerForTopic?_topicName id)]
      rfl
  | deleteTopic topic =>
      cases hc
      show onBroker _ ((w.broker.part naming id).deleteTopic (naming.topicHandle id)) = _
      rw [Broker.deleteTopic_part hw.integrity.broker htopic, onBroker_part,
        ← map_view (onBroker w _).1]
      rfl
  | unsubscribe handle =>
      rcases hc with ⟨u, rfl⟩
      show onBroker _ ((w.broker.part naming id).unsubscribe _) = _
      rw [Broker.unsubscribe_part fun s hs hhandle => hw.owner_of_subscription hs hhandle,
        onBroker_part, ← map_view (onBroker w _).1]
      rfl
  | listTopics =>
      show (Except.ok (w.broker.part naming id).topicsByName, _) = _
      rw [Broker.topicsByName_part (naming.topicHandle id) hw.integrity.broker
        fun t ht howner => hw.named.topic_handle hw.integrity ht howner]
      rfl
  | installRule name predicate topic =>
      cases hc
      have hpart : (w.part naming id ids).engine.installRule (naming.ruleName id) predicate topic =
          (w.engine.installRule (naming.ruleName id) predicate topic).map
            fun made => (made.1, made.2.part naming id) :=
        RuleEngine.installRule_part hw.integrity.engine (naming.triggerForRule?_ruleName id) _ _
      simp only [perform, hpart]
      cases w.engine.installRule (naming.ruleName id) predicate topic with
      | error e => rfl
      | ok made => rfl
  | removeRule rule =>
      cases hc
      show onEngine _ ((w.engine.part naming id).removeRule (naming.ruleHandle id)) = _
      rw [RuleEngine.removeRule_part fun r hr hhandle => hw.owner_of_rule hr hhandle,
        onEngine_part, ← map_view (onEngine w _).1]
      rfl
  | listRules =>
      show (Except.ok (w.engine.part naming id).rulesByName, _) = _
      rw [RuleEngine.rulesByName_part (naming.ruleHandle id) hw.integrity.engine
        fun r hr howner => hw.named.rule_handle hw.integrity hr howner]
      rfl

theorem subscribe_part {topic : TopicHandle} {protocol endpoint : String}
    (hc : (subscribe topic protocol endpoint).Confined naming H id own)
    (hw : w.Assigned naming H) {ids : IdSource} {rest : List Uuid}
    (hids : ids.Supplies
      (w.ids.gaveUntil ((subscribe topic protocol endpoint).perform w).2.ids ++ rest)) :
    (subscribe topic protocol endpoint).perform (w.part naming id ids) =
      (((subscribe topic protocol endpoint).perform w).1,
        ((subscribe topic protocol endpoint).perform w).2.part naming id
          (ids.skip
            (w.ids.gaveUntil ((subscribe topic protocol endpoint).perform w).2.ids).length)) := by
  cases hc
  have hpart : (w.part naming id ids).broker.subscribe (naming.topicHandle id) protocol
      endpoint (w.part naming id ids).ids.next.1 =
        (w.broker.subscribe (naming.topicHandle id) protocol endpoint ids.next.1).map
          fun made => (made.1, made.2.part naming id) :=
    Broker.subscribe_part hw.integrity.broker (naming.triggerForHandle?_topicHandle id) _ _ _
  simp only [perform, hpart] at hids ⊢
  cases hmade : w.broker.subscribe (naming.topicHandle id) protocol endpoint w.ids.next.1 with
  | ok made =>
      rw [hmade] at hids
      have hnext : ids.next.1 = w.ids.next.1 := by
        have hfront := hids.front
        rw [IdSource.gaveUntil_next] at hfront
        exact hfront.head
      rw [hnext, hmade]
      simp only [IdSource.gaveUntil_next]
      rfl
  | error e =>
      have hrefused : w.broker.subscribe (naming.topicHandle id) protocol endpoint ids.next.1 =
          .error e := by
        unfold Broker.subscribe at hmade ⊢
        split at hmade
        · rename_i hprotocol
          rw [if_pos hprotocol]
          exact hmade
        · rename_i hprotocol
          rw [if_neg hprotocol]
          split at hmade
          · rename_i hlive
            rw [if_pos hlive]
            exact hmade
          · cases hmade
      rw [hrefused]
      simp only [IdSource.gaveUntil_self]
      rfl

/-- A confined call does the same if there is nothing but its trigger. -/
theorem perform_part (hc : c.Confined naming H id own) (hw : w.Assigned naming H)
    (hH : H.Distinct) {ids : IdSource} {rest : List Uuid}
    (hids : ids.Supplies (w.ids.gaveUntil (c.perform w).2.ids ++ rest)) :
    c.perform (w.part naming id ids) =
      ((c.perform w).1.map (c.view naming id),
        (c.perform w).2.part naming id
          (ids.skip (w.ids.gaveUntil (c.perform w).2.ids).length)) := by
  by_cases hdraws : c.Draws
  · cases c with
    | subscribe topic protocol endpoint =>
        rw [subscribe_part hc hw hids]
        congr 1
        exact (map_view _).symm
    | _ => exact hdraws.elim
  · rw [perform_part_of_not_draws hc hdraws hw hH, ids_perform hdraws, IdSource.gaveUntil_self]
    rfl

theorem alike (hc : c.Confined naming H id own) (hH : H.Distinct) (hw : w.Assigned naming H)
    (hv : v.Assigned naming H) (h : w.Alike naming id v) {rest : List Uuid}
    (hids : v.ids.Supplies (w.ids.gaveUntil (c.perform w).2.ids ++ rest)) :
    (c.perform v).1.map (c.view naming id) = (c.perform w).1.map (c.view naming id) ∧
      (c.perform w).2.Alike naming id (c.perform v).2 ∧ (c.perform v).2.ids.Supplies rest := by
  have hown : v.ids.Supplies (v.ids.gaveUntil (c.perform v).2.ids ++ []) := by
    rw [List.append_nil]
    exact IdSource.supplies_gaveUntil _ _
  have hsame := hc.perform_part hv hH hown
  rw [(World.part_eq_iff v.ids).mpr h, hc.perform_part hw hH hids, Prod.mk.injEq,
    IdSource.skip_gaveUntil (c.ids_precedes v)] at hsame
  rcases hsame with ⟨hreply, hpart⟩
  have hlater : v.ids.skip (w.ids.gaveUntil (c.perform w).2.ids).length = (c.perform v).2.ids :=
    congrArg World.ids hpart
  refine ⟨hreply.symm, ?_, ?_⟩
  · rw [hlater] at hpart
    exact (World.part_eq_iff _).mp hpart.symm
  · rw [← hlater]
    exact hids.skip

end Confined
end Call
end TelemetryTriggers
