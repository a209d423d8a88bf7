import TelemetryTriggers.Proofs.Registry.Image

/-!
# Removals from a registry

The deletion of a trigger and the removal of a target filter one entry or one target
out of everything that the services hold, which shows the registry without it.

The main statements are `Registry.Mirrors.follows_delete` and
`Registry.Mirrors.follows_removeTarget`.
-/

namespace TelemetryTriggers

/-!
# Deletions
-/

namespace World

def withoutResources (naming : ResourceNaming) (id : TriggerId) (w : World) : World :=
  { w with
    broker := { w.broker with
      topics := w.broker.topics.filter (·.handle != naming.topicHandle id)
      subscriptions := w.broker.subscriptions.filter (·.topic != naming.topicHandle id) }
    engine := ⟨w.engine.rules.filter (·.handle != naming.ruleHandle id)⟩ }

def withoutRow (id : TriggerId) (w : World) : World :=
  { w with store := { w.store with
      triggers := w.store.triggers.filter (·.id != id)
      targets := w.store.targets.filter (·.trigger != id) } }

end World

namespace Lifecycle

theorem play_removeAll_cons {c : Call} {w v : World} (h : c.Clears w v) (cs : List Call) :
    (removeAll (c :: cs)).run.play w = (removeAll cs).run.play v :=
  Operation.play_bind_of_ok (Operation.play_ensureGone h)

theorem play_deleteRows (id : TriggerId) (rows : List Target) {w : World}
    (h : forall q, q ∈ w.store.targets -> q.trigger = id -> q ∈ rows) :
    (deleteRows id rows).run.play w =
      (.ok (), { w with store := { w.store with
        triggers := w.store.triggers.filter (·.id != id)
        targets := w.store.targets.filter fun q => !rows.any (·.id == q.id) } }) := by
  rw [deleteRows]
  induction rows generalizing w with
  | nil =>
      rw [List.map_nil, List.nil_append,
        play_removeAll_cons (Call.clears_deleteTrigger fun q hq hid =>
          List.not_mem_nil (h q hq hid))]
      simp only [List.any_nil, Bool.not_false, List.filter_true]
      rfl
  | cons row rows ih =>
      rw [List.map_cons, List.cons_append,
        play_removeAll_cons (Call.clears_deleteTarget row.id w), ih]
      · simp only [List.filter_filter, List.any_cons, Bool.not_or, bne, Bool.and_comm,
          Bool.beq_comm]
      · intro q hq hid
        rcases List.mem_filter.mp hq with ⟨hq, hne⟩
        rcases List.mem_cons.mp (h q hq hid) with rfl | hrest
        · simp at hne
        · exact hrest

theorem play_deleteOwnRows {w : World} (hw : w.store.Integrity) (id : TriggerId) :
    (deleteRows id (w.store.targetsOf id)).run.play w = (.ok (), w.withoutRow id) := by
  rw [play_deleteRows id _ fun q hq hid => Store.mem_targetsOf.mpr ⟨hq, hid⟩,
    hw.filter_targetsOf]
  rfl

theorem play_removeResources (naming : ResourceNaming) (id : TriggerId) {w : World}
    (hw : w.broker.Integrity) :
    (removeResources (naming.handles id)).run.play w =
      (.ok (), w.withoutResources naming id) := by
  rw [removeResources, play_removeAll_cons (Call.clears_removeRule _ w)]
  have hclears : (Call.deleteTopic (naming.topicHandle id)).Clears
      { w with engine := ⟨w.engine.rules.filter (·.handle != naming.ruleHandle id)⟩ }
      (w.withoutResources naming id) :=
    Call.clears_deleteTopic (w := { w with
      engine := ⟨w.engine.rules.filter (·.handle != naming.ruleHandle id)⟩ }) hw _
  exact play_removeAll_cons hclears []

end Lifecycle

/-!
# A registry without one entry
-/

variable {naming : ResourceNaming} {things : List Thing} {r : Registry} {w : World}

theorem filter_map_of_eq {α β : Type} {image : α -> β} {items : List α} {p : β -> Bool}
    {q : α -> Bool} (h : forall a, a ∈ items -> p (image a) = q a) :
    (items.map image).filter p = (items.filter q).map image := by
  rw [List.filter_map]
  exact congrArg _ (List.filter_congr h)

theorem topicHandle_bne (naming : ResourceNaming) (id other : TriggerId) :
    (naming.topicHandle id != naming.topicHandle other) = (id != other) := by
  rw [Bool.eq_iff_iff, bne_iff_ne, bne_iff_ne]
  exact not_congr ⟨ResourceNaming.topicHandle_injective, congrArg _⟩

theorem ruleHandle_bne (naming : ResourceNaming) (id other : TriggerId) :
    (naming.ruleHandle id != naming.ruleHandle other) = (id != other) := by
  rw [Bool.eq_iff_iff, bne_iff_ne, bne_iff_ne]
  exact not_congr ⟨ResourceNaming.ruleHandle_injective, congrArg _⟩

theorem Registry.Shows.withoutTrigger (h : r.Shows naming things w) (id : TriggerId) :
    Registry.Shows naming things { r with entries := r.entries.filter (·.id != id) }
      ((w.withoutResources naming id).withoutRow id) := by
  constructor
  case things => exact h.things
  case triggers =>
    show w.store.triggers.filter (·.id != id) = _
    rw [h.triggers]
    exact filter_map_of_eq fun _ _ => rfl
  case targets =>
    intro e he
    rcases List.mem_filter.mp he with ⟨he, hne⟩
    rw [← h.targets e he]
    show (w.store.targets.filter (·.trigger != id)).filter (·.trigger == e.id) = _
    rw [List.filter_filter]
    apply List.filter_congr
    intro q _
    cases hq : q.trigger == e.id with
    | false => rfl
    | true =>
        rw [eq_of_beq hq]
        exact hne
  case owned =>
    intro q hq
    rcases List.mem_filter.mp hq with ⟨hq, hne⟩
    rcases h.owned q hq with ⟨e, he, hrow⟩
    refine ⟨e, List.mem_filter.mpr ⟨he, ?_⟩, hrow⟩
    rcases Entry.mem_rows.mp hrow with ⟨l, _, rfl⟩
    exact hne
  case topics =>
    show w.broker.topics.filter (·.handle != naming.topicHandle id) = _
    rw [h.topics]
    exact filter_map_of_eq fun e _ => topicHandle_bne naming e.id id
  case subscriptions =>
    show w.broker.subscriptions.filter (·.topic != naming.topicHandle id) = _
    rw [h.subscriptions]
    exact filter_map_of_eq fun q _ => topicHandle_bne naming q.trigger id
  case rules =>
    show w.engine.rules.filter (·.handle != naming.ruleHandle id) = _
    rw [h.rules]
    exact filter_map_of_eq fun e _ => ruleHandle_bne naming e.id id
  case deliveries => exact h.deliveries
  case ids => exact h.ids

namespace Registry.Mirrors

theorem play_deleteOwned (h : r.Mirrors naming things w) (user : UserId) (id : TriggerId) :
    (Lifecycle.deleteOwned naming user id).run.play w =
      match r.entry? user id with
      | none => (.error (Lifecycle.noTrigger id), w)
      | some _ => (.ok (), (w.withoutResources naming id).withoutRow id) := by
  rw [Lifecycle.deleteOwned, Operation.play_bind_of_ok (Operation.play_ask_of_ok rfl),
    h.trigger?_filter id fun _ => rfl]
  cases hentry : r.entry? user id with
  | none => rfl
  | some e =>
      rcases entry?_eq_some hentry with ⟨_, rfl, _⟩
      rw [Option.map_some, Operation.play_bind_of_ok (a := e.row naming) (w := w) (v := w) rfl,
        Operation.play_bind_of_ok (Operation.play_ask_of_ok rfl)]
      have hresources := Lifecycle.play_removeResources naming e.id h.integrity.broker
      refine (Operation.play_bind_of_ok hresources).trans ?_
      exact Lifecycle.play_deleteOwnRows (w := w.withoutResources naming e.id)
        h.integrity.store e.id

theorem follows_delete (config : Config) (h : r.Mirrors config.naming things w)
    (hlocks : w.locks = .empty) (user : UserId) (id : TriggerId) :
    Registry.Follows config.naming things (Lifecycle.delete config user id) w
      (Registry.delete user id r) := by
  have hplay := (h.around w.faults ⟨id :: w.locks.held⟩).play_deleteOwned user id
  rw [Registry.delete]
  cases hentry : r.entry? user id with
  | none =>
      rw [hentry] at hplay
      exact follows_of_locked h.integrity hlocks hplay h.shows h.drawn
  | some e =>
      rw [hentry] at hplay
      refine follows_of_locked h.integrity hlocks hplay (h.shows.withoutTrigger id) ?_
      exact fun e he => h.drawn e (List.mem_of_mem_filter he)

end Registry.Mirrors

/-!
# Removals of targets
-/

def World.withoutTarget (id : TargetId) (subscription : SubscriptionHandle) (w : World) :
    World :=
  { w with
    store := { w.store with targets := w.store.targets.filter (·.id != id) }
    broker := { w.broker with
      subscriptions := w.broker.subscriptions.filter (·.handle != subscription) } }

namespace Registry.Mirrors

theorem subscription_injective (h : r.Mirrors naming things w) {p q : Target}
    (hp : p ∈ w.store.targets) (hq : q ∈ w.store.targets)
    (heq : p.subscription = q.subscription) : p = q := by
  have hhandles := h.integrity.broker.subscription_handles
  rw [h.shows.subscriptions, List.map_map] at hhandles
  exact List.inj_on_of_nodup_map hhandles hp hq heq

theorem shows_withoutTarget (h : r.Mirrors naming things w) {q : Target}
    (hq : q ∈ w.store.targets) :
    Registry.Shows naming things { r with entries := withoutTarget q.id r.entries }
      (w.withoutTarget q.id q.subscription) := by
  have hrows : forall e : Entry,
      (e.rows naming).filter (·.id != q.id) =
        Entry.rows naming { e with targets := e.targets.filter (·.id != q.id) } :=
    fun e => filter_map_of_eq fun _ _ => rfl
  have himage : forall {α : Type} {image : Entry -> α},
      (forall e listed, image { e with targets := listed } = image e) ->
        (withoutTarget q.id r.entries).map image = r.entries.map image := by
    intro α image himage
    rw [withoutTarget, List.map_map]
    exact List.map_congr_left fun e _ => himage e _
  constructor
  case things => exact h.shows.things
  case triggers => exact h.shows.triggers.trans (himage fun _ _ => rfl).symm
  case targets =>
    intro e he
    rcases List.mem_map.mp he with ⟨old, hold, rfl⟩
    rw [← hrows, ← h.shows.targets old hold]
    show (w.store.targets.filter (·.id != q.id)).filter (·.trigger == old.id) = _
    rw [Store.targetsOf, List.filter_filter, List.filter_filter]
    exact List.filter_congr fun _ _ => Bool.and_comm _ _
  case owned =>
    intro p hp
    rcases List.mem_filter.mp hp with ⟨hp, hne⟩
    rcases h.shows.owned p hp with ⟨e, he, hrow⟩
    refine ⟨_, List.mem_map_of_mem he, ?_⟩
    rw [← hrows]
    exact List.mem_filter.mpr ⟨hrow, hne⟩
  case topics => exact h.shows.topics.trans (himage fun _ _ => rfl).symm
  case subscriptions =>
    show w.broker.subscriptions.filter (·.handle != q.subscription) = _
    rw [h.shows.subscriptions]
    apply filter_map_of_eq
    intro p hp
    rw [Bool.eq_iff_iff, bne_iff_ne, bne_iff_ne]
    apply not_congr
    constructor
    · exact fun heq => congrArg Target.id (h.subscription_injective hp hq heq)
    · intro heq
      rw [List.inj_on_of_nodup_map h.integrity.store.target_ids hp hq heq]
      rfl
  case rules => exact h.shows.rules.trans (himage fun _ _ => rfl).symm
  case deliveries => exact h.shows.deliveries
  case ids => exact h.shows.ids

theorem play_removeTargetOwned (h : r.Mirrors naming things w) {user : UserId}
    {id : TargetId} {e : Entry} {l : Listed} (hlisted : r.listed? user id = some (e, l)) :
    (Lifecycle.removeTargetOwned user id).run.play w =
      (.ok (), w.withoutTarget id (l.row naming e.id).subscription) := by
  rcases listed?_eq_some hlisted with ⟨he, rfl, _, _⟩
  have hvisible : (Lifecycle.visibleTrigger e.user (l.row naming e.id).trigger).run.play w =
      (.ok (e.row naming), w) := by
    have hvisible := h.play_visibleTrigger e.user e.id
    rw [h.entry?_of_mem he] at hvisible
    exact hvisible
  rw [Lifecycle.removeTargetOwned, Operation.play_bind_of_ok (Operation.play_ask_of_ok rfl),
    h.target?_of_listed hlisted,
    Operation.play_bind_of_ok (a := l.row naming e.id) (w := w) (v := w) rfl,
    Operation.play_bind_of_ok hvisible,
    Operation.play_bind_of_ok (Operation.play_ensureGone (Call.clears_unsubscribe _ w))]
  exact Operation.play_ensureGone (Call.clears_deleteTarget id _)

theorem follows_removeTarget (h : r.Mirrors naming things w) (hlocks : w.locks = .empty)
    (user : UserId) (id : TargetId) :
    Registry.Follows naming things (Lifecycle.removeTarget user id) w
      (Registry.removeTarget user id r) := by
  have hget := h.play_getTarget user id
  rw [Registry.removeTarget]
  cases hlisted : r.listed? user id with
  | none =>
      rw [hlisted] at hget
      exact h.follows_of_play hlocks (Operation.play_bind_of_error hget)
  | some found =>
      rcases found with ⟨e, l⟩
      rw [hlisted] at hget
      apply Registry.Follows.after hget
      rcases listed?_eq_some hlisted with ⟨he, _, hl, rfl⟩
      have hplay := (h.around w.faults ⟨e.id :: w.locks.held⟩).play_removeTargetOwned hlisted
      have hshows := h.shows_withoutTarget (h.mem_targets he hl)
      refine follows_of_locked (v := w.withoutTarget l.id _) h.integrity hlocks hplay hshows ?_
      intro e' (he' : e' ∈ withoutTarget l.id r.entries) u hu
      rcases List.mem_map.mp he' with ⟨old, hold, rfl⟩
      apply h.drawn old hold u
      rcases List.mem_cons.mp hu with rfl | hu
      · exact List.mem_cons_self
      · rcases List.mem_flatMap.mp hu with ⟨l', hl', hu⟩
        exact List.mem_cons_of_mem _
          (List.mem_flatMap.mpr ⟨l', List.mem_of_mem_filter hl', hu⟩)

end Registry.Mirrors
end TelemetryTriggers
