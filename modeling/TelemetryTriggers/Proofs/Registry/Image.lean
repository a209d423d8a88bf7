import TelemetryTriggers.Proofs.Convergence
import TelemetryTriggers.Proofs.Orchestrator.SweepSafety
import TelemetryTriggers.Proofs.Registry.Spec

/-!
# Services as the image of a registry

The services show a registry when each of its entries stands for one provisioned row,
one topic and one rule, each listed target for one row and one subscription, and there
is nothing else.  What an account can look up then is what the registry lists for it.

Main definitions: `Registry.Shows`; `Registry.Mirrors`, the same with what carries it
from one request to the next.
-/

namespace TelemetryTriggers

/-!
# Images
-/

/-- The services hold what stands for the entries, and nothing else. -/
structure Registry.Shows (naming : ResourceNaming) (things : List Thing) (r : Registry)
    (w : World) : Prop where
  things : w.store.things = things
  triggers : w.store.triggers = r.entries.map (Entry.row naming)
  targets : forall e, e ∈ r.entries -> w.store.targetsOf e.id = e.rows naming
  owned : forall q, q ∈ w.store.targets -> exists e, e ∈ r.entries ∧ q ∈ e.rows naming
  topics : w.broker.topics = r.entries.map (Entry.topic naming)
  subscriptions : w.broker.subscriptions =
    w.store.targets.map (Lifecycle.subscriptionOf naming)
  rules : w.engine.rules = r.entries.map (Entry.rule naming)
  deliveries : w.broker.deliveries = []
  ids : w.ids = r.ids

theorem Registry.Shows.around {naming : ResourceNaming} {things : List Thing}
    {r : Registry} {w : World} (h : r.Shows naming things w) (faults : FaultPlan)
    (locks : LockTable) : r.Shows naming things { w with faults, locks } :=
  ⟨h.things, h.triggers, h.targets, h.owned, h.topics, h.subscriptions, h.rules,
    h.deliveries, h.ids⟩

def Entry.uuids (e : Entry) : List Uuid :=
  e.id.uuid :: e.targets.flatMap fun l => [l.id.uuid, l.suffix]

/-- The services show a registry whose identifiers were all drawn. -/
structure Registry.Mirrors (naming : ResourceNaming) (things : List Thing) (r : Registry)
    (w : World) : Prop where
  shows : r.Shows naming things w
  integrity : w.Integrity
  drawn : forall e, e ∈ r.entries -> forall u, u ∈ e.uuids -> r.ids.Gave u

/-- The operation does as the registry: it comes to the same result and leaves services
that show what the registry is then, with nothing locked. -/
def Registry.Follows {α : Type} (naming : ResourceNaming) (things : List Thing)
    (work : Operation α) (w : World) (served : Except TriggerError α × Registry) : Prop :=
  exists v, work.run.play w = (served.1, v) ∧ served.2.Mirrors naming things v ∧
    v.locks = .empty

theorem Registry.Follows.answered {α : Type} {naming : ResourceNaming}
    {things : List Thing} {work : Operation α} {w : World}
    {served : Except TriggerError α × Registry}
    (h : Registry.Follows naming things work w served) (f : α -> Answer) :
    Registry.Follows naming things (do pure (f (← work))) w (Registry.answered f served) := by
  rcases h with ⟨v, hplay, hrest⟩
  refine ⟨v, ?_, hrest⟩
  rcases served with ⟨result, r⟩
  cases result with
  | error e => exact Operation.play_bind_of_error hplay
  | ok a => exact Operation.play_bind_of_ok hplay

theorem Registry.Follows.after {α β : Type} {naming : ResourceNaming} {things : List Thing}
    {first : Operation α} {next : α -> Operation β} {a : α} {w v : World}
    {served : Except TriggerError β × Registry} (hfirst : first.run.play w = (.ok a, v))
    (h : Registry.Follows naming things (next a) v served) :
    Registry.Follows naming things (first >>= next) w served := by
  rcases h with ⟨v', hplay, hrest⟩
  exact ⟨v', (Operation.play_bind_of_ok hfirst).trans hplay, hrest⟩

theorem Entry.mem_rows {naming : ResourceNaming} {e : Entry} {q : Target} :
    q ∈ e.rows naming ↔ exists l, l ∈ e.targets ∧ l.row naming e.id = q :=
  List.mem_map

theorem find?_filter_of_nodup {α β : Type} [BEq β] [LawfulBEq β] {key : α -> β} {k : β}
    {items : List α} (h : (items.map key).Nodup) (p : α -> Bool) :
    (items.find? fun a => key a == k).filter p = items.find? fun a => key a == k && p a := by
  induction items with
  | nil => rfl
  | cons a items ih =>
      rw [List.map_cons, List.nodup_cons] at h
      cases hk : key a == k with
      | false =>
          rw [List.find?_cons_of_neg (by simp [hk]), List.find?_cons_of_neg (by simp [hk])]
          exact ih h.2
      | true =>
          have hother : (items.find? fun b => key b == k && p b) = none := by
            rw [List.find?_eq_none]
            intro b hb hfound
            rw [Bool.and_eq_true] at hfound
            apply h.1
            rw [eq_of_beq hk, ← eq_of_beq hfound.1]
            exact List.mem_map_of_mem hb
          rw [List.find?_cons_of_pos (by simp [hk])]
          cases hp : p a with
          | false =>
              rw [List.find?_cons_of_neg (by simp [hp]), hother]
              simp [Option.filter, hp]
          | true =>
              rw [List.find?_cons_of_pos (by simp [hk, hp])]
              simp [Option.filter, hp]

namespace Registry.Mirrors

variable {naming : ResourceNaming} {things : List Thing} {r : Registry} {w : World}

theorem around (h : r.Mirrors naming things w) (faults : FaultPlan) (locks : LockTable) :
    r.Mirrors naming things { w with faults, locks } :=
  ⟨h.shows.around faults locks,
    ⟨h.integrity.store, h.integrity.broker, h.integrity.engine⟩, h.drawn⟩

/-!
# Looking up triggers
-/

theorem entry_ids (h : r.Mirrors naming things w) : (r.entries.map (·.id)).Nodup := by
  have hids := h.integrity.store.trigger_ids
  rw [h.shows.triggers, List.map_map] at hids
  exact hids

theorem entry?_eq (h : r.Mirrors naming things w) (user : UserId) (id : TriggerId) :
    r.entry? user id = (r.entries.find? (·.id == id)).filter (·.user == user) :=
  (find?_filter_of_nodup h.entry_ids _).symm

theorem entry?_eq_some {user : UserId} {id : TriggerId} {e : Entry}
    (h : r.entry? user id = some e) : e ∈ r.entries ∧ e.id = id ∧ e.user = user := by
  have hfound := List.find?_some h
  rw [Bool.and_eq_true] at hfound
  exact ⟨List.mem_of_find?_eq_some h, eq_of_beq hfound.1, eq_of_beq hfound.2⟩

theorem entry?_of_mem (h : r.Mirrors naming things w) {e : Entry} (he : e ∈ r.entries) :
    r.entry? e.user e.id = some e := by
  cases hfound : r.entry? e.user e.id with
  | none =>
      have hnot := List.find?_eq_none.mp hfound e he
      simp at hnot
  | some e' =>
      rcases entry?_eq_some hfound with ⟨he', hid, _⟩
      exact congrArg some (List.inj_on_of_nodup_map h.entry_ids he' he hid)

theorem trigger?_filter (h : r.Mirrors naming things w) {user : UserId} (id : TriggerId)
    {p : Trigger -> Bool} (hp : forall e : Entry, p (e.row naming) = (e.user == user)) :
    (w.store.trigger? id).filter p = (r.entry? user id).map (Entry.row naming) := by
  have hrow : w.store.trigger? id =
      (r.entries.find? (·.id == id)).map (Entry.row naming) := by
    rw [Store.trigger?, h.shows.triggers, List.find?_map]
    rfl
  rw [hrow, h.entry?_eq]
  cases r.entries.find? (·.id == id) with
  | none => rfl
  | some e =>
      cases huser : e.user == user with
      | false => simp [Option.filter, hp, huser]
      | true => simp [Option.filter, hp, huser]

theorem isVisibleTo_row (user : UserId) (e : Entry) :
    Lifecycle.isVisibleTo user (e.row naming) = (e.user == user) :=
  Bool.and_true _

theorem play_visibleTrigger (h : r.Mirrors naming things w) (user : UserId)
    (id : TriggerId) :
    (Lifecycle.visibleTrigger user id).run.play w =
      match r.entry? user id with
      | none => (.error (Lifecycle.noTrigger id), w)
      | some e => (.ok (e.row naming), w) := by
  rw [Lifecycle.visibleTrigger, Operation.play_bind_of_ok (Operation.play_ask_of_ok rfl),
    h.trigger?_filter id (isVisibleTo_row user)]
  cases r.entry? user id with
  | none => rfl
  | some e => rfl

/-!
# Looking up targets
-/

theorem mem_targets (h : r.Mirrors naming things w) {e : Entry} (he : e ∈ r.entries)
    {l : Listed} (hl : l ∈ e.targets) : l.row naming e.id ∈ w.store.targets := by
  have hrow : l.row naming e.id ∈ w.store.targetsOf e.id := by
    rw [h.shows.targets e he]
    exact Entry.mem_rows.mpr ⟨l, hl, rfl⟩
  exact (Store.mem_targetsOf.mp hrow).1

theorem listed?_eq_some {user : UserId} {id : TargetId} {e : Entry} {l : Listed}
    (h : r.listed? user id = some (e, l)) :
    e ∈ r.entries ∧ e.user = user ∧ l ∈ e.targets ∧ l.id = id := by
  rcases List.exists_of_findSome?_eq_some h with ⟨e', he, hfound⟩
  split at hfound
  · rename_i huser
    rcases Option.map_eq_some_iff.mp hfound with ⟨l', hl, heq⟩
    cases heq
    have hid := List.find?_some hl
    exact ⟨he, eq_of_beq huser, List.mem_of_find?_eq_some hl, eq_of_beq hid⟩
  · cases hfound

theorem target?_of_listed (h : r.Mirrors naming things w) {user : UserId} {id : TargetId}
    {e : Entry} {l : Listed} (hl : r.listed? user id = some (e, l)) :
    w.store.target? id = some (l.row naming e.id) := by
  rcases listed?_eq_some hl with ⟨he, _, hmem, rfl⟩
  cases hfound : w.store.target? l.id with
  | none =>
      have hnot := List.find?_eq_none.mp hfound _ (h.mem_targets he hmem)
      simp [Listed.row] at hnot
  | some q =>
      rcases Store.target?_eq_some hfound with ⟨hq, hid⟩
      exact congrArg some (List.inj_on_of_nodup_map h.integrity.store.target_ids hq
        (h.mem_targets he hmem) hid)

/-- A target that is not listed for an account belongs to a trigger of another one. -/
theorem entry?_of_not_listed (h : r.Mirrors naming things w) {user : UserId}
    {id : TargetId} (hnone : r.listed? user id = none) {q : Target}
    (hq : w.store.target? id = some q) : r.entry? user q.trigger = none := by
  rcases Store.target?_eq_some hq with ⟨hmem, rfl⟩
  rcases h.shows.owned q hmem with ⟨e, he, hrow⟩
  rcases Entry.mem_rows.mp hrow with ⟨l, hl, rfl⟩
  cases hfound : r.entry? user e.id with
  | none => exact hfound
  | some e' =>
      rcases entry?_eq_some hfound with ⟨he', hid, huser⟩
      rcases List.inj_on_of_nodup_map h.entry_ids he' he hid with rfl
      have hnot := List.findSome?_eq_none_iff.mp hnone e' he
      rw [if_pos (beq_iff_eq.mpr huser), Option.map_eq_none_iff, List.find?_eq_none] at hnot
      exact absurd (beq_self_eq_true _) (hnot l hl)

theorem play_getTarget (h : r.Mirrors naming things w) (user : UserId) (id : TargetId) :
    (Lifecycle.getTarget user id).run.play w =
      match r.listed? user id with
      | none => (.error (Lifecycle.noTarget id), w)
      | some (e, l) => (.ok (l.row naming e.id), w) := by
  rw [Lifecycle.getTarget, Operation.play_bind_of_ok (Operation.play_ask_of_ok rfl)]
  cases hlisted : r.listed? user id with
  | some found =>
      rcases found with ⟨e, l⟩
      rcases listed?_eq_some hlisted with ⟨he, rfl, _, _⟩
      have hvisible := h.play_visibleTrigger e.user e.id
      rw [h.entry?_of_mem he] at hvisible
      rw [h.target?_of_listed hlisted]
      rw [Operation.play_bind_of_ok (w := w) (v := w) rfl]
      exact Operation.play_bind_of_ok (Operation.play_adapt_of_ok hvisible _)
  | none =>
      cases hq : w.store.target? id with
      | none => rfl
      | some q =>
          have hvisible := h.play_visibleTrigger user q.trigger
          rw [h.entry?_of_not_listed hlisted hq] at hvisible
          rw [Operation.play_bind_of_ok (a := q) (w := w) (v := w) rfl]
          exact Operation.play_bind_of_error (Operation.play_adapt_of_error hvisible _)

/-!
# Sweeps
-/

theorem isCommitted_of_mem (h : r.Mirrors naming things w) {e : Entry}
    (he : e ∈ r.entries) : w.store.isCommitted e.id = true := by
  apply h.integrity.store.isCommitted_iff.mpr
  refine ⟨e.row naming, ?_, rfl, rfl⟩
  rw [h.shows.triggers]
  exact List.mem_map_of_mem he

theorem tidy (h : r.Mirrors naming things w) : w.Tidy naming := by
  have howner : forall e, e ∈ r.entries -> forall item : Item,
      item.owner? naming = some e.id ->
        exists id, item.owner? naming = some id ∧ w.store.isCommitted id = true :=
    fun e he _ howner => ⟨e.id, howner, h.isCommitted_of_mem he⟩
  intro item hitem
  cases item with
  | trigger row =>
      have hmem : row ∈ r.entries.map (Entry.row naming) := h.shows.triggers ▸ hitem
      rcases List.mem_map.mp hmem with ⟨e, he, rfl⟩
      exact howner e he _ rfl
  | target row =>
      rcases h.shows.owned row hitem with ⟨e, he, hmem⟩
      rcases Entry.mem_rows.mp hmem with ⟨l, _, rfl⟩
      exact howner e he _ rfl
  | topic t =>
      have hmem : t ∈ r.entries.map (Entry.topic naming) := h.shows.topics ▸ hitem
      rcases List.mem_map.mp hmem with ⟨e, he, rfl⟩
      exact howner e he _ (naming.triggerForTopic?_topicName e.id)
  | subscription s =>
      have hmem : s ∈ w.store.targets.map (Lifecycle.subscriptionOf naming) :=
        h.shows.subscriptions ▸ hitem
      rcases List.mem_map.mp hmem with ⟨q, hq, rfl⟩
      rcases h.shows.owned q hq with ⟨e, he, hrow⟩
      rcases Entry.mem_rows.mp hrow with ⟨l, _, rfl⟩
      exact howner e he _ (naming.triggerForHandle?_topicHandle e.id)
  | rule t =>
      have hmem : t ∈ r.entries.map (Entry.rule naming) := h.shows.rules ▸ hitem
      rcases List.mem_map.mp hmem with ⟨e, he, rfl⟩
      exact howner e he _ (naming.triggerForRule?_ruleName e.id)

/-!
# Operations that do as the registry
-/

theorem follows_of_locked {α : Type} {work : Operation α} {id : TriggerId}
    {served : Except TriggerError α × Registry} {v : World} (hw : w.Integrity)
    (hlocks : w.locks = .empty)
    (hplay : work.run.play { w with locks := ⟨id :: w.locks.held⟩ } =
      (served.1, { v with locks := ⟨id :: w.locks.held⟩ }))
    (hshows : served.2.Shows naming things v)
    (hdrawn : forall e, e ∈ served.2.entries -> forall u, u ∈ e.uuids ->
      served.2.ids.Gave u) :
    Registry.Follows naming things (.locked id work) w served := by
  have hfree : w.locks.isHeld id = false := by
    rw [hlocks]
    rfl
  have hlocked := Operation.play_locked_of_free hfree hplay
  have hintegrity := (Operation.locked id work).run.integrity_play hw
  rw [hlocked] at hintegrity
  refine ⟨_, hlocked, ⟨hshows.around _ _, hintegrity, hdrawn⟩, ?_⟩
  rw [← hlocks]
  exact LockTable.release_cons hfree

theorem follows_of_play {α : Type} (h : r.Mirrors naming things w) (hlocks : w.locks = .empty)
    {work : Operation α} {result : Except TriggerError α}
    (hplay : work.run.play w = (result, w)) :
    Registry.Follows naming things work w (result, r) :=
  ⟨w, hplay, h, hlocks⟩

theorem follows_getTrigger (h : r.Mirrors naming things w) (hlocks : w.locks = .empty)
    (user : UserId) (id : TriggerId) :
    Registry.Follows naming things (Lifecycle.getTrigger user id) w
      (Registry.read (Entry.details naming) user id r) := by
  have hvisible := h.play_visibleTrigger user id
  rw [Registry.read]
  cases hentry : r.entry? user id with
  | none =>
      rw [hentry] at hvisible
      exact h.follows_of_play hlocks (Operation.play_bind_of_error hvisible)
  | some e =>
      rw [hentry] at hvisible
      rcases entry?_eq_some hentry with ⟨he, rfl, _⟩
      apply h.follows_of_play hlocks
      rw [Lifecycle.getTrigger, Operation.play_bind_of_ok hvisible,
        Operation.play_bind_of_ok (Operation.play_ask_of_ok rfl), h.shows.targets e he]
      rfl

theorem follows_listTargets (h : r.Mirrors naming things w) (hlocks : w.locks = .empty)
    (user : UserId) (id : TriggerId) :
    Registry.Follows naming things (Lifecycle.listTargets user id) w
      (Registry.read (Entry.rows naming) user id r) := by
  have hvisible := h.play_visibleTrigger user id
  rw [Registry.read]
  cases hentry : r.entry? user id with
  | none =>
      rw [hentry] at hvisible
      exact h.follows_of_play hlocks (Operation.play_bind_of_error hvisible)
  | some e =>
      rw [hentry] at hvisible
      rcases entry?_eq_some hentry with ⟨he, rfl, _⟩
      apply h.follows_of_play hlocks
      rw [Lifecycle.listTargets, Operation.play_bind_of_ok hvisible, ← h.shows.targets e he]
      exact Operation.play_ask_of_ok rfl

theorem follows_listTriggers (config : Config) (h : r.Mirrors config.naming things w)
    (hlocks : w.locks = .empty) (user : UserId) :
    Registry.Follows config.naming things (Lifecycle.listTriggers user) w
      (Registry.listTriggers config user r) := by
  have hrows : (w.store.triggersOf user).filter (·.isProvisioned) =
      (r.entries.filter (·.user == user)).map (Entry.row config.naming) := by
    rw [Store.triggersOf, h.shows.triggers, List.filter_map, List.filter_map, List.filter_filter]
    rfl
  apply h.follows_of_play hlocks
  rw [Lifecycle.listTriggers, Operation.play_bind_of_ok (Operation.play_ask_of_ok rfl), hrows]
  rfl

theorem follows_getTarget (config : Config) (h : r.Mirrors config.naming things w)
    (hlocks : w.locks = .empty) (user : UserId) (id : TargetId) :
    Registry.Follows config.naming things (Lifecycle.getTarget user id) w
      (Registry.getTarget config user id r) := by
  have hplay := h.play_getTarget user id
  rw [Registry.getTarget]
  cases hlisted : r.listed? user id with
  | none =>
      rw [hlisted] at hplay
      exact h.follows_of_play hlocks hplay
  | some found =>
      rw [hlisted] at hplay
      exact h.follows_of_play hlocks hplay

theorem follows_recover (config : Config) (h : r.Mirrors config.naming things w)
    (hlocks : w.locks = .empty) :
    Registry.Follows config.naming things (recover config) w (.ok ⟨0, 0, 0, 0, 0⟩, r) := by
  apply h.follows_of_play hlocks
  show (sweep config.naming).run.play w = _
  rw [play_sweep config.naming h.integrity, h.tidy.swept_eq, h.tidy.sweepReport_eq h.integrity]

end Registry.Mirrors
end TelemetryTriggers
