import Mathlib.Data.List.Nodup
import TelemetryTriggers.Services.Store

/-!
# Integrity of the row store

Every operation of the store keeps identifiers unique and never leaves a target
without its trigger.  For each operation that changes rows there is one lemma that
says what it found and what it left when it succeeded; later modules use these in
the place of the definitions.
-/

namespace TelemetryTriggers

/-!
# Lists of items with keys
-/

theorem nodup_map_filter {α β : Type} {f : α -> β} {items : List α}
    (h : (items.map f).Nodup) (p : α -> Bool) : ((items.filter p).map f).Nodup :=
  h.sublist (List.filter_sublist.map f)

theorem nodup_map_concat {α β : Type} {f : α -> β} {items : List α} {a : α}
    (h : (items.map f).Nodup) (ha : forall b, b ∈ items -> f b ≠ f a) :
    ((items ++ [a]).map f).Nodup := by
  rw [List.map_append, List.map_singleton, List.nodup_append]
  refine ⟨h, List.nodup_singleton _, ?_⟩
  intro x hx y hy
  rcases List.mem_map.mp hx with ⟨b, hb, rfl⟩
  rw [List.mem_singleton.mp hy]
  exact ha b hb

theorem filter_eq_singleton {α : Type} {items : List α} {a : α} {p : α -> Bool}
    (h : items.Nodup) (ha : a ∈ items) (hp : forall b, b ∈ items -> (p b = true ↔ b = a)) :
    items.filter p = [a] := by
  apply List.perm_singleton.mp
  rw [List.perm_ext_iff_of_nodup (h.filter _) (List.nodup_singleton a)]
  intro b
  rw [List.mem_filter, List.mem_singleton]
  constructor
  · exact fun hb => (hp b hb.1).mp hb.2
  · rintro rfl
    exact ⟨ha, (hp b ha).mpr rfl⟩

theorem filter_key_eq_singleton {α β : Type} [BEq β] [LawfulBEq β] {f : α -> β}
    {items : List α} (h : (items.map f).Nodup) {a : α} (ha : a ∈ items) :
    items.filter (fun b => f b == f a) = [a] := by
  apply filter_eq_singleton h.of_map ha
  intro b hb
  rw [beq_iff_eq]
  exact ⟨List.inj_on_of_nodup_map h hb ha, congrArg f⟩

theorem countP_filter_key {α β : Type} [BEq β] [LawfulBEq β] {key : α -> β} {p : α -> Bool}
    {items : List α} {a : α} (hkeys : (items.map key).Nodup) (ha : a ∈ items)
    (hp : p a = true) :
    (items.filter fun b => key b != key a).countP p + 1 = items.countP p := by
  rw [List.countP_eq_countP_filter_add items p fun b => key b == key a,
    filter_key_eq_singleton hkeys ha, List.countP_singleton, if_pos hp, Nat.add_comm]
  rfl

theorem length_filter_key {α β : Type} [BEq β] [LawfulBEq β] {key : α -> β} {items : List α} {a : α}
    (hkeys : (items.map key).Nodup) (ha : a ∈ items) :
    (items.filter fun b => key b != key a).length + 1 = items.length := by
  rw [← List.countP_true]
  exact countP_filter_key hkeys ha rfl

namespace Store

/-!
# What each operation does
-/

theorem trigger?_eq_some {s : Store} {id : TriggerId} {t : Trigger}
    (h : s.trigger? id = some t) : t ∈ s.triggers ∧ t.id = id := by
  constructor
  · exact List.mem_of_find?_eq_some h
  · simpa using List.find?_some h

theorem trigger?_eq_none {s : Store} {id : TriggerId}
    (h : s.trigger? id = none) : forall t, t ∈ s.triggers -> t.id ≠ id := by
  intro t ht
  have hnot := List.find?_eq_none.mp h t ht
  simpa using hnot

theorem target?_eq_some {s : Store} {id : TargetId} {r : Target}
    (h : s.target? id = some r) : r ∈ s.targets ∧ r.id = id := by
  constructor
  · exact List.mem_of_find?_eq_some h
  · simpa using List.find?_some h

theorem mem_targetsOf {s : Store} {id : TriggerId} {r : Target} :
    r ∈ s.targetsOf id ↔ r ∈ s.targets ∧ r.trigger = id := by
  simp [targetsOf]

theorem insertTrigger_eq_ok {s s' : Store} {t : Trigger}
    (h : s.insertTrigger t = .ok s') :
    (forall u, u ∈ s.triggers -> u.id ≠ t.id) ∧
      s' = { s with triggers := s.triggers ++ [t] } := by
  unfold insertTrigger at h
  split at h
  · cases h
  · rename_i hfree
    cases h
    constructor
    · intro u hu hid
      apply hfree
      exact List.any_eq_true.mpr ⟨u, hu, by simp [hid]⟩
    · rfl

theorem setHandles_eq_ok {s s' : Store} {id : TriggerId} {handles : Handles}
    (h : s.setHandles id handles = .ok s') :
    (exists t, s.trigger? id = some t ∧ t.isProvisioned = false) ∧
      s' = { s with triggers := withHandles id handles s.triggers } := by
  unfold setHandles at h
  split at h
  · cases h
  · rename_i t ht
    split at h
    · cases h
    · rename_i hdraft
      cases h
      exact ⟨⟨t, ht, by simpa using hdraft⟩, rfl⟩

theorem deleteTrigger_eq_ok {s s' : Store} {id : TriggerId}
    (h : s.deleteTrigger id = .ok s') :
    (forall r, r ∈ s.targets -> r.trigger ≠ id) ∧
      s' = { s with triggers := s.triggers.filter (·.id != id) } := by
  unfold deleteTrigger at h
  split at h
  · cases h
  · rename_i hempty
    split at h
    · cases h
      constructor
      · intro r hr hid
        apply hempty
        exact List.any_eq_true.mpr ⟨r, hr, by simp [hid]⟩
      · rfl
    · cases h

theorem insertTarget_eq_ok {s s' : Store} {r : Target}
    (h : s.insertTarget r = .ok s') :
    (exists t, t ∈ s.triggers ∧ t.id = r.trigger) ∧
      (forall q, q ∈ s.targets -> q.id ≠ r.id) ∧
      s' = { s with targets := s.targets ++ [r] } := by
  unfold insertTarget at h
  split at h
  · cases h
  · rename_i hparent
    split at h
    · cases h
    · rename_i hfree
      cases h
      refine ⟨?_, ?_, rfl⟩
      · simp only [hasTrigger, Bool.not_eq_false, List.any_eq_true] at hparent
        rcases hparent with ⟨t, ht, hid⟩
        exact ⟨t, ht, by simpa using hid⟩
      · intro q hq hid
        apply hfree
        exact List.any_eq_true.mpr ⟨q, hq, by simp [hid]⟩

theorem deleteTarget_eq_ok {s s' : Store} {id : TargetId}
    (h : s.deleteTarget id = .ok s') :
    s' = { s with targets := s.targets.filter (·.id != id) } := by
  unfold deleteTarget at h
  split at h
  · cases h
    rfl
  · cases h

theorem map_id_withHandles (id : TriggerId) (handles : Handles) (rows : List Trigger) :
    (withHandles id handles rows).map (·.id) = rows.map (·.id) := by
  rw [withHandles, List.map_map]
  apply List.map_congr_left
  intro t _
  simp only [Function.comp_apply]
  split
  · rfl
  · rfl

/-!
# Integrity
-/

/-- Identifiers are unique, and each target belongs to a trigger that exists. -/
structure Integrity (s : Store) : Prop where
  trigger_ids : (s.triggers.map (·.id)).Nodup
  target_ids : (s.targets.map (·.id)).Nodup
  owned : forall r, r ∈ s.targets -> exists t, t ∈ s.triggers ∧ t.id = r.trigger

theorem integrity_empty : Store.empty.Integrity where
  trigger_ids := List.nodup_nil
  target_ids := List.nodup_nil
  owned := by
    intro r hr
    cases hr

namespace Integrity

variable {s s' : Store}

theorem trigger?_eq_some (h : s.Integrity) {t : Trigger} (ht : t ∈ s.triggers) :
    s.trigger? t.id = some t := by
  cases hfind : s.trigger? t.id with
  | none => exact absurd rfl (trigger?_eq_none hfind t ht)
  | some u =>
      rcases Store.trigger?_eq_some hfind with ⟨hu, hid⟩
      exact congrArg some (List.inj_on_of_nodup_map h.trigger_ids hu ht hid)

theorem filter_id (h : s.Integrity) {row : Trigger} (hrow : row ∈ s.triggers) :
    s.triggers.filter (·.id == row.id) = [row] :=
  filter_key_eq_singleton h.trigger_ids hrow

theorem targetsOf_of_absent (h : s.Integrity) {id : TriggerId}
    (habsent : forall row, row ∈ s.triggers -> row.id ≠ id) : s.targetsOf id = [] := by
  rw [targetsOf, List.filter_eq_nil_iff]
  intro target htarget
  rcases h.owned target htarget with ⟨row, hrow, hid⟩
  rw [beq_iff_eq, ← hid]
  exact habsent row hrow

theorem addThing (h : s.Integrity) (thing : Thing) : (s.addThing thing).Integrity :=
  ⟨h.trigger_ids, h.target_ids, h.owned⟩

theorem insertTrigger {t : Trigger} (h : s.Integrity)
    (hs : s.insertTrigger t = .ok s') : s'.Integrity := by
  rcases insertTrigger_eq_ok hs with ⟨hfree, rfl⟩
  refine ⟨nodup_map_concat h.trigger_ids hfree, h.target_ids, ?_⟩
  intro r hr
  rcases h.owned r hr with ⟨u, hu, hid⟩
  exact ⟨u, List.mem_append_left _ hu, hid⟩

theorem setHandles {id : TriggerId} {handles : Handles} (h : s.Integrity)
    (hs : s.setHandles id handles = .ok s') : s'.Integrity := by
  rcases setHandles_eq_ok hs with ⟨_, rfl⟩
  refine ⟨?_, h.target_ids, ?_⟩
  · rw [map_id_withHandles]
    exact h.trigger_ids
  · intro r hr
    rcases h.owned r hr with ⟨u, hu, hid⟩
    have hmem : r.trigger ∈ (withHandles id handles s.triggers).map (·.id) := by
      rw [map_id_withHandles]
      exact List.mem_map.mpr ⟨u, hu, hid⟩
    exact List.mem_map.mp hmem

theorem deleteTrigger {id : TriggerId} (h : s.Integrity)
    (hs : s.deleteTrigger id = .ok s') : s'.Integrity := by
  rcases deleteTrigger_eq_ok hs with ⟨hempty, rfl⟩
  refine ⟨nodup_map_filter h.trigger_ids _, h.target_ids, ?_⟩
  intro r hr
  rcases h.owned r hr with ⟨u, hu, hid⟩
  refine ⟨u, List.mem_filter.mpr ⟨hu, ?_⟩, hid⟩
  rw [hid]
  simpa using hempty r hr

theorem insertTarget {r : Target} (h : s.Integrity)
    (hs : s.insertTarget r = .ok s') : s'.Integrity := by
  rcases insertTarget_eq_ok hs with ⟨hparent, hfree, rfl⟩
  refine ⟨h.trigger_ids, nodup_map_concat h.target_ids hfree, ?_⟩
  intro q hq
  rcases List.mem_append.mp hq with hold | hnew
  · exact h.owned q hold
  · rw [List.mem_singleton.mp hnew]
    exact hparent

theorem deleteTarget {id : TargetId} (h : s.Integrity)
    (hs : s.deleteTarget id = .ok s') : s'.Integrity := by
  rcases deleteTarget_eq_ok hs with rfl
  refine ⟨h.trigger_ids, nodup_map_filter h.target_ids _, ?_⟩
  intro r hr
  exact h.owned r (List.mem_of_mem_filter hr)

end Integrity
end Store
end TelemetryTriggers
