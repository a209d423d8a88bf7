import TelemetryTriggers.Proofs.Registry.Image

/-!
# How much a registry lists

Each request that succeeds adds or takes away one entry or one listed target, or an entry
with all its targets.  What the services hold is as much as the registry lists.

Main definitions: `Registry.listings`; `Registry.Grows`, how two registries differ in size.
The main statements are `Registry.Mirrors.counts_eq` and, for each kind of request,
`Registry.grows_create` and the statements after it.
-/

namespace TelemetryTriggers

theorem flatMap_filter_key {α β : Type} [BEq β] [LawfulBEq β] {key : α -> β} {keys : List β}
    {items : List α} (hkeys : keys.Nodup) (h : forall a, a ∈ items -> key a ∈ keys) :
    (keys.flatMap fun k => items.filter (key · == k)).Perm items := by
  induction keys generalizing items with
  | nil =>
      have hnone : items = [] := List.eq_nil_iff_forall_not_mem.mpr
        fun a ha => List.not_mem_nil (h a ha)
      rw [hnone]
      exact .refl _
  | cons k keys ih =>
      rcases List.nodup_cons.mp hkeys with ⟨hnew, hkeys⟩
      have hrest : (keys.flatMap fun k' => items.filter (key · == k')) =
          keys.flatMap fun k' => (items.filter (key · != k)).filter (key · == k') := by
        apply List.flatMap_congr
        intro k' hk'
        rw [List.filter_filter]
        apply List.filter_congr
        intro a _
        cases hkey : key a == k' with
        | false => rfl
        | true =>
            have hne : (key a != k) = true := by
              rw [bne_iff_ne, eq_of_beq hkey]
              rintro rfl
              exact hnew hk'
            rw [hne]
            rfl
      rw [List.flatMap_cons, hrest]
      refine ((ih hkeys ?_).append_left _).trans (List.filter_append_perm _ _)
      intro a ha
      rcases List.mem_filter.mp ha with ⟨ha, hne⟩
      rcases List.mem_cons.mp (h a ha) with heq | hmem
      · rw [heq] at hne
        simp at hne
      · exact hmem

namespace Registry

def listings (r : Registry) : List Listed :=
  r.entries.flatMap Entry.targets

namespace Mirrors

variable {naming : ResourceNaming} {things : List Thing} {r : Registry} {w : World}

theorem rows_perm (h : r.Mirrors naming things w) :
    (r.entries.flatMap (Entry.rows naming)).Perm w.store.targets := by
  have howned : forall q, q ∈ w.store.targets -> q.trigger ∈ r.entries.map (·.id) := by
    intro q hq
    rcases h.shows.owned q hq with ⟨e, he, hrow⟩
    rcases Entry.mem_rows.mp hrow with ⟨l, _, rfl⟩
    exact List.mem_map_of_mem he
  have hperm := flatMap_filter_key h.entry_ids howned
  rw [List.flatMap_map] at hperm
  refine List.Perm.trans (List.Perm.of_eq ?_) hperm
  apply List.flatMap_congr
  intro e he
  exact (h.shows.targets e he).symm

theorem length_listings (h : r.Mirrors naming things w) :
    w.store.targets.length = r.listings.length := by
  rw [← h.rows_perm.length_eq, listings, List.length_flatMap, List.length_flatMap]
  simp only [Entry.rows, List.length_map]

theorem counts_eq (h : r.Mirrors naming things w) :
    w.counts = ⟨r.entries.length, r.listings.length, r.entries.length, r.listings.length,
      r.entries.length, 0⟩ := by
  rw [World.counts, h.shows.triggers, h.shows.topics, h.shows.rules, h.shows.subscriptions,
    h.shows.deliveries, List.length_map, List.length_map, List.length_map, List.length_map,
    h.length_listings]
  rfl

theorem listing_ids (h : r.Mirrors naming things w) : (r.listings.map (·.id)).Nodup := by
  have hids := (h.rows_perm.map (·.id)).nodup_iff.mpr h.integrity.store.target_ids
  have hrow : forall e : Entry, (e.rows naming).map (·.id) = e.targets.map (·.id) := by
    intro e
    rw [Entry.rows, List.map_map]
    rfl
  rw [List.map_flatMap] at hids
  rw [listings, List.map_flatMap]
  simpa only [hrow] using hids

end Mirrors

/-!
# Requests
-/

/-- The second registry lists so much more and so much less than the first one. -/
structure Grows (r r' : Registry) (entriesMade entriesLost targetsMade targetsLost : Nat) :
    Prop where
  entries : r'.entries.length + entriesLost = r.entries.length + entriesMade
  listings : r'.listings.length + targetsLost = r.listings.length + targetsMade

theorem Grows.same {r r' : Registry} (h : r'.entries = r.entries) : r.Grows r' 0 0 0 0 := by
  constructor
  · rw [h]
  · simp only [Registry.listings, h]

theorem Grows.trans {r r' r'' : Registry} {a b c d a' b' c' d' : Nat}
    (h : r.Grows r' a b c d) (h' : r'.Grows r'' a' b' c' d') :
    r.Grows r'' (a + a') (b + b') (c + c') (d + d') := by
  have hentries := h.entries
  have hentries' := h'.entries
  have hlistings := h.listings
  have hlistings' := h'.listings
  constructor
  · omega
  · omega

theorem length_enlistAll (targets : List ValidTarget) (ids : IdSource) :
    (enlistAll targets ids).1.length = targets.length := by
  induction targets generalizing ids with
  | nil => rfl
  | cons target targets ih => exact congrArg (· + 1) (ih _)

section Requests

variable {config : Config} {things : List Thing} {r : Registry}

theorem grows_create {request : CreateRequest} {details : TriggerDetails}
    (h : (create config things request r).1 = .ok details) :
    r.Grows (create config things request r).2 1 0 request.targets.length 0 := by
  rw [create] at h ⊢
  cases hvalid : request.validate config.maxTargets with
  | error e =>
      rw [hvalid] at h
      cases h
  | ok valid =>
      rw [hvalid] at h
      simp only [createValid] at h ⊢
      split at h
      · cases h
      · constructor
        · exact List.length_append
        · simp only [listings, List.flatMap_append, List.length_append, List.flatMap_singleton,
            newEntry, length_enlistAll, Lifecycle.length_validate hvalid, Nat.add_zero]

theorem entries_create_of_error {request : CreateRequest} {e : TriggerError}
    (h : (create config things request r).1 = .error e) :
    (create config things request r).2.entries = r.entries := by
  rw [create] at h ⊢
  cases hvalid : request.validate config.maxTargets with
  | error e => rfl
  | ok valid =>
      rw [hvalid] at h
      simp only [createValid] at h ⊢
      split
      · rfl
      · rename_i thing hthing
        rw [hthing] at h
        cases h

theorem entries_delete_of_error {user : UserId} {id : TriggerId} {e : TriggerError}
    (h : (delete user id r).1 = .error e) : (delete user id r).2.entries = r.entries := by
  rw [delete] at h ⊢
  cases hentry : r.entry? user id with
  | none => rfl
  | some found =>
      rw [hentry] at h
      cases h

theorem entries_addTarget_of_error {user : UserId} {id : TriggerId} {spec : TargetSpec}
    {e : TriggerError} (h : (addTarget config user id spec r).1 = .error e) :
    (addTarget config user id spec r).2.entries = r.entries := by
  rw [addTarget] at h ⊢
  cases hvalid : spec.validate with
  | error e => rfl
  | ok target =>
      cases hentry : r.entry? user id with
      | none => rfl
      | some found =>
          simp only [hvalid, hentry] at h ⊢
          split
          · rfl
          · rename_i hroom
            rw [if_neg hroom] at h
            cases h

theorem entries_removeTarget_of_error {user : UserId} {target : TargetId} {e : TriggerError}
    (h : (removeTarget user target r).1 = .error e) :
    (removeTarget user target r).2.entries = r.entries := by
  rw [removeTarget] at h ⊢
  cases hlisted : r.listed? user target with
  | none => rfl
  | some found =>
      rw [hlisted] at h
      cases h

end Requests

namespace Mirrors

variable {config : Config} {naming : ResourceNaming} {things : List Thing} {r : Registry}
  {w : World}

theorem entries_perm (h : r.Mirrors naming things w) {e : Entry} (he : e ∈ r.entries) :
    r.entries.Perm (e :: r.entries.filter (·.id != e.id)) := by
  have hone := filter_key_eq_singleton h.entry_ids he
  have hperm := (List.filter_append_perm (fun d : Entry => d.id == e.id) r.entries).symm
  rw [hone] at hperm
  exact hperm

theorem grows_delete (h : r.Mirrors naming things w) {user : UserId} {id : TriggerId}
    (hok : (delete user id r).1 = .ok ()) :
    r.Grows (delete user id r).2 0 1 0 (w.store.targetsOf id).length := by
  rw [delete] at hok ⊢
  cases hentry : r.entry? user id with
  | none =>
      rw [hentry] at hok
      cases hok
  | some e =>
      rcases entry?_eq_some hentry with ⟨he, rfl, _⟩
      have hperm := h.entries_perm he
      constructor
      · exact hperm.length_eq.symm
      · have hlength := (hperm.flatMap_right Entry.targets).length_eq
        rw [List.flatMap_cons, List.length_append] at hlength
        rw [h.shows.targets e he, Entry.rows, List.length_map, Nat.add_comm]
        exact hlength.symm

theorem grows_withTarget (h : r.Mirrors naming things w) {e : Entry} (he : e ∈ r.entries)
    (l : Listed) (ids : IdSource) : r.Grows ⟨withTarget e.id l r.entries, ids⟩ 0 0 1 0 := by
  have hperm := h.entries_perm he
  have hrest : withTarget e.id l (r.entries.filter (·.id != e.id)) =
      r.entries.filter (·.id != e.id) := by
    refine (List.map_congr_left fun d hd => ?_).trans (List.map_id _)
    have hne := (List.mem_filter.mp hd).2
    rw [bne_iff_ne] at hne
    exact if_neg hne
  constructor
  · exact List.length_map _
  · have hbefore := (hperm.flatMap_right Entry.targets).length_eq
    have hafter := ((hperm.map fun d : Entry =>
      if d.id = e.id then { d with targets := d.targets ++ [l] } else d).flatMap_right
        Entry.targets).length_eq
    rw [List.flatMap_cons, List.length_append] at hbefore
    rw [List.map_cons, if_pos rfl, List.flatMap_cons, List.length_append, List.length_append,
      List.length_singleton] at hafter
    rw [withTarget] at hrest
    rw [hrest] at hafter
    show (List.flatMap Entry.targets (withTarget e.id l r.entries)).length + 0 =
      (r.entries.flatMap Entry.targets).length + 1
    rw [withTarget, hafter, hbefore]
    omega

theorem grows_addTarget (h : r.Mirrors naming things w) {user : UserId} {id : TriggerId}
    {spec : TargetSpec} {row : Target} (hok : (addTarget config user id spec r).1 = .ok row) :
    r.Grows (addTarget config user id spec r).2 0 0 1 0 := by
  rw [addTarget] at hok ⊢
  cases hvalid : spec.validate with
  | error e =>
      rw [hvalid] at hok
      cases hok
  | ok target =>
      cases hentry : r.entry? user id with
      | none =>
          simp only [hvalid, hentry] at hok
          cases hok
      | some e =>
          rcases entry?_eq_some hentry with ⟨he, rfl, _⟩
          simp only [hvalid, hentry] at hok ⊢
          split at hok
          · cases hok
          · rename_i hroom
            rw [if_neg hroom]
            exact h.grows_withTarget he _ _

theorem grows_removeTarget (h : r.Mirrors naming things w) {user : UserId} {target : TargetId}
    (hok : (removeTarget user target r).1 = .ok ()) :
    r.Grows (removeTarget user target r).2 0 0 0 1 := by
  rw [removeTarget] at hok ⊢
  cases hlisted : r.listed? user target with
  | none =>
      rw [hlisted] at hok
      cases hok
  | some found =>
      rcases found with ⟨e, l⟩
      rcases listed?_eq_some hlisted with ⟨he, _, hl, rfl⟩
      have hmem : l ∈ r.listings := List.mem_flatMap.mpr ⟨e, he, hl⟩
      constructor
      · exact List.length_map _
      · have hrest : listings ⟨withoutTarget l.id r.entries, r.ids⟩ =
            r.listings.filter (·.id != l.id) := by
          rw [listings, listings, withoutTarget, List.flatMap_map, List.filter_flatMap]
        rw [hrest]
        exact length_filter_key h.listing_ids hmem

end Mirrors
end Registry
end TelemetryTriggers
