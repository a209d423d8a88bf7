import TelemetryTriggers.Proofs.Lifecycle.TargetAddition
import TelemetryTriggers.Proofs.Orchestrator.Retries

/-!
# Changes of targets when a call fails

An addition subscribes the new target before it writes its row and takes the subscription
back when that fails, so a single failing call leaves rows and subscriptions in
correspondence.  A removal has nothing to take back.  If the row cannot be deleted after
the subscription is gone, the row stays without a subscription.

Main definition: `World.Corresponds`.  Main statement:
`Lifecycle.correspondence_of_target_changes`.
-/

namespace TelemetryTriggers

/-- The rows of the targets of a trigger and the subscriptions to a topic correspond one
to one by their handles. -/
def World.Corresponds (topic : TopicHandle) (id : TriggerId) (w : World) : Prop :=
  ((w.store.targetsOf id).map (·.subscription)).Perm
    ((w.broker.subscriptionsOf topic).map (·.handle))

instance (topic : TopicHandle) (id : TriggerId) (w : World) :
    Decidable (w.Corresponds topic id) :=
  inferInstanceAs (Decidable (List.Perm _ _))

theorem World.corresponds_iff {topic : TopicHandle} {id : TriggerId} {w : World} :
    w.Corresponds topic id ↔ w.broker.Serves (·.handle) topic (w.store.targetsOf id) :=
  Iff.rfl

namespace Lifecycle

variable {w : World} {topic : TopicHandle}

section Addition

variable {t : Trigger} {handles : Handles}

theorem Joined.corresponds {user : UserId} {row : Target} {v : World}
    (h : Joined user t.id w row v) (hw : w.store.Integrity) (ht : t ∈ w.store.triggers)
    (hhandles : t.handles = some handles) (hpaired : w.Corresponds handles.topic t.id) :
    v.Corresponds handles.topic t.id := by
  rcases h.added with ⟨found, given, hfound, hid, _, hgiven, faults, ids, rfl⟩
  have hsame : found = t := List.inj_on_of_nodup_map hw.trigger_ids hfound ht hid
  rcases hsame with rfl
  rw [hhandles] at hgiven
  cases hgiven
  have hserves := (World.corresponds_iff.mp hpaired).subscribe row
  rw [← Store.targetsOf_concat h.owner] at hserves
  exact hserves

theorem addTarget_bears (config : Config) (hw : w.Integrity) (ht : t ∈ w.store.triggers)
    (hhandles : t.handles = some handles) (hroom : w.RoomForTarget handles.topic)
    (hpaired : w.Corresponds handles.topic t.id) (user : UserId) (spec : TargetSpec) :
    (addTarget config user t.id spec).Bears noAbsence
      (fun _ _ v => v.Corresponds handles.topic t.id)
      (fun _ _ v => v.Corresponds handles.topic t.id) 1 w := by
  have hrooms : forall found given, found ∈ w.store.triggers -> found.id = t.id ->
      found.handles = some given -> w.RoomForTarget given.topic := by
    intro found given hfound hid hgiven
    have hsame : found = t := List.inj_on_of_nodup_map hw.store.trigger_ids hfound ht hid
    rw [hsame, hhandles] at hgiven
    cases hgiven
    exact hroom
  apply (addTarget_joins config spec (.inl (Nat.le_refl 1)) hrooms).mono
  · intro _ row v hends
    cases hends with
    | all _ hjoined => exact hjoined.corresponds hw.store ht hhandles hpaired
  · intro _ e v hends
    cases hends with
    | none hsame =>
        rcases hsame with ⟨faults, ids, rfl⟩
        exact hpaired

end Addition

section Removal

variable {owner : TriggerId} {row : Target}

/-- A removal takes both, the subscription and the row, or nothing, unless the row could
not be deleted. -/
def Removed (topic : TopicHandle) (id : TriggerId) (row : Target) (w : World)
    (result : Except TriggerError Unit) (v : World) : Prop :=
  v.Corresponds topic id ∨
    (exists e, result = .error (.store e)) ∧ v.store = w.store ∧
      v.broker = { w.broker with
        subscriptions := w.broker.subscriptions.filter (·.handle != row.subscription) }

theorem bears_getRow {fails : Call -> ServiceError -> Prop} {n : Nat}
    {Q : Nat -> Target -> World -> Prop} {E : Nat -> TriggerError -> World -> Prop}
    (hw : w.Integrity) (hrow : row ∈ w.store.targets) (hread : Q n row w)
    (herror : forall m e, E m e w) :
    (do
      let found : Option Target ← Operation.ask (.getTarget row.id)
      Operation.orFail found (noTarget row.id) : Operation Target).Bears fails Q E n w := by
  have hfound : w.store.target? row.id = some row := by
    cases hsearch : w.store.target? row.id with
    | none =>
        have hnot := List.find?_eq_none.mp hsearch row hrow
        simp at hnot
    | some found =>
        rcases Store.target?_eq_some hsearch with ⟨hmem, hid⟩
        exact congrArg some (List.inj_on_of_nodup_map hw.store.target_ids hmem hrow hid)
  apply Operation.Bears.bind
  apply Operation.Bears.ask (c := .getTarget row.id)
  · intro found v hdone
    cases hdone
    rw [hfound]
    exact Operation.Bears.pure hread
  · exact fun e _ => herror n _
  · exact fun m e _ _ => herror m _

theorem removeTargetOwned_bears (hw : w.Integrity) (hrow : row ∈ w.store.targetsOf owner)
    (hpaired : w.Corresponds topic owner) (user : UserId) (n : Nat) :
    (removeTargetOwned user row.id).Bears noAbsence
      (fun _ a => Removed topic owner row w (.ok a))
      (fun _ e => Removed topic owner row w (.error e)) n w := by
  have hserves := World.corresponds_iff.mp hpaired
  have hhandles := hserves.nodup hw.broker id fun _ => rfl
  have hrows := Store.filter_subscription (hw.store.nodup_targetsOf owner) hhandles hrow
  have hleft := hserves.unsubscribe row.subscription id fun _ => rfl
  rw [hrows] at hleft
  rw [removeTargetOwned, ← bind_assoc]
  apply Operation.Bears.bind
  apply bears_getRow hw (Store.mem_targetsOf.mp hrow).1
  · apply Operation.Bears.bind
    apply bears_visibleTrigger
    · intro t _ _
      apply Operation.Bears.bind
      apply Operation.Bears.ensureGone (Call.clears_unsubscribe row.subscription w)
      · exact fun _ h => h
      · apply Operation.Bears.ensureGone (Call.clears_deleteTarget row.id _)
        · exact fun _ h => h
        · apply Or.inl
          rw [World.corresponds_iff, Store.targetsOf_filter]
          exact hleft
        · exact fun _ e _ _ => Or.inr ⟨⟨e, rfl⟩, rfl, rfl⟩
      · exact fun _ _ _ _ => Or.inl hpaired
    · exact fun _ _ => Or.inl hpaired
  · exact fun _ _ => Or.inl hpaired

theorem removeTarget_bears (hw : w.Integrity) (hrow : row ∈ w.store.targetsOf owner)
    (hpaired : w.Corresponds topic owner) (user : UserId) (n : Nat) :
    (removeTarget user row.id).Bears noAbsence
      (fun _ a => Removed topic owner row w (.ok a))
      (fun _ e => Removed topic owner row w (.error e)) n w := by
  rw [removeTarget, getTarget, ← bind_assoc]
  apply Operation.Bears.bind
  apply Operation.Bears.bind
  apply bears_getRow hw (Store.mem_targetsOf.mp hrow).1
  · apply Operation.Bears.bind
    apply Operation.Bears.adapt
    apply bears_visibleTrigger
    · intro t _ _
      apply Operation.Bears.pure
      apply Operation.Bears.detached
      apply Operation.Bears.locked (Or.inl hpaired)
      intro locks _
      exact removeTargetOwned_bears (w := { w with locks }) ⟨hw.store, hw.broker, hw.engine⟩
        hrow hpaired user n
    · exact fun _ _ => Or.inl hpaired
  · exact fun _ _ => Or.inl hpaired

end Removal

/-- The correspondence of rows and subscriptions under additions and removals of targets.
An addition during which at most one call fails keeps it.  A removal keeps it too, unless
the row could not be deleted once its subscription was gone: then the removal fails with
an error of the store, every row is still there, and only that subscription is missing. -/
theorem correspondence_of_target_changes {config : Config} {t : Trigger} {handles : Handles}
    (hw : w.Integrity) (ht : t ∈ w.store.triggers) (hhandles : t.handles = some handles)
    (hfaults : w.faults.Within noAbsence config.callTimeout)
    (hpaired : w.Corresponds handles.topic t.id) :
    (w.RoomForTarget handles.topic -> forall user spec,
      (addTarget config user t.id spec).run.harms config.callTimeout w ≤ 1 ->
        ((addTarget config user t.id spec).run.run config.callTimeout w).2.Corresponds
          handles.topic t.id) ∧
      forall user row, row ∈ w.store.targetsOf t.id ->
        Removed handles.topic t.id row w
          ((removeTarget user row.id).run.run config.callTimeout w).1
          ((removeTarget user row.id).run.run config.callTimeout w).2 := by
  constructor
  · intro hroom user spec hharms
    exact Operation.Bears.run (R := fun _ v => v.Corresponds handles.topic t.id)
      (addTarget_bears config hw ht hhandles hroom hpaired user spec) hfaults hharms
      fun _ _ _ h => h
  · intro user row hrow
    exact Operation.Bears.run (removeTarget_bears hw hrow hpaired user _) hfaults
      (Nat.le_refl _) fun _ _ _ h => h

/-!
# An example
-/

theorem alarmedHouse_integrity (operation : String) : (alarmedHouse operation).Integrity :=
  (alarmedHouse_reachable operation).integrity

theorem alarmedHouse_within (operation : String) :
    (alarmedHouse operation).faults.Within noAbsence Config.standard.callTimeout := by
  intro c fault hfault
  simp only [alarmedHouse, FaultPlan.fault?, FaultPlan.set, FaultPlan.clear, FaultPlan.empty,
    List.filter_nil, List.lookup_cons, List.lookup_nil] at hfault
  split at hfault
  · cases hfault
    rfl
  · cases hfault

theorem alarm_changes_targets :
    let topic := ResourceNaming.standard.topicHandle heatRow.id
    let row : Target := ⟨⟨Uuid.ofNat 2⟩, heatRow.id, .email, "me@example.com",
      Broker.subscriptionHandle topic (Uuid.ofNat 1)⟩
    let additions := alarmedHouse "store.insert_target"
    let removals := alarmedHouse "store.delete_target"
    (heatRow ∈ additions.store.triggers ∧ additions.Corresponds topic heatRow.id ∧
      additions.RoomForTarget topic ∧
      (addTarget .standard ⟨7⟩ heatRow.id ⟨"sms", "+15551234567"⟩).run.harms
        Config.standard.callTimeout additions = 1 ∧
      ((addTarget .standard ⟨7⟩ heatRow.id ⟨"sms", "+15551234567"⟩).run.run
        Config.standard.callTimeout additions).2.Corresponds topic heatRow.id) ∧
    heatRow ∈ removals.store.triggers ∧ removals.Corresponds topic heatRow.id ∧
      row ∈ removals.store.targetsOf heatRow.id ∧
      Removed topic heatRow.id row removals
        ((removeTarget ⟨7⟩ row.id).run.run Config.standard.callTimeout removals).1
        ((removeTarget ⟨7⟩ row.id).run.run Config.standard.callTimeout removals).2 := by
  intro topic row additions removals
  have hadditions : heatRow ∈ additions.store.triggers ∧
      additions.Corresponds topic heatRow.id ∧
      (addTarget .standard ⟨7⟩ heatRow.id ⟨"sms", "+15551234567"⟩).run.harms
        Config.standard.callTimeout additions = 1 := by
    decide +kernel
  have hremovals : heatRow ∈ removals.store.triggers ∧
      removals.Corresponds topic heatRow.id ∧ row ∈ removals.store.targetsOf heatRow.id := by
    decide +kernel
  have hroom : additions.RoomForTarget topic := ⟨by decide +kernel, by decide +kernel⟩
  rcases hadditions with ⟨hrow, hpaired, hharms⟩
  have hkept := (correspondence_of_target_changes (alarmedHouse_integrity _) hrow rfl
    (alarmedHouse_within _) hpaired).1 hroom ⟨7⟩
    ⟨"sms", "+15551234567"⟩ (Nat.le_of_eq hharms)
  refine ⟨⟨hrow, hpaired, hroom, hharms, hkept⟩, ?_⟩
  rcases hremovals with ⟨hrow, hpaired, htarget⟩
  exact ⟨hrow, hpaired, htarget, (correspondence_of_target_changes (alarmedHouse_integrity _)
    hrow rfl (alarmedHouse_within _) hpaired).2 ⟨7⟩ row htarget⟩

/-- A removal during which one call fails leaves a row without a subscription. -/
theorem alarm_diverges :
    let topic := ResourceNaming.standard.topicHandle heatRow.id
    let w := alarmedHouse "store.delete_target"
    heatRow ∈ w.store.triggers ∧ heatRow.handles.isSome ∧ w.Corresponds topic heatRow.id ∧
      (removeTarget ⟨7⟩ ⟨Uuid.ofNat 2⟩).run.harms Config.standard.callTimeout w = 1 ∧
      ((removeTarget ⟨7⟩ ⟨Uuid.ofNat 2⟩).run.run Config.standard.callTimeout w).1.isOk = false ∧
      ¬((removeTarget ⟨7⟩ ⟨Uuid.ofNat 2⟩).run.run Config.standard.callTimeout
        w).2.Corresponds topic heatRow.id := by
  decide +kernel

end Lifecycle
end TelemetryTriggers
