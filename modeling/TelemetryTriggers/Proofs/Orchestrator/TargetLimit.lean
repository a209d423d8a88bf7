import TelemetryTriggers.Proofs.Lifecycle.CreateSuccess
import TelemetryTriggers.Proofs.Orchestrator.Committed
import TelemetryTriggers.Proofs.Orchestrator.Names
import TelemetryTriggers.Proofs.Orchestrator.Stages
import TelemetryTriggers.Proofs.Saga.Calm

/-!
# The limit on targets

An addition counts the targets of its trigger and inserts one more some calls later.  What
it has counted stays an upper bound, since it holds the lock of the trigger and nobody else
inserts a target of a trigger without its lock.

Main definitions: `World.Within`; `capacity`, the discipline; `Room`, what an operation knows
about the number of targets.  The main statement is `System.Reachable.target_limit`.
-/

namespace TelemetryTriggers

/-!
# The discipline
-/

def World.Within (limit : Nat) (w : World) : Prop :=
  forall id, (w.store.targetsOf id).length ≤ limit

def Call.Enlarges : Call -> Prop
  | insertTarget _ => True
  | _ => False

theorem Call.Enlarges.adds {c : Call} (h : c.Enlarges) : c.Adds := by
  cases c with
  | insertTarget _ => trivial
  | _ => cases h

theorem Call.length_targetsOf (c : Call) (w : World) (id : TriggerId) :
    ((c.perform w).2.store.targetsOf id).length ≤ (w.store.targetsOf id).length ∨
      exists row, c = .insertTarget row ∧ row.trigger = id ∧
        ((c.perform w).2.store.targetsOf id).length ≤ (w.store.targetsOf id).length + 1 := by
  simp only [Store.targetsOf]
  rcases c.targets_perform w with heq | ⟨row, hc, heq⟩ | ⟨target, _, heq⟩
  · rw [heq]
    exact Or.inl (Nat.le_refl _)
  · rw [heq, List.filter_append, List.length_append]
    by_cases hid : row.trigger = id
    · exact Or.inr ⟨row, hc, hid, Nat.add_le_add_left (List.length_filter_le _ _) _⟩
    · have hother : [row].filter (·.trigger == id) = [] := by simpa using hid
      rw [hother]
      exact Or.inl (Nat.le_refl _)
  · rw [heq, List.filter_comm]
    exact Or.inl (List.length_filter_le _ _)

theorem Call.length_targetsOf_le {c : Call} (h : ¬ c.Enlarges) (w : World) (id : TriggerId) :
    ((c.perform w).2.store.targetsOf id).length ≤ (w.store.targetsOf id).length := by
  rcases c.length_targetsOf w id with hle | ⟨row, rfl, _⟩
  · exact hle
  · exact absurd trivial h

def capacity (limit : Nat) : Discipline where
  inv w := w.Integrity ∧ w.Within limit
  between st w v := forall id, id ∈ st.locks ->
    (v.store.targetsOf id).length ≤ (w.store.targetsOf id).length
  allowed _ st c w := forall row, c = .insertTarget row ->
    row.trigger ∈ st.locks ∧ (w.store.targetsOf row.trigger).length < limit
  drawable _ _ := True

theorem lawful_capacity (limit : Nat) : (capacity limit).Lawful where
  inv_same := by
    rintro w v hv ⟨hw, hwithin⟩
    refine ⟨hw.same hv, ?_⟩
    intro id
    rw [hv.store]
    exact hwithin id
  inv_perform := by
    rintro request st c w ⟨hw, hwithin⟩ hallowed
    refine ⟨c.integrity_perform hw, ?_⟩
    intro id
    rcases c.length_targetsOf w id with hle | ⟨row, hc, rfl, hle⟩
    · exact Nat.le_trans hle (hwithin id)
    · exact Nat.le_trans hle (hallowed row hc).2
  between_same := by
    intro st w v hv id _
    rw [hv.store]
  between_trans := fun _ _ _ _ hv hu id hid => Nat.le_trans (hu id hid) (hv id hid)
  between_perform := by
    intro request st rival c w _ hallowed hapart id hid
    rcases c.length_targetsOf w id with hle | ⟨row, hc, rfl, _⟩
    · exact hle
    · exact absurd hid (hapart _ (hallowed row hc).1)
  earlier := fun _ _ => trivial

/-!
# Under the lock
-/

def Room (id : TriggerId) (n : Nat) : Assertion :=
  fun st w => st.locks = [id] ∧ (w.store.targetsOf id).length ≤ n

section Under

variable {fails : Call -> ServiceError -> Prop} {limit n : Nat} {request : Request}
  {id : TriggerId} {undos : List Undo}

theorem keeps_locked :
    ((capacity limit).setting fails request).Keeps (Locked id) (¬ ·.Enlarges) where
  stable := stable_locked
  allowed hc _ _ := fun _ heq => absurd (heq ▸ trivial) hc
  perform _ hlocked _ := hlocked

theorem stable_room : ((capacity limit).setting fails request).Stable (Room id n) := by
  rintro st w v ⟨hlocks, hroom⟩ hv
  have hmine : id ∈ st.locks := by simp [hlocks]
  exact ⟨hlocks, Nat.le_trans (hv id hmine) hroom⟩

theorem keeps_room :
    ((capacity limit).setting fails request).Keeps (Room id n) (¬ ·.Enlarges) where
  stable := stable_room
  allowed hc _ _ := fun _ heq => absurd (heq ▸ trivial) hc
  perform hc hroom _ := ⟨hroom.1, Nat.le_trans (Call.length_targetsOf_le hc _ id) hroom.2⟩

theorem orUndo_room {α : Type} {op : Operation α} {Q : α -> Assertion}
    (hop : Operation.Triple ((capacity limit).setting fails request) (Room id n) op Q
      fun _ => Room id n) :
    Operation.Triple ((capacity limit).setting fails request) (Room id n) (op.orUndo undos) Q
      fun _ => Locked id := by
  apply hop.orUndo
  intro e
  apply (keeps_room.unwind fun undo _ hc => undo.not_adds (Call.Enlarges.adds hc)).consequence
  · exact fun st w h => h
  · exact fun _ st w h => h.1

theorem ask_room {c : Call} (hc : ¬ c.Enlarges) :
    Operation.Triple ((capacity limit).setting fails request) (Room id n)
      ((Operation.ask c).orUndo undos) (fun _ => Room id n) fun _ => Locked id :=
  orUndo_room (keeps_room.ask hc)

theorem insertTarget_room {row : Target} (hrow : row.trigger = id) (hn : n < limit) :
    Operation.Triple ((capacity limit).setting fails request) (Room id n)
      ((Operation.ask (.insertTarget row)).orUndo undos) (fun _ => Room id (n + 1))
      fun _ => Locked id := by
  subst hrow
  apply orUndo_room
  apply Operation.Triple.ask stable_room
  · intro st w hroom _ other heq
    cases heq
    refine ⟨by simp [hroom.1], Nat.lt_of_le_of_lt hroom.2 hn⟩
  · exact fun st w e hroom _ => hroom
  · intro st w r v hroom _ hperform
    refine ⟨hroom.1, ?_⟩
    have hgrown := (Call.insertTarget row).length_targetsOf w row.trigger
    rw [hperform] at hgrown
    rcases hgrown with hle | ⟨_, _, _, hle⟩
    · exact Nat.le_succ_of_le (Nat.le_trans hle hroom.2)
    · exact Nat.le_trans hle (Nat.succ_le_succ hroom.2)
  · intro st w e v hroom _ hperform
    rw [Call.perform_error hperform]
    exact hroom

theorem subscribeTargets_room {topic : TopicHandle} (targets : List ValidTarget)
    (hn : n + targets.length ≤ limit) :
    Operation.Triple ((capacity limit).setting fails request) (Room id n)
      (Lifecycle.subscribeTargets id topic targets undos)
      (fun _ => Room id (n + targets.length)) fun _ => Locked id := by
  induction targets generalizing n undos with
  | nil => exact Operation.Triple.pure fun st w h => h
  | cons target targets ih =>
      rw [List.length_cons, Nat.add_comm targets.length, ← Nat.add_assoc] at hn ⊢
      rw [Lifecycle.subscribeTargets]
      apply Operation.Triple.bind (ask_room (c := .subscribe _ _ _) fun h => h)
      intro subscription
      apply Operation.Triple.bind (Q := fun _ => Room id n)
      · exact Operation.Triple.fresh stable_room fun st w h _ _ => h
      intro u
      apply Operation.Triple.bind (Q := fun _ => Room id (n + 1))
      · apply insertTarget_room
        · rfl
        · omega
      intro _
      apply Operation.Triple.bind (ih hn)
      exact fun _ => Operation.Triple.pure fun st w h => h

theorem visibleTrigger_locked (user : UserId) :
    Operation.Triple ((capacity limit).setting fails request) (Locked id)
      (Lifecycle.visibleTrigger user id) (fun _ => Locked id) fun _ => Locked id := by
  rw [Lifecycle.visibleTrigger]
  apply Operation.Triple.bind (keeps_locked.ask (c := .getTrigger id) fun h => h)
  intro row
  exact Operation.Triple.orFail (fun _ _ st w h => h) fun _ st w h => h

theorem listTargets_room :
    Operation.Triple ((capacity limit).setting fails request) (Locked id)
      (.ask (.listTargets id)) (fun targets => Room id targets.length) fun _ => Locked id := by
  apply Operation.Triple.ask stable_locked
  · exact fun st w _ _ row heq => nomatch heq
  · exact fun st w e h _ => h
  · intro st w targets v h _ hperform
    cases hperform
    exact ⟨h, Nat.le_refl _⟩
  · intro st w e v h _ hperform
    cases hperform

theorem addTargetOwned_room (user : UserId) (target : ValidTarget) :
    Operation.Triple ((capacity limit).setting fails request) (Locked id)
      (Lifecycle.addTargetOwned limit user id target) (fun _ => Locked id)
      fun _ => Locked id := by
  rw [Lifecycle.addTargetOwned]
  apply Operation.Triple.bind (visibleTrigger_locked user)
  intro trigger
  apply Operation.Triple.bind (Q := fun _ => Locked id)
  · exact Operation.Triple.orFail (fun _ _ st w h => h) fun _ st w h => h
  intro handles
  apply Operation.Triple.bind listTargets_room
  intro targets
  split
  · exact Operation.Triple.fail fun st w h => h.1
  · rename_i hroom
    apply Operation.Triple.bind (Q := fun _ => Room id targets.length)
    · apply (keeps_room.ask (c := .subscribe _ _ _) fun h => h).consequence
      · exact fun st w h => h
      · exact fun _ st w h => h
      · exact fun _ st w h => h.1
    intro subscription
    apply Operation.Triple.bind (Q := fun _ => Room id targets.length)
    · exact Operation.Triple.fresh stable_room fun st w h _ _ => h
    intro u
    apply Operation.Triple.bind (Q := fun _ => Room id (targets.length + 1))
    · apply insertTarget_room
      · rfl
      · exact Nat.not_le.mp hroom
    · exact fun _ => Operation.Triple.pure fun st w h => h.1

theorem insertTrigger_room {row : Trigger} (hrow : row.id = id) :
    Operation.Triple ((capacity limit).setting fails request) (Locked id)
      (.ask (.insertTrigger row)) (fun _ => Room id 0) fun _ => Locked id := by
  apply Operation.Triple.ask stable_locked
  · exact fun st w _ _ row heq => nomatch heq
  · exact fun st w e h _ => h
  · intro st w r v h hw hperform
    rcases Call.insertTrigger_ok hperform with ⟨hfree, rfl⟩
    rw [hrow] at hfree
    refine ⟨h, Nat.le_of_eq ?_⟩
    exact congrArg List.length (hw.1.store.targetsOf_of_absent hfree)
  · exact fun st w e v h _ _ => h

theorem provision_room {naming : ResourceNaming} {draft : Trigger} {thing : Thing}
    {targets : List ValidTarget} (hdraft : draft.id = id) (htargets : targets.length ≤ limit) :
    Operation.Triple ((capacity limit).setting fails request) (Room id 0)
      (Lifecycle.provision naming draft thing targets undos) (fun _ => Locked id)
      fun _ => Locked id := by
  rw [Lifecycle.provision, hdraft]
  apply Operation.Triple.bind (ask_room (c := .createTopic _) fun h => h)
  intro topic
  apply Operation.Triple.bind (subscribeTargets_room targets (by omega))
  intro made
  apply Operation.Triple.bind (Q := fun _ => Room id (0 + targets.length))
  · apply orUndo_room
    exact Operation.Triple.ofExcept (fun _ _ st w h => h) fun _ _ st w h => h
  intro predicate
  apply Operation.Triple.bind (ask_room (c := .installRule _ _ _) fun h => h)
  intro rule
  apply Operation.Triple.bind (ask_room (c := .setHandles _ _) fun h => h)
  exact fun _ => Operation.Triple.pure fun st w h => h.1

theorem createWithId_room {naming : ResourceNaming} {user : UserId} {valid : ValidRequest}
    (htargets : valid.targets.length ≤ limit) :
    Operation.Triple ((capacity limit).setting fails request) (Locked id)
      (Lifecycle.createWithId naming user valid id) (fun _ => Locked id)
      fun _ => Locked id := by
  rw [Lifecycle.createWithId, Lifecycle.pairedThing]
  apply Operation.Triple.bind (Q := fun _ => Locked id)
  · apply Operation.Triple.bind (keeps_locked.ask (c := .thingNamed _) fun h => h)
    exact fun row => Operation.Triple.orFail (fun _ _ st w h => h) fun _ st w h => h
  intro thing
  apply Operation.Triple.bind (Q := fun _ => Room id 0)
  · apply insertTrigger_room
    rfl
  · exact fun _ => provision_room rfl htargets

end Under

/-!
# Requests
-/

section Requests

variable {fails : Call -> ServiceError -> Prop} {config : Config} {request : Request}

theorem targets_of_validate {given : CreateRequest} {limit : Nat} {valid : ValidRequest}
    (h : given.validate limit = .ok valid) : valid.targets.length ≤ limit := by
  rw [Lifecycle.length_validate h]
  exact (CreateRequest.parts_of_validate h).2.2.1

theorem create_room (given : CreateRequest) :
    Operation.Triple ((capacity config.maxTargets).setting fails request) Unlocked
      (Lifecycle.create config given) (fun _ => Unlocked) fun _ => Unlocked := by
  rw [Lifecycle.create]
  apply Operation.Triple.bind_given (Q := fun _ => Unlocked)
  · apply Operation.Triple.ofExcept
    · exact fun valid hvalid st w h => ⟨h, targets_of_validate hvalid⟩
    · exact fun _ _ st w h => h
  intro valid hvalid
  apply detached_standing
  apply Operation.Triple.bind
    (Q := fun _ st _ => (st.locks = [] ∧ st.detached = true) ∧ True)
  · apply Operation.Triple.fresh
    · exact fun st w v h _ => h
    · exact fun st w h _ _ => h
  intro u
  apply locked_standing (f := fun _ => True)
  apply (createWithId_room hvalid).pre
  exact fun st w h => h.1

theorem addTarget_room (user : UserId) (id : TriggerId) (spec : TargetSpec) :
    Operation.Triple ((capacity config.maxTargets).setting fails request) Unlocked
      (Lifecycle.addTarget config user id spec) (fun _ => Unlocked) fun _ => Unlocked := by
  rw [Lifecycle.addTarget]
  apply Operation.Triple.bind (Q := fun _ => Unlocked)
  · exact Operation.Triple.ofExcept (fun _ _ st w h => h) fun _ _ st w h => h
  intro target
  apply detached_standing
  apply locked_standing (f := fun _ => True)
  apply (addTargetOwned_room user target).pre
  exact fun st w h => h.1

theorem operation_room (h : request.Adds) :
    Operation.Triple ((capacity config.maxTargets).setting fails request) Unlocked
      (request.operation config) (fun _ => Unlocked) fun _ => Unlocked := by
  cases request with
  | create given => exact (create_room given).bind fun _ => Operation.Triple.pure fun _ _ h => h
  | addTarget user id spec =>
      exact (addTarget_room user id spec).bind fun _ => Operation.Triple.pure fun _ _ h => h
  | _ => cases h

theorem operation_within {H : History} (hknown : H request []) (w : World) :
    (request.operation config).run.Meets
      (((order config H).and (capacity config.maxTargets)).setting fails request) settled
      ⟨[], [], false⟩ w := by
  have horder : (request.operation config).run.Meets ((order config H).setting fails request)
      settled ⟨[], [], false⟩ w := (operation_order request hknown).meets_settled rfl
  by_cases hadds : request.Adds
  · have hroom : (request.operation config).run.Meets
        ((capacity config.maxTargets).setting fails request) settled ⟨[], [], false⟩ w :=
      (operation_room hadds).meets_settled rfl
    exact (Discipline.meets_and horder hroom).mono fun _ _ _ h => h.1
  · apply Discipline.meets_and_of_only horder (operation_adds config request hadds).run
    intro c st w hc row heq
    subst heq
    exact absurd trivial hc

end Requests

/-!
# A trigger that is full
-/

section Full

variable {deadline : Nat} {w : World} {user : UserId} {row : Trigger}

theorem validation_of_parse {kind : String} {e : TriggerError}
    (h : TargetKind.parse kind = .error e) : exists flaw, e = .validation flaw := by
  simp only [TargetKind.parse] at h
  split at h
  · cases h
  · split at h
    · cases h
    · cases h
      exact ⟨_, rfl⟩

theorem validation_of_validate {spec : TargetSpec} {e : TriggerError}
    (h : spec.validate = .error e) : exists flaw, e = .validation flaw := by
  cases hkind : TargetKind.parse spec.kind with
  | error e' =>
      rw [TargetSpec.validate, hkind] at h
      cases h
      exact validation_of_parse hkind
  | ok kind =>
      simp only [TargetSpec.validate, hkind, bind, Except.bind] at h
      split at h
      · cases h
        exact ⟨_, rfl⟩
      · split at h
        · cases h
          exact ⟨_, rfl⟩
        · split at h
          · cases h
            exact ⟨_, rfl⟩
          · cases h

theorem Operation.run_ask_of_reads {α : Type} {c : Call} {r : c.Reply}
    {f : c.Reply -> Operation α} (hreads : c.Reads) (hreply : (c.perform w).1 = .ok r)
    (hworks : c.Works deadline w) :
    (Operation.ask c >>= f).run.run deadline w =
      (f r).run.run deadline { w with faults := (w.faults.check c.operation).2 } := by
  rw [Operation.run_ask_bind]
  simp only [Saga.run, Call.attempt_of_works hworks, hreply, hreads.perform_eq]

def FaultPlan.afterCount (p : FaultPlan) (id : TriggerId) : FaultPlan :=
  ((p.check (Call.getTrigger id).operation).2.check (Call.listTargets id).operation).2

theorem run_addTargetOwned_of_full {limit : Nat} (hw : w.store.Integrity)
    (hcalm : w.faults.Within noFault deadline) (hrow : row ∈ w.store.triggers)
    (hvisible : Lifecycle.isVisibleTo user row = true)
    (hfull : limit ≤ (w.store.targetsOf row.id).length) (target : ValidTarget) :
    (Lifecycle.addTargetOwned limit user row.id target).run.run deadline w =
      (.error (.validation (.targetLimit row.id limit)),
        { w with faults := w.faults.afterCount row.id }) := by
  have hprovisioned : row.handles.isSome = true := by
    rw [Lifecycle.isVisibleTo, Bool.and_eq_true] at hvisible
    exact hvisible.2
  rcases Option.isSome_iff_exists.mp hprovisioned with ⟨handles, hhandles⟩
  have hfound : (w.store.trigger? row.id).filter (Lifecycle.isVisibleTo user) = some row := by
    rw [hw.trigger?_eq_some hrow, Option.filter_some, if_pos hvisible]
  have hlater := hcalm.check (Call.getTrigger row.id).operation
  have hget : (Call.getTrigger row.id).Reads := trivial
  have hlist : (Call.listTargets row.id).Reads := trivial
  rw [Lifecycle.addTargetOwned, Lifecycle.visibleTrigger, bind_assoc]
  refine (Operation.run_ask_of_reads hget rfl (Call.works_of_harmless hcalm _)).trans ?_
  rw [hfound]
  simp only [Operation.orFail, hhandles, pure_bind]
  refine (Operation.run_ask_of_reads hlist rfl (Call.works_of_harmless hlater _)).trans ?_
  rw [if_pos hfull]
  rfl

theorem run_addTarget_of_full {config : Config} (hw : w.store.Integrity)
    (hcalm : w.faults.Within noFault deadline) (hrow : row ∈ w.store.triggers)
    (hvisible : Lifecycle.isVisibleTo user row = true)
    (hfull : config.maxTargets ≤ (w.store.targetsOf row.id).length)
    (hfree : w.locks.isHeld row.id = false) {spec : TargetSpec} {target : ValidTarget}
    (hspec : spec.validate = .ok target) :
    (Lifecycle.addTarget config user row.id spec).run.run deadline w =
      (.error (.validation (.targetLimit row.id config.maxTargets)),
        { w with faults := w.faults.afterCount row.id }) := by
  have howned := run_addTargetOwned_of_full (w := { w with locks := ⟨row.id :: w.locks.held⟩ })
    hw hcalm hrow hvisible hfull target
  have hopen : (Lifecycle.addTarget config user row.id spec).run =
      .detach (Operation.locked row.id
        (Lifecycle.addTargetOwned config.maxTargets user row.id target)).run := by
    rw [Lifecycle.addTarget, hspec]
    rfl
  rw [hopen, Saga.run]
  show Saga.run deadline (.acquire row.id _) w = _
  simp only [Saga.run, LockTable.acquire?_of_free hfree, if_true]
  refine (Saga.run_bind deadline _ _ _).trans ?_
  rw [howned]
  show (_, { w with faults := _, locks := LockTable.release ⟨row.id :: w.locks.held⟩ row.id }) = _
  rw [LockTable.release_cons hfree]

end Full

/-!
# Orchestrators
-/

namespace System

variable {config : Config} {fails : Call -> ServiceError -> Prop} {things : List Thing}
  {ids : IdSource} {s : System}

theorem Reachable.within (hs : Reachable config fails things ids s) :
    s.world.Within config.maxTargets := by
  have horder : (order config s.Drew).Lawful :=
    lawful_order config fun h hfirst => h.earlier hfirst
  have hgoverned : Governed ((order config s.Drew).and (capacity config.maxTargets)) fails s := by
    apply hs.governed (horder.and (lawful_capacity config.maxTargets))
    · refine ⟨World.sound_ofThings config s.Drew things ids,
        World.integrity_ofThings things ids, ?_⟩
      intro id
      rw [Store.targetsOf, (World.rows_ofThings things ids).2]
      exact Nat.zero_le _
    · exact fun request w hknown => operation_within hknown.1 w
    · exact fun request drawn hdrew => ⟨hdrew, trivial⟩
  exact hgoverned.inv.2.2

/-- No trigger, be it a draft or not, ever has more targets than the limit.  Where there are as
many, an addition that meets no fault and whose trigger nobody has locked is refused; all that
it leaves is the log of at most two questions to the store. -/
theorem Reachable.target_limit (hs : Reachable config fails things ids s) :
    (forall id, (s.world.store.targetsOf id).length ≤ config.maxTargets) ∧
      forall user row spec deadline, row ∈ s.world.store.triggers ->
        Lifecycle.isVisibleTo user row = true ->
        (s.world.store.targetsOf row.id).length = config.maxTargets ->
        s.world.locks.isHeld row.id = false -> s.world.faults.Within noFault deadline ->
          exists flaw faults,
            (Lifecycle.addTarget config user row.id spec).run.run deadline s.world =
              (.error (.validation flaw), { s.world with faults }) ∧
            (forall target, spec.validate = .ok target ->
              flaw = .targetLimit row.id config.maxTargets) ∧
            (faults.calls = s.world.faults.calls ∨
              faults.calls = s.world.faults.calls ++
                [(Call.getTrigger row.id).operation, (Call.listTargets row.id).operation]) := by
  refine ⟨hs.within, ?_⟩
  intro user row spec deadline hrow hvisible hfull hfree hcalm
  have hw := hs.ordered.inv.integrity.store
  cases hspec : spec.validate with
  | error e =>
      rcases validation_of_validate hspec with ⟨flaw, rfl⟩
      refine ⟨flaw, s.world.faults, ?_, nofun, Or.inl rfl⟩
      rw [Lifecycle.addTarget, hspec]
      rfl
  | ok target =>
      refine ⟨_, _, run_addTarget_of_full hw hcalm hrow hvisible (Nat.le_of_eq hfull.symm) hfree
        hspec, fun _ _ => rfl, Or.inr ?_⟩
      rw [FaultPlan.afterCount, FaultPlan.calls_check, FaultPlan.calls_check, List.append_assoc]
      rfl

def strict : Config :=
  { Config.standard with maxTargets := 1 }

def crowded : System :=
  home.play strict (.start (.create Lifecycle.heatAlarm) :: List.replicate 12 (.go 0))

theorem crowded_target_limit :
    (forall id, (crowded.world.store.targetsOf id).length ≤ 1) ∧
      exists row flaw faults, row ∈ crowded.world.store.triggers ∧
        Lifecycle.isVisibleTo ⟨7⟩ row = true ∧
        (crowded.world.store.targetsOf row.id).length = 1 ∧
        crowded.world.locks.isHeld row.id = false ∧
        crowded.world.faults.Within noFault 10000 ∧
        (Lifecycle.addTarget strict ⟨7⟩ row.id ⟨"email", "you@example.com"⟩).run.run 10000
            crowded.world = (.error (.validation flaw), { crowded.world with faults }) ∧
        (forall target, TargetSpec.validate ⟨"email", "you@example.com"⟩ = .ok target ->
          flaw = .targetLimit row.id 1) ∧
        (faults.calls = crowded.world.faults.calls ∨
          faults.calls = crowded.world.faults.calls ++
            [(Call.getTrigger row.id).operation, (Call.listTargets row.id).operation]) := by
  have hstart : Reachable strict noFault [⟨⟨1⟩, "thermostat", ⟨7⟩⟩] ⟨Uuid.ofNat, 0⟩ home := .start
  have hs : Reachable strict noFault _ _ crowded := hstart.play _
  have halarm : (crowded.world.store.triggers.any fun row => Lifecycle.isVisibleTo ⟨7⟩ row &&
      (crowded.world.store.targetsOf row.id).length == 1 &&
      !crowded.world.locks.isHeld row.id) = true := by
    decide +kernel
  have hcalm : crowded.world.faults.planned = [] := by decide +kernel
  rcases List.any_eq_true.mp halarm with ⟨row, hrow, halarm⟩
  simp only [Bool.and_eq_true, Bool.not_eq_true', beq_iff_eq] at halarm
  rcases halarm with ⟨⟨hvisible, hfull⟩, hfree⟩
  rcases hs.target_limit with ⟨hlimit, hrefused⟩
  have hwithin : crowded.world.faults.Within noFault 10000 :=
    FaultPlan.within_of_calm hcalm 10000
  rcases hrefused ⟨7⟩ row ⟨"email", "you@example.com"⟩ 10000 hrow hvisible hfull hfree hwithin with
    ⟨flaw, faults, hrun, hflaw, hcalls⟩
  exact ⟨hlimit, row, flaw, faults, hrow, hvisible, hfull, hfree, hwithin, hrun, hflaw, hcalls⟩

end System
end TelemetryTriggers
