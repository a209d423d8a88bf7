import TelemetryTriggers.Proofs.Orchestrator.Holding
import TelemetryTriggers.Proofs.Services.Addition

/-!
# Deletions, changes of targets and questions keep the order

Each of them reads the rows that it works on under the lock of their trigger.  The row
of a trigger stays what it was found to be, and the rows of targets name subscriptions
to the topic of their trigger.
-/

namespace TelemetryTriggers

section Reading

variable {fails : Call -> ServiceError -> Prop} {config : Config} {H : History}
  {request : Request} {id : TriggerId} {P : Assertion}

/-!
# Rows that are read
-/

/-- The row of the trigger, as far as others cannot change it. -/
structure Trigger.Found (naming : ResourceNaming) (id : TriggerId) (t : Trigger) : Prop where
  same : t.id = id
  handles : forall handles, t.handles = some handles -> handles = naming.handles id

theorem World.Sound.found {w : World} (hw : w.Sound config H) {t : Trigger}
    (ht : w.store.trigger? id = some t) : t.Found config.naming id := by
  rcases Store.trigger?_eq_some ht with ⟨hmem, rfl⟩
  exact ⟨rfl, hw.handles t hmem⟩

theorem getTrigger_locked (hknown : H request []) :
    Operation.Triple ((order config H).setting fails request) (Locked id)
      (Operation.ask (.getTrigger id))
      (fun row st w => Holding id (fun t => row = some t) st w ∧
        forall t, row = some t -> t.Found config.naming id)
      fun _ => Locked id := by
  apply Operation.Triple.read (c := .getTrigger id) trivial hknown stable_locked
  · intro st w row h hw hrow
    have hfound : w.store.trigger? id = row := Except.ok.inj hrow
    refine ⟨⟨h, ?_⟩, ?_⟩
    · intro t ht heq
      rcases heq with rfl
      rw [← hfound]
      exact hw.integrity.store.trigger?_eq_some ht
    · intro t heq
      rcases heq with rfl
      exact hw.found hfound
  · exact fun _ st w h => h

theorem listTargets_read (hknown : H request [])
    (hP : ((order config H).setting fails request).Stable P) :
    Operation.Triple ((order config H).setting fails request) P
      (Operation.ask (.listTargets id))
      (fun rows st w => P st w ∧ forall r, r ∈ rows -> r.BelongsTo config.naming H id)
      fun _ => P := by
  apply Operation.Triple.read (c := .listTargets id) trivial hknown hP
  · intro st w rows h hw hrows
    have hrows : w.store.targetsOf id = rows := Except.ok.inj hrows
    refine ⟨h, ?_⟩
    intro r hr
    rw [← hrows] at hr
    rcases Store.mem_targetsOf.mp hr with ⟨hmem, rfl⟩
    exact hw.targets r hmem
  · exact fun _ st w h => h

theorem visibleTrigger_read (hknown : H request [])
    (hP : ((order config H).setting fails request).Stable P) (user : UserId) :
    Operation.Triple ((order config H).setting fails request) P
      (Lifecycle.visibleTrigger user id)
      (fun t st w => P st w ∧ t.Found config.naming id) fun _ => P := by
  rw [Lifecycle.visibleTrigger]
  apply Operation.Triple.bind (Q := fun (row : Option Trigger) st w => P st w ∧
    forall t, row = some t -> t.Found config.naming id)
  · apply Operation.Triple.read (c := .getTrigger id) trivial hknown hP
    · intro st w row h hw hrow
      have hfound : w.store.trigger? id = row := Except.ok.inj hrow
      refine ⟨h, ?_⟩
      intro t heq
      rcases heq with rfl
      exact hw.found hfound
    · exact fun _ st w h => h
  · intro row
    apply Operation.Triple.orFail
    · intro t ht st w h
      exact ⟨h.1, h.2 t (Option.filter_eq_some_iff.mp ht).1⟩
    · exact fun _ st w h => h.1

theorem getTarget_read (hknown : H request [])
    (hP : ((order config H).setting fails request).Stable P) (target : TargetId) :
    Operation.Triple ((order config H).setting fails request) P
      (Operation.ask (.getTarget target))
      (fun row st w => P st w ∧ forall r, row = some r ->
        r.id = target ∧ r.BelongsTo config.naming H r.trigger)
      fun _ => P := by
  apply Operation.Triple.read (c := .getTarget target) trivial hknown hP
  · intro st w row h hw hrow
    have hfound : w.store.target? target = row := Except.ok.inj hrow
    refine ⟨h, ?_⟩
    intro r heq
    rcases heq with rfl
    rcases Store.target?_eq_some hfound with ⟨hmem, hid⟩
    exact ⟨hid, hw.targets r hmem⟩
  · exact fun _ st w h => h

theorem keeps_reads (hknown : H request [])
    (hP : ((order config H).setting fails request).Stable P) :
    ((order config H).setting fails request).Keeps P Call.Reads where
  stable := hP
  allowed hreads _ _ := ⟨hknown, Or.inl hreads⟩
  perform := by
    intro c st w hreads h _
    rw [hreads.perform_eq]
    exact h

theorem concerns_deleteTopic {naming : ResourceNaming} {t : Topic}
    (hhandle : t.handle = Broker.handleFor t.name)
    (hid : naming.triggerForTopic? t.name = some id) :
    (Undo.deleteTopic t.handle).Concerns naming H id := by
  show naming.triggerForHandle? t.handle = some id
  rw [hhandle, ResourceNaming.triggerForHandle?_handleFor, hid]

end Reading

/-!
# Deletion
-/

section Delete

variable {fails : Call -> ServiceError -> Prop} {config : Config} {H : History}
  {user : UserId} {id : TriggerId}

theorem removable_of_owner {undo : Undo} (hundo : undo.Concerns config.naming H id) :
    Removable config H (.delete user id) id (·.user = user) undo where
  concerns _ := hundo
  spares := by
    intro _ t heq heq' _
    rcases heq with rfl
    rcases heq' with rfl
    rfl

theorem keeps_owned (hknown : H (.delete user id) []) :
    ((order config H).setting fails (.delete user id)).Keeps (Holding id (·.user = user))
      fun c => c.Reads ∨ exists undo : Undo, c = undo.toCall ∧
        undo.Concerns config.naming H id := by
  apply (keeps_holding hknown).mono
  rintro c (hreads | ⟨undo, rfl, hundo⟩)
  · exact Or.inl hreads
  · exact Or.inr ⟨undo, rfl, removable_of_owner hundo⟩

theorem deleteOwned_locked (hknown : H (.delete user id) []) :
    Operation.Triple ((order config H).setting fails (.delete user id)) (Locked id)
      (Lifecycle.deleteOwned config.naming user id) (fun _ => Locked id)
      fun _ => Locked id := by
  rw [Lifecycle.deleteOwned]
  apply Operation.Triple.bind (getTrigger_locked hknown)
  intro row
  apply Operation.Triple.bind (Q := fun (t : Trigger) st w =>
    Holding id (·.user = user) st w ∧ t.Found config.naming id)
  · apply Operation.Triple.orFail
    · intro t ht st w h
      rcases Option.filter_eq_some_iff.mp ht with ⟨hrow, hmine⟩
      refine ⟨⟨h.1.1, ?_⟩, h.2 t hrow⟩
      intro u hu hid
      have hsame : some t = some u := hrow.symm.trans (h.1.2 u hu hid)
      rw [← Option.some.inj hsame]
      simpa using hmine
    · exact fun _ st w h => h.1.1
  · intro t
    apply Operation.Triple.given
    intro hfound
    have hend : forall {op : Operation Unit},
        Operation.Triple ((order config H).setting fails (.delete user id))
          (Holding id (·.user = user)) op (fun _ => Holding id (·.user = user))
          (fun _ => Holding id (·.user = user)) ->
        Operation.Triple ((order config H).setting fails (.delete user id))
          (Holding id (·.user = user)) op (fun _ => Locked id) fun _ => Locked id :=
      fun hop => hop.consequence (fun _ _ h => h) (fun _ _ _ h => h.1) fun _ _ _ h => h.1
    apply hend
    apply Operation.Triple.bind_given (listTargets_read hknown stable_holding)
    intro targets htargets
    have hkeeps : ((order config H).setting fails (.delete user id)).Keeps
        (Holding id (·.user = user)) fun c => c.Reads ∨ exists undo : Undo, c = undo.toCall ∧
          undo.Concerns config.naming H id := keeps_owned hknown
    have hrows : Operation.Triple ((order config H).setting fails (.delete user id))
        (Holding id (·.user = user)) (Lifecycle.deleteRows id targets)
        (fun _ => Holding id (·.user = user)) fun _ => Holding id (·.user = user) := by
      apply hkeeps.deleteRows
      · exact fun r hr =>
          Or.inr ⟨.deleteTarget r.id, rfl, Undo.concerns_deleteTarget (htargets r hr)⟩
      · exact Or.inr ⟨.deleteTrigger id, rfl, rfl⟩
    cases hhandles : t.handles with
    | some handles =>
        cases hfound.handles handles hhandles
        apply Operation.Triple.bind (hkeeps.removeResources _ _)
        · exact fun _ => hrows
        · exact Or.inr ⟨.removeRule (config.naming.ruleHandle id), rfl, _, rfl,
            config.naming.triggerForRule?_ruleName id⟩
        · exact Or.inr ⟨.deleteTopic (config.naming.topicHandle id), rfl,
            config.naming.triggerForHandle?_topicHandle id⟩
    | none =>
        apply Operation.Triple.bind (hkeeps.removeLeftovers _ _ _ _ _)
        · intro _
          apply Operation.Triple.bind (hkeeps.unsubscribeAll _)
          · exact fun _ => hrows
          · exact fun r hr => Or.inr ⟨.unsubscribe r.subscription, rfl,
              Undo.concerns_unsubscribe (htargets r hr)⟩
        · exact fun w hw => hw.integrity
        · exact Or.inl trivial
        · exact Or.inl trivial
        · exact fun name hid =>
            Or.inr ⟨.removeRule (RuleEngine.handleFor name), rfl, name, rfl, hid⟩
        · intro name hid
          refine Or.inr ⟨.deleteTopic (Broker.handleFor name), rfl, ?_⟩
          exact (config.naming.triggerForHandle?_handleFor name).trans hid

theorem delete_order (hknown : H (.delete user id) []) :
    Operation.Triple ((order config H).setting fails (.delete user id)) Unlocked
      (Lifecycle.delete config user id) (fun _ => Unlocked) fun _ => Unlocked := by
  apply detached_standing
  apply locked_standing (f := fun _ => True)
  apply (deleteOwned_locked hknown).pre
  exact fun st w h => h.1

end Delete

/-!
# Changes of targets
-/

section Targets

variable {fails : Call -> ServiceError -> Prop} {config : Config} {H : History}
  {user : UserId} {id : TriggerId}

theorem spares_of_onTargets {request : Request} {c : Call} (hrequest : request ≠ .recover)
    (hc : c.OnTargets) {Q : Prop} (h : request = .recover ∨ c.Strips) : Q := by
  rcases h with hrecover | hstrips
  · exact absurd hrecover hrequest
  · cases c with
    | deleteTopic _ | removeRule _ => cases hc
    | _ => cases hstrips

theorem removable_of_onTargets {request : Request} {undo : Undo}
    (hrequest : request ≠ .recover) (hundo : undo.toCall.OnTargets)
    (hconcerns : H.Distinct -> undo.Concerns config.naming H id) :
    Removable config H request id (fun _ => True) undo where
  concerns := by
    intro h
    rcases h with hdistinct | hnot
    · exact hconcerns hdistinct
    · exact absurd hundo hnot
  spares := spares_of_onTargets hrequest hundo

theorem insertTarget_locked {spec : TargetSpec} (hknown : H (.addTarget user id spec) [])
    {row : Target} (hrow : row.trigger = id) (hbelongs : row.BelongsTo config.naming H id) :
    Operation.Triple ((order config H).setting fails (.addTarget user id spec)) (Locked id)
      ((Operation.ask (.insertTarget row)).orUndo [.unsubscribe row.subscription])
      (fun _ => Locked id) fun _ => Locked id := by
  have hinsert : Operation.Triple ((order config H).setting fails (.addTarget user id spec))
      (Locked id) (Operation.ask (.insertTarget row)) (fun _ => Locked id)
      fun _ => Locked id := by
    apply Operation.Triple.change hknown stable_locked
    · exact fun st w h => h
    · intro st w _ _
      refine ⟨fun _ => hrow, ?_, spares_of_onTargets ?_ ?_⟩
      · show row.BelongsTo config.naming H row.trigger
        rw [hrow]
        exact hbelongs
      · exact nofun
      · trivial
    · exact fun st w _ v h _ _ => h
    · exact fun _ st w h => h
  refine hinsert.orUndo fun _ => ?_
  have hundo : forall undo, undo ∈ [Undo.unsubscribe row.subscription] ->
      Removable config H (.addTarget user id spec) id (fun _ => True) undo := by
    intro undo hmem
    rw [List.mem_singleton.mp hmem]
    apply removable_of_onTargets
    · exact nofun
    · trivial
    · exact fun _ => Undo.concerns_unsubscribe hbelongs
  exact (unwind_holding hknown hundo).consequence (fun st w h => ⟨h, fun _ _ _ => trivial⟩)
    fun _ st w h => h.1

theorem addTargetOwned_locked {spec : TargetSpec} (hknown : H (.addTarget user id spec) [])
    (target : ValidTarget) (maxTargets : Nat) :
    Operation.Triple ((order config H).setting fails (.addTarget user id spec)) (Locked id)
      (Lifecycle.addTargetOwned maxTargets user id target) (fun _ => Locked id)
      fun _ => Locked id := by
  rw [Lifecycle.addTargetOwned]
  apply Operation.Triple.bind_given (visibleTrigger_read hknown stable_locked user)
  intro t hfound
  apply Operation.Triple.bind (Q := fun handles st w => Locked id st w ∧
    handles = config.naming.handles id)
  · apply Operation.Triple.orFail
    · exact fun handles hhandles st w h => ⟨h, hfound.handles handles hhandles⟩
    · exact fun _ st w h => h
  intro handles
  apply Operation.Triple.given
  intro heq
  rcases heq with rfl
  apply Operation.Triple.bind_given (listTargets_read hknown stable_locked)
  intro targets _
  split
  · exact Operation.Triple.fail fun st w h => h
  · apply Operation.Triple.bind (Q := fun handle st w => Locked id st w ∧
      exists u, handle = Broker.subscriptionHandle (config.naming.topicHandle id) u)
    · apply Operation.Triple.change hknown stable_locked
      · exact fun st w h => h
      · intro st w _ _
        refine ⟨fun _ => ?_, trivial, spares_of_onTargets ?_ ?_⟩
        · exact config.naming.triggerForHandle?_topicHandle id
        · exact nofun
        · trivial
      · intro st w handle v h _ hperform
        exact ⟨h, _, (Call.subscribe_ok hperform).2.1⟩
      · exact fun _ st w h => h
    intro handle
    apply Operation.Triple.given
    intro hsuffixed
    apply Operation.Triple.bind (Q := fun u st w => Locked id st w ∧ H.Issued id u)
    · apply Operation.Triple.fresh stable_locked
      intro st w h _ hdrawn
      exact ⟨h, .addTarget user id spec, _, hdrawn, rfl,
        List.mem_append_right _ (List.mem_singleton_self _)⟩
    intro u
    apply Operation.Triple.given
    intro hissued
    apply Operation.Triple.bind (insertTarget_locked hknown rfl ⟨hissued, hsuffixed⟩)
    exact fun _ => Operation.Triple.pure fun st w h => h

theorem addTarget_order {spec : TargetSpec} (hknown : H (.addTarget user id spec) []) :
    Operation.Triple ((order config H).setting fails (.addTarget user id spec)) Unlocked
      (Lifecycle.addTarget config user id spec) (fun _ => Unlocked) fun _ => Unlocked := by
  rw [Lifecycle.addTarget]
  apply Operation.Triple.bind (Q := fun _ => Unlocked)
  · apply Operation.Triple.ofExcept
    · exact fun _ _ st w h => h
    · exact fun _ _ st w h => h
  · intro target
    apply detached_standing
    apply locked_standing (f := fun _ => True)
    apply (addTargetOwned_locked hknown target config.maxTargets).pre
    exact fun st w h => h.1

/-!
A removal locks the trigger of the row that it read first.  The row that it reads under
the lock is one of the same trigger if identifiers do not repeat.
-/

theorem getTarget_unlocked {request : Request} (hknown : H request []) (target : TargetId) :
    Operation.Triple ((order config H).setting fails request) Unlocked
      (Lifecycle.getTarget user target)
      (fun r st w => Unlocked st w ∧ H.Issued r.trigger target.uuid) fun _ => Unlocked := by
  rw [Lifecycle.getTarget]
  apply Operation.Triple.bind (getTarget_read hknown stable_unlocked target)
  intro row
  apply Operation.Triple.bind (Q := fun (r : Target) st w => Unlocked st w ∧
    H.Issued r.trigger target.uuid)
  · apply Operation.Triple.orFail
    · intro r hr st w h
      rcases h.2 r hr with ⟨rfl, hbelongs⟩
      exact ⟨h.1, hbelongs.issued⟩
    · exact fun _ st w h => h.1
  intro r
  apply Operation.Triple.given
  intro hissued
  apply Operation.Triple.bind (Q := fun _ => Unlocked)
  · apply Operation.Triple.adapt
    apply (visibleTrigger_read hknown stable_unlocked user).post
    exact fun _ st w h => h.1
  · exact fun _ => Operation.Triple.pure fun st w h => ⟨h, hissued⟩

theorem removeTargetOwned_locked {target : TargetId}
    (hknown : H (.removeTarget user target) []) (hissued : H.Issued id target.uuid) :
    Operation.Triple ((order config H).setting fails (.removeTarget user target)) (Locked id)
      (Lifecycle.removeTargetOwned user target) (fun _ => Locked id) fun _ => Locked id := by
  rw [Lifecycle.removeTargetOwned]
  apply Operation.Triple.bind (getTarget_read hknown stable_locked target)
  intro row
  apply Operation.Triple.bind (Q := fun (r : Target) st w => Locked id st w ∧
    r.id = target ∧ r.BelongsTo config.naming H r.trigger)
  · apply Operation.Triple.orFail
    · exact fun r hr st w h => ⟨h.1, h.2 r hr⟩
    · exact fun _ st w h => h.1
  intro r
  apply Operation.Triple.given
  intro h
  rcases h with ⟨rfl, hbelongs⟩
  have hsame : H.Distinct -> r.BelongsTo config.naming H id := by
    intro hdistinct
    rw [hdistinct _ _ _ hissued hbelongs.issued]
    exact hbelongs
  apply Operation.Triple.bind (Q := fun _ => Holding id fun _ => True)
  · apply (visibleTrigger_read hknown stable_locked user).post
    exact fun _ st w h => ⟨h.1, fun _ _ _ => trivial⟩
  intro _
  have hunsubscribe : Removable config H (.removeTarget user r.id) id (fun _ => True)
      (.unsubscribe r.subscription) := by
    apply removable_of_onTargets
    · exact nofun
    · trivial
    · exact fun hdistinct => Undo.concerns_unsubscribe (hsame hdistinct)
  have hdelete : Removable config H (.removeTarget user r.id) id (fun _ => True)
      (.deleteTarget r.id) := by
    apply removable_of_onTargets
    · exact nofun
    · trivial
    · exact fun hdistinct => Undo.concerns_deleteTarget (hsame hdistinct)
  apply Operation.Triple.bind (Q := fun _ => Holding id fun _ => True)
  · apply (ensureGone_holding hknown hunsubscribe).consequence
    · exact fun st w h => h
    · exact fun _ st w h => h
    · exact fun _ st w h => h.1
  · intro _
    apply (ensureGone_holding hknown hdelete).consequence
    · exact fun st w h => h
    · exact fun _ st w h => h.1
    · exact fun _ st w h => h.1

theorem removeTarget_order {target : TargetId} (hknown : H (.removeTarget user target) []) :
    Operation.Triple ((order config H).setting fails (.removeTarget user target)) Unlocked
      (Lifecycle.removeTarget user target) (fun _ => Unlocked) fun _ => Unlocked := by
  rw [Lifecycle.removeTarget]
  apply Operation.Triple.bind_given (getTarget_unlocked hknown target)
  intro r hissued
  apply detached_standing
  apply locked_standing (f := fun _ => True)
  apply (removeTargetOwned_locked hknown hissued).pre
  exact fun st w h => h.1

end Targets

/-!
# Questions
-/

section Questions

variable {fails : Call -> ServiceError -> Prop} {config : Config} {H : History}
  {request : Request} {user : UserId} {id : TriggerId}

theorem getTrigger_order (hknown : H request []) :
    Operation.Triple ((order config H).setting fails request) Unlocked
      (Lifecycle.getTrigger user id) (fun _ => Unlocked) fun _ => Unlocked := by
  rw [Lifecycle.getTrigger]
  apply Operation.Triple.bind_given (visibleTrigger_read hknown stable_unlocked user)
  intro t _
  apply Operation.Triple.bind (listTargets_read hknown stable_unlocked)
  exact fun _ => Operation.Triple.pure fun st w h => h.1

theorem listTriggers_order (hknown : H request []) :
    Operation.Triple ((order config H).setting fails request) Unlocked
      (Lifecycle.listTriggers user) (fun _ => Unlocked) fun _ => Unlocked := by
  rw [Lifecycle.listTriggers]
  apply Operation.Triple.bind (Q := fun _ => Unlocked)
  · apply Operation.Triple.read (c := .listTriggers user) trivial hknown stable_unlocked
    · exact fun st w _ h _ _ => h
    · exact fun _ st w h => h
  · exact fun _ => Operation.Triple.pure fun st w h => h

theorem listTargets_order (hknown : H request []) :
    Operation.Triple ((order config H).setting fails request) Unlocked
      (Lifecycle.listTargets user id) (fun _ => Unlocked) fun _ => Unlocked := by
  rw [Lifecycle.listTargets]
  apply Operation.Triple.bind_given (visibleTrigger_read hknown stable_unlocked user)
  intro t _
  apply (listTargets_read hknown stable_unlocked).post
  exact fun _ st w h => h.1

theorem getTarget_order (hknown : H request []) {target : TargetId} :
    Operation.Triple ((order config H).setting fails request) Unlocked
      (Lifecycle.getTarget user target) (fun _ => Unlocked) fun _ => Unlocked := by
  apply (getTarget_unlocked hknown target).post
  exact fun _ st w h => h.1

end Questions
end TelemetryTriggers
