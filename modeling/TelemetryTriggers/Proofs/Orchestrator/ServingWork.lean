import TelemetryTriggers.Proofs.Orchestrator.Serving

/-!
# Changes serve their trigger

An operation that starts to work on a trigger whose rows and subscriptions are in step
leaves them in step, whatever fails, unless it is an addition or a removal of a target
that ends in an error of the store.  A new trigger needs a topic that nobody has
subscribed to yet.

Main definition: `serving`, the setting of work under a lock.  The main statements are
`deleteOwned_serving`, `addTargetOwned_serving`, `removeTargetOwned_serving` and
`createWithId_serving`.
-/

namespace TelemetryTriggers

def Call.NamedFor (naming : ResourceNaming) (id : TriggerId) : Call -> Prop
  | createTopic name => name = naming.topicName id
  | installRule name _ topic => name = naming.ruleName id ∧ topic = naming.topicHandle id
  | _ => True

def Call.Quiet : Call -> Prop
  | createTopic _ => True
  | installRule _ _ _ => True
  | c => c.Reads

namespace Call

variable {naming : ResourceNaming} {id : TriggerId} {c : Call}

theorem namedFor_of_not_founds (h : ¬ c.Founds) : c.NamedFor naming id := by
  cases c with
  | createTopic _ | installRule _ _ _ => exact absurd trivial h
  | _ => trivial

theorem Quiet.sameTargets (h : c.Quiet) (w : World) :
    w.SameTargets naming id (c.perform w).2 := by
  constructor
  · intro t ht _
    rcases c.triggers_perform w with heq | ⟨_, rfl, _⟩ | ⟨_, _, rfl, _⟩ | ⟨_, rfl, _⟩
    · rw [heq] at ht
      exact ht
    · exact h.elim
    · exact h.elim
    · exact h.elim
  · rcases c.targets_perform w with heq | ⟨_, rfl, _⟩ | ⟨_, rfl, _⟩
    · rw [Store.targetsOf, heq, Store.targetsOf]
    · exact h.elim
    · exact h.elim
  · rcases c.subscriptions_perform w with heq | ⟨_, rfl, _⟩ | ⟨_, _, _, _, rfl, _⟩ | ⟨_, rfl, _⟩
    · rw [Broker.subscriptionsOf, heq, Broker.subscriptionsOf]
    · exact h.elim
    · exact h.elim
    · exact h.elim

end Call

/-!
# Work under a lock
-/

def serving (config : Config) (fails : Call -> ServiceError -> Prop) (H : History)
    (id : TriggerId) : Setting where
  fails := fails
  between _ w v := w.ids.Precedes v.ids ∧ w.SameTargets config.naming id v
  inv w := w.Sound config H ∧ w.Numbered
  allowed _ c _ := c.NamedFor config.naming id
  drawable _ := True

def Reliably (core : World -> Prop) : Assertion :=
  fun _ w => w.ids.Unrepeated -> core w

section Rules

variable {config : Config} {fails : Call -> ServiceError -> Prop} {H : History}
  {broken : TriggerId -> Prop} {id : TriggerId} {core core' : World -> Prop}
  {R : Trigger -> Prop} {E : TriggerError -> Assertion}

theorem Reliably.mono {st : Standing} {w : World} (h : Reliably core st w)
    (hcore : core w -> core' w) : Reliably core' st w :=
  fun hids => hcore (h hids)

theorem stable_reliably (hcore : World.OnTargets config.naming id core) :
    (serving config fails H id).Stable (Reliably core) := by
  intro st w v h hv hids
  exact hcore w v hv.2 (h (hv.1.unrepeated hids))

theorem keeps_reliably (hcore : World.OnTargets config.naming id core) :
    (serving config fails H id).Keeps (Reliably core)
      fun c => c.Quiet ∧ c.NamedFor config.naming id where
  stable := stable_reliably hcore
  allowed hc _ _ := hc.2
  perform {c _ w} hc h _ hids :=
    hcore w _ (hc.1.sameTargets w) (h ((c.ids_precedes w).unrepeated hids))

theorem keeps_rowIs : (serving config fails H id).Keeps (Reliably (World.RowIs id R))
    fun c => ¬ c.Founds where
  stable := stable_reliably World.onTargets_rowIs
  allowed hc _ _ := Call.namedFor_of_not_founds hc
  perform {c _ w} hc h _ hids := (h ((c.ids_precedes w).unrepeated hids)).perform hc

theorem change_reliably {c : Call} {after : c.Reply -> World -> Prop}
    (hc : c.NamedFor config.naming id) (hcore : World.OnTargets config.naming id core)
    (hok : forall w r v, w.Sound config H -> w.Numbered -> core w -> v.ids.Unrepeated ->
      c.perform w = (.ok r, v) -> after r v)
    (herror : forall e st w, Reliably core st w -> E (c.service.failure e) st w) :
    Operation.Triple (serving config fails H id) (Reliably core) (.ask c)
      (fun r => Reliably (after r)) E := by
  apply Operation.Triple.ask (stable_reliably hcore)
  · exact fun st w _ _ => hc
  · exact fun st w e h _ => herror e st w h
  · intro st w r v h hw hperform hids
    have hprecedes := c.ids_precedes w
    rw [hperform] at hprecedes
    exact hok w r v hw.1 hw.2 (h (hprecedes.unrepeated hids)) hids hperform
  · intro st w e v h _ hperform
    rw [Call.perform_error hperform]
    exact herror e st w h

theorem fresh_reliably (hcore : World.OnTargets config.naming id core) :
    Operation.Triple (serving config fails H id) (Reliably core) .fresh
      (fun _ => Reliably core) E := by
  apply Operation.Triple.fresh (stable_reliably hcore)
  intro st w h _ _ hids
  have hsame : w.SameTargets config.naming id { w with ids := w.ids.next.2 } :=
    .of_services ⟨rfl, rfl, rfl, rfl⟩
  exact hcore w _ hsame (h (w.ids.precedes_next.unrepeated hids))

theorem clear_reliably {c : Call} {after : World -> World}
    (hfaults : forall c e, fails c e -> e.isAbsence = false)
    (hc : c.NamedFor config.naming id) (hcore : World.OnTargets config.naming id core)
    (hclears : forall w, c.Clears w (after w))
    (hafter : forall w, w.Sound config H -> core w -> core' (after w))
    (herror : forall e st w, Reliably core st w -> E (c.service.failure e) st w) :
    Operation.Triple (serving config fails H id) (Reliably core) (.ensureGone c)
      (fun _ => Reliably core') E := by
  have hdone : forall st w, Reliably core st w -> w.Sound config H ->
      Reliably core' st (after w) := by
    intro st w h hw hids
    have hprecedes := c.ids_precedes w
    rw [(hclears w).perform_eq] at hprecedes
    exact hafter w hw (h (hprecedes.unrepeated hids))
  apply Operation.Triple.ensureGone (stable_reliably hcore)
  · exact fun st w _ _ => hc
  · intro st w e h he
    rw [hfaults c e he]
    exact herror e st w h
  · intro st w r v h hw hperform
    have hv : v = after w := (congrArg Prod.snd hperform).symm.trans (hclears w).perform_eq
    rw [hv]
    exact hdone st w h hw.1
  · intro st w e v h hw hperform
    have hv : v = after w := (congrArg Prod.snd hperform).symm.trans (hclears w).perform_eq
    have habsent : e.isAbsence = true := by
      rcases hclears w with ⟨r, hok⟩ | ⟨e', habsent, herror⟩
      · rw [hperform] at hok
        cases hok
      · rw [hperform] at herror
        cases herror
        exact habsent
    rw [habsent, hv]
    exact hdone st w h hw.1

theorem visibleTrigger_reliably (hcore : World.OnTargets config.naming id core)
    (user : UserId) (other : TriggerId) :
    Operation.Triple (serving config fails H id) (Reliably core)
      (Lifecycle.visibleTrigger user other)
      (fun t st w => Reliably core st w ∧ t.Found config.naming other)
      fun _ => Reliably core := by
  rw [Lifecycle.visibleTrigger]
  apply Operation.Triple.bind (Q := fun row st w => Reliably core st w ∧
    forall t, row = some t -> t.Found config.naming other)
  · apply (keeps_reliably hcore).question (c := .getTrigger other) ⟨trivial, trivial⟩
    intro w row hw hrow t heq
    rcases heq with rfl
    exact hw.1.found (Except.ok.inj hrow)
  intro row
  apply Operation.Triple.orFail
  · exact fun t ht st w h => ⟨h.1, h.2 t (Option.filter_eq_some_iff.mp ht).1⟩
  · exact fun _ st w h => h.1

end Rules

/-!
# Deletion
-/

section Delete

variable {config : Config} {fails : Call -> ServiceError -> Prop} {H : History}
  {broken : TriggerId -> Prop} {id : TriggerId} {user : UserId}

theorem deleteOwned_serving (hknown : H (.delete user id) []) :
    Operation.Triple (serving config fails H id)
      (Reliably (World.Served config.naming H broken id))
      (Lifecycle.deleteOwned config.naming user id)
      (fun _ => Reliably (World.Served config.naming H broken id))
      fun _ => Reliably (World.Served config.naming H broken id) := by
  rw [Lifecycle.deleteOwned]
  apply Operation.Triple.bind (Q := fun row => Reliably fun w =>
    World.Served config.naming H broken id w ∧ World.RowIs id (fun t => row = some t) w)
  · apply change_reliably (c := .getTrigger id) trivial World.onTargets_serving
    · intro w row v hw _ hserved _ hperform
      cases hperform
      refine ⟨hserved, ?_⟩
      intro t ht hid
      rw [← hid]
      exact hw.integrity.store.trigger?_eq_some ht
    · exact fun e st w h => h
  intro row
  apply Operation.Triple.bind (Q := fun _ => Reliably (World.RowIs id (·.user = user)))
  · apply Operation.Triple.orFail
    · intro t ht st w h
      rcases Option.filter_eq_some_iff.mp ht with ⟨hrow, hmine⟩
      refine h.mono fun hw u hu hid => ?_
      have hsame : some t = some u := hrow.symm.trans (hw.2 u hu hid)
      rw [← Option.some.inj hsame]
      simpa using hmine
    · exact fun _ st w h => h.mono fun hw => hw.1
  intro t
  have hkeeps : (serving config fails H id).Keeps (Reliably (World.RowIs id (·.user = user)))
      fun c => ¬ c.Founds := keeps_rowIs
  -- the owner has given the trigger up, so it need not be served any more
  have hgone : forall st w, Reliably (World.RowIs id (·.user = user)) st w ->
      Reliably (World.Served config.naming H broken id) st w := by
    intro st w h hids t ht hid hkept
    have howner := h hids t ht hid
    subst hid
    subst howner
    exact absurd hknown hkept.wanted
  apply Operation.Triple.consequence (P := Reliably (World.RowIs id (·.user = user)))
    (Q := fun _ => Reliably (World.RowIs id (·.user = user)))
    (E := fun _ => Reliably (World.RowIs id (·.user = user)))
  · apply Operation.Triple.bind (hkeeps.ask (c := .listTargets id) fun h => h)
    intro targets
    have hrows : Operation.Triple (serving config fails H id)
        (Reliably (World.RowIs id (·.user = user))) (Lifecycle.deleteRows id targets)
        (fun _ => Reliably (World.RowIs id (·.user = user)))
        fun _ => Reliably (World.RowIs id (·.user = user)) :=
      hkeeps.deleteRows (fun _ _ h => h) fun h => h
    cases t.handles with
    | some handles =>
        apply Operation.Triple.bind (hkeeps.removeResources (fun h => h) fun h => h)
        exact fun _ => hrows
    | none =>
        apply Operation.Triple.bind (hkeeps.removeLeftovers (fun w hw => hw.1.integrity)
          (fun h => h) (fun h => h) (fun _ _ h => h) fun _ _ h => h)
        intro _
        apply Operation.Triple.bind (hkeeps.unsubscribeAll fun _ _ h => h)
        exact fun _ => hrows
  · exact fun st w h => h
  · exact fun _ st w h => hgone st w h
  · exact fun _ st w h => hgone st w h

end Delete

/-!
# Changes of targets
-/

section Targets

variable {config : Config} {fails : Call -> ServiceError -> Prop} {H : History}
  {broken : TriggerId -> Prop} {id : TriggerId} {user : UserId}

def ServedOrStore (naming : ResourceNaming) (H : History) (broken : TriggerId -> Prop)
    (id : TriggerId) (e : TriggerError) : Assertion :=
  fun st w => Reliably (World.Served naming H broken id) st w ∨ exists cause, e = .store cause

/-- If the row is refused, it does not matter whether the subscription can be taken back. -/
theorem insertTarget_serving {undos : List Undo} (target : ValidTarget)
    (subscription : SubscriptionHandle) (u : TargetId) :
    Operation.Triple (serving config fails H id)
      (Reliably (World.Awaiting config.naming id (Trigger.Kept H broken) target subscription))
      ((Operation.ask (.insertTarget
        ⟨u, id, target.kind, target.address, subscription⟩)).orUndo undos)
      (fun _ => Reliably (World.Served config.naming H broken id))
      (ServedOrStore config.naming H broken id) := by
  have hinsert : Operation.Triple (serving config fails H id)
      (Reliably (World.Awaiting config.naming id (Trigger.Kept H broken) target subscription))
      (.ask (.insertTarget ⟨u, id, target.kind, target.address, subscription⟩))
      (fun _ => Reliably (World.Served config.naming H broken id))
      fun e _ _ => exists cause, e = .store cause := by
    apply change_reliably (c := .insertTarget _) trivial World.onTargets_awaiting
    · exact fun w r v _ _ hw _ hperform => hw.insertTarget hperform
    · exact fun cause st w _ => ⟨cause, rfl⟩
  refine hinsert.orUndo fun e => ?_
  have hkeeps : (serving config fails H id).Keeps
      (fun _ _ => exists cause, e = TriggerError.store cause) fun c => ¬ c.Founds :=
    ⟨fun _ _ _ h _ => h, fun hc _ _ => Call.namedFor_of_not_founds hc, fun _ h _ => h⟩
  exact (hkeeps.unwind fun undo _ => undo.not_founds).consequence (fun st w h => h)
    fun _ st w h => Or.inr h

theorem addTargetOwned_serving (maxTargets : Nat) (target : ValidTarget) :
    Operation.Triple (serving config fails H id)
      (Reliably (World.Served config.naming H broken id))
      (Lifecycle.addTargetOwned maxTargets user id target)
      (fun _ => Reliably (World.Served config.naming H broken id))
      (ServedOrStore config.naming H broken id) := by
  have hserved : World.OnTargets config.naming id (World.Served config.naming H broken id) :=
    World.onTargets_serving
  rw [Lifecycle.addTargetOwned]
  apply Operation.Triple.bind_given ((visibleTrigger_reliably hserved user id).consequence
    (fun st w h => h) (fun _ st w h => h) fun _ st w h => Or.inl h)
  intro t hfound
  apply Operation.Triple.bind (Q := fun handles st w =>
    Reliably (World.Served config.naming H broken id) st w ∧ handles = config.naming.handles id)
  · apply Operation.Triple.orFail
    · exact fun handles hhandles st w h => ⟨h, hfound.handles handles hhandles⟩
    · exact fun _ st w h => Or.inl h
  intro handles
  apply Operation.Triple.given
  intro hhandles
  subst hhandles
  apply Operation.Triple.bind (((keeps_reliably hserved).ask (c := .listTargets id)
    ⟨trivial, trivial⟩).consequence (fun st w h => h) (fun _ st w h => h)
      fun _ st w h => Or.inl h)
  intro targets
  split
  · exact Operation.Triple.fail fun st w h => Or.inl h
  · apply Operation.Triple.bind (Q := fun subscription => Reliably
      (World.Awaiting config.naming id (Trigger.Kept H broken) target subscription))
    · apply change_reliably (c := .subscribe (config.naming.handles id).topic _ _) trivial hserved
      · exact fun w handle v _ hnumbered hw hids hperform =>
          World.Serving.subscribe hw hnumbered hperform hids
      · exact fun _ st w h => Or.inl h
    intro subscription
    apply Operation.Triple.bind (fresh_reliably World.onTargets_awaiting)
    intro u
    apply Operation.Triple.bind (Q := fun _ => Reliably (World.Served config.naming H broken id))
    · exact insertTarget_serving target subscription ⟨u⟩
    · exact fun _ => Operation.Triple.pure fun st w h => h

theorem removeTargetOwned_serving {target : TargetId}
    (hfaults : forall c e, fails c e -> e.isAbsence = false) (hdistinct : H.Distinct)
    (hissued : H.Issued id target.uuid) :
    Operation.Triple (serving config fails H id)
      (Reliably (World.Served config.naming H broken id))
      (Lifecycle.removeTargetOwned user target)
      (fun _ => Reliably (World.Served config.naming H broken id))
      (ServedOrStore config.naming H broken id) := by
  have hserved : World.OnTargets config.naming id (World.Served config.naming H broken id) :=
    World.onTargets_serving
  rw [Lifecycle.removeTargetOwned]
  apply Operation.Triple.bind (Q := fun row => Reliably fun w =>
    World.Served config.naming H broken id w ∧
      forall r, row = some r -> r.id = target ∧ r ∈ w.store.targetsOf id)
  · apply change_reliably (c := .getTarget target) trivial hserved
    · intro w row v hw _ hcore _ hperform
      cases hperform
      refine ⟨hcore, ?_⟩
      intro r hrow
      rcases Store.target?_eq_some hrow with ⟨hmem, rfl⟩
      refine ⟨rfl, Store.mem_targetsOf.mpr ⟨hmem, ?_⟩⟩
      -- the identifier was drawn for the locked trigger, so the row belongs to that
      exact hdistinct _ _ _ (hw.targets r hmem).issued hissued
    · exact fun _ st w h => Or.inl h
  intro row
  apply Operation.Triple.bind (Q := fun r => Reliably fun w =>
    World.Served config.naming H broken id w ∧ r.id = target ∧ r ∈ w.store.targetsOf id)
  · apply Operation.Triple.orFail
    · exact fun r hr st w h => h.mono fun hw => ⟨hw.1, hw.2 r hr⟩
    · exact fun _ st w h => Or.inl (h.mono fun hw => hw.1)
  intro r
  have hlisted : World.OnTargets config.naming id fun w =>
      World.Served config.naming H broken id w ∧ r.id = target ∧ r ∈ w.store.targetsOf id := by
    intro w v hv hw
    rw [hv.targets]
    exact ⟨hserved w v hv hw.1, hw.2⟩
  apply Operation.Triple.bind_given ((visibleTrigger_reliably hlisted user r.trigger).consequence
    (fun st w h => h) (fun _ st w h => h) fun _ st w h => Or.inl (h.mono fun hw => hw.1))
  intro _ _
  apply Operation.Triple.bind (Q := fun _ => Reliably
    (World.Serving config.naming id (Trigger.Kept H broken) (·.filter (·.id != target))))
  · apply clear_reliably (c := .unsubscribe r.subscription) hfaults trivial hlisted
      (Call.clears_unsubscribe r.subscription)
    · rintro w hw ⟨hcore, rfl, hmem⟩
      exact World.Serving.unsubscribe hcore hw.integrity hmem
    · exact fun _ st w h => Or.inl (h.mono fun hw => hw.1)
  · intro _
    apply clear_reliably (c := .deleteTarget target) hfaults trivial World.onTargets_serving
      (Call.clears_deleteTarget target)
    · exact fun w _ hcore => World.Serving.deleteTarget hcore
    · exact fun cause st w _ => Or.inr ⟨cause, rfl⟩

end Targets

/-!
# Creation
-/

section Create

variable {config : Config} {fails : Call -> ServiceError -> Prop} {H : History}
  {broken : TriggerId -> Prop} {id : TriggerId} {undos : List Undo}

def World.Draft (id : TriggerId) : World -> Prop :=
  World.RowIs id (·.isProvisioned = false)

def World.Growing (naming : ResourceNaming) (id : TriggerId) (w : World) : Prop :=
  w.Draft id ∧ w.Serving naming id (fun _ => True) fun rows => rows

theorem onTargets_growing :
    World.OnTargets config.naming id (World.Growing config.naming id) :=
  World.onTargets_rowIs.and World.onTargets_serving

theorem World.Draft.served {w : World} (h : w.Draft id) :
    w.Served config.naming H broken id := by
  apply World.RowIs.served h
  intro t hdraft hkept
  cases hdraft.symm.trans hkept.provisioned

theorem orUndo_growing {α : Type} {op : Operation α} {P : Assertion} {Q : α -> Assertion}
    (hop : Operation.Triple (serving config fails H id) P op Q
      fun _ => Reliably (World.Draft id)) :
    Operation.Triple (serving config fails H id) P (op.orUndo undos) Q
      fun _ => Reliably (World.Served config.naming H broken id) := by
  refine hop.orUndo fun _ => ?_
  apply (keeps_rowIs.unwind fun undo _ => undo.not_founds).consequence
  · exact fun st w h => h
  · exact fun _ st w h => h.mono World.Draft.served

theorem make_growing {c : Call} {fact : c.Reply -> Prop} (hc : c.Quiet)
    (hnamed : c.NamedFor config.naming id)
    (hfact : forall w r, (c.perform w).1 = .ok r -> fact r) :
    Operation.Triple (serving config fails H id) (Reliably (World.Growing config.naming id))
      ((Operation.ask c).orUndo undos)
      (fun r st w => Reliably (World.Growing config.naming id) st w ∧ fact r)
      fun _ => Reliably (World.Served config.naming H broken id) := by
  apply orUndo_growing
  apply ((keeps_reliably onTargets_growing).question ⟨hc, hnamed⟩ _).consequence
  · exact fun st w h => h
  · exact fun _ st w h => h
  · exact fun _ st w h => h.mono fun hw => hw.1
  · exact fun w r _ hdone => hfact w r hdone

theorem subscribe_growing (target : ValidTarget) :
    Operation.Triple (serving config fails H id) (Reliably (World.Growing config.naming id))
      ((Operation.ask (.subscribe (config.naming.topicHandle id) target.kind.protocol
        target.address)).orUndo undos)
      (fun subscription => Reliably fun w => w.Draft id ∧
        w.Awaiting config.naming id (fun _ => True) target subscription)
      fun _ => Reliably (World.Served config.naming H broken id) := by
  apply orUndo_growing
  apply change_reliably (c := .subscribe _ _ _) trivial onTargets_growing
  · intro w subscription v _ hnumbered hcore hids hperform
    exact ⟨hcore.1.after hperform (fun h => h),
      World.Serving.subscribe hcore.2 hnumbered hperform hids⟩
  · exact fun _ st w h => h.mono fun hw => hw.1

theorem insertTarget_growing (target : ValidTarget) (subscription : SubscriptionHandle)
    (u : TargetId) :
    Operation.Triple (serving config fails H id)
      (Reliably fun w => w.Draft id ∧
        w.Awaiting config.naming id (fun _ => True) target subscription)
      ((Operation.ask (.insertTarget
        ⟨u, id, target.kind, target.address, subscription⟩)).orUndo undos)
      (fun _ => Reliably (World.Growing config.naming id))
      fun _ => Reliably (World.Served config.naming H broken id) := by
  apply orUndo_growing
  apply change_reliably (c := .insertTarget _) trivial
    (World.onTargets_rowIs.and World.onTargets_awaiting)
  · intro w r v _ _ hcore _ hperform
    exact ⟨hcore.1.after hperform (fun h => h), hcore.2.insertTarget hperform⟩
  · exact fun _ st w h => h.mono fun hw => hw.1

theorem subscribeTargets_growing (targets : List ValidTarget) (undos : List Undo) :
    Operation.Triple (serving config fails H id) (Reliably (World.Growing config.naming id))
      (Lifecycle.subscribeTargets id (config.naming.topicHandle id) targets undos)
      (fun _ => Reliably (World.Growing config.naming id))
      fun _ => Reliably (World.Served config.naming H broken id) := by
  induction targets generalizing undos with
  | nil => exact Operation.Triple.pure fun st w h => h
  | cons target targets ih =>
      rw [Lifecycle.subscribeTargets]
      apply Operation.Triple.bind (subscribe_growing target)
      intro subscription
      apply Operation.Triple.bind
        (fresh_reliably (World.onTargets_rowIs.and World.onTargets_awaiting))
      intro u
      apply Operation.Triple.bind (insertTarget_growing target subscription ⟨u⟩)
      intro _
      apply Operation.Triple.bind (ih _)
      exact fun _ => Operation.Triple.pure fun st w h => h

theorem provision_growing (draft : Trigger) (thing : Thing) (targets : List ValidTarget)
    (undos : List Undo) :
    Operation.Triple (serving config fails H draft.id)
      (Reliably (World.Growing config.naming draft.id))
      (Lifecycle.provision config.naming draft thing targets undos)
      (fun _ => Reliably (World.Served config.naming H broken draft.id))
      fun _ => Reliably (World.Served config.naming H broken draft.id) := by
  rw [Lifecycle.provision]
  apply Operation.Triple.bind (Q := fun topic st w =>
    Reliably (World.Growing config.naming draft.id) st w ∧
      topic = config.naming.topicHandle draft.id)
  · exact make_growing (c := .createTopic _) trivial rfl
      fun w r hdone => (Except.ok.inj hdone).symm
  intro topic
  apply Operation.Triple.given
  intro htopic
  subst htopic
  apply Operation.Triple.bind (subscribeTargets_growing targets _)
  intro made
  apply Operation.Triple.bind (Q := fun _ => Reliably (World.Growing config.naming draft.id))
  · apply orUndo_growing
    apply Operation.Triple.ofExcept
    · exact fun _ _ st w h => h
    · exact fun _ _ st w h => h.mono fun hw => hw.1
  intro predicate
  apply Operation.Triple.bind (Q := fun _ st w =>
    Reliably (World.Growing config.naming draft.id) st w ∧ True)
  · exact make_growing (c := .installRule _ predicate _) trivial ⟨rfl, rfl⟩
      fun _ _ _ => trivial
  intro rule
  apply Operation.Triple.bind
    (Q := fun _ => Reliably (World.Served config.naming H broken draft.id))
  · apply orUndo_growing
    apply Operation.Triple.pre (P := Reliably (World.Growing config.naming draft.id))
    · apply change_reliably (c := .setHandles _ _) trivial onTargets_growing
      · exact fun w r v _ _ hcore _ hperform => World.Serving.setHandles hcore.2 hperform
      · exact fun _ st w h => h.mono fun hw => hw.1
    · exact fun st w h => h.1
  · exact fun _ => Operation.Triple.pure fun st w h => h

def World.Unheard (naming : ResourceNaming) (id : TriggerId) (w : World) : Prop :=
  w.broker.subscriptionsOf (naming.topicHandle id) = []

theorem onTargets_unheard : World.OnTargets config.naming id fun w =>
    World.Served config.naming H broken id w ∧ w.Unheard config.naming id := by
  intro w v hv hw
  exact ⟨World.onTargets_serving w v hv hw.1, hv.subscriptions.trans hw.2⟩

theorem insertTrigger_growing (draft : Trigger) (hdraft : draft.isProvisioned = false) :
    Operation.Triple (serving config fails H draft.id)
      (Reliably fun w => World.Served config.naming H broken draft.id w ∧
        w.Unheard config.naming draft.id)
      (.ask (.insertTrigger draft)) (fun _ => Reliably (World.Growing config.naming draft.id))
      fun _ => Reliably (World.Served config.naming H broken draft.id) := by
  apply change_reliably (c := .insertTrigger draft) trivial onTargets_unheard
  · intro w r v hw _ hcore _ hperform
    refine ⟨?_, World.serving_of_insertTrigger hw.integrity hcore.2 hperform⟩
    rcases Call.insertTrigger_ok hperform with ⟨hnew, rfl⟩
    intro t ht hid
    rcases List.mem_append.mp ht with hold | hmade
    · exact absurd hid (hnew t hold)
    · rw [List.mem_singleton.mp hmade]
      exact hdraft
  · exact fun _ st w h => h.mono fun hw => hw.1

theorem createWithId_serving (user : UserId) (request : ValidRequest) :
    Operation.Triple (serving config fails H id)
      (Reliably fun w => World.Served config.naming H broken id w ∧ w.Unheard config.naming id)
      (Lifecycle.createWithId config.naming user request id)
      (fun _ => Reliably (World.Served config.naming H broken id))
      fun _ => Reliably (World.Served config.naming H broken id) := by
  rw [Lifecycle.createWithId, Lifecycle.pairedThing]
  apply Operation.Triple.bind (Q := fun _ => Reliably fun w =>
    World.Served config.naming H broken id w ∧ w.Unheard config.naming id)
  · apply Operation.Triple.bind (((keeps_reliably onTargets_unheard).ask (c := .thingNamed _)
      ⟨trivial, trivial⟩).consequence (fun st w h => h) (fun _ st w h => h)
        fun _ st w h => h.mono fun hw => hw.1)
    intro row
    apply Operation.Triple.orFail
    · exact fun _ _ st w h => h
    · exact fun _ st w h => h.mono fun hw => hw.1
  intro thing
  apply Operation.Triple.bind (insertTrigger_growing
    ⟨id, user, thing.id, request.condition, request.message, none⟩ rfl)
  intro _
  exact provision_growing ⟨id, user, thing.id, request.condition, request.message, none⟩ thing
    request.targets [.deleteTrigger id]

end Create
end TelemetryTriggers
