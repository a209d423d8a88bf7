import TelemetryTriggers.Proofs.Orchestrator.Names
import TelemetryTriggers.Proofs.Orchestrator.Operations
import TelemetryTriggers.Proofs.Orchestrator.SweepSafety
import TelemetryTriggers.Proofs.Services.Pairing
import TelemetryTriggers.Proofs.Services.Removal

/-!
# Rows and subscriptions of one trigger

A change of targets brings rows and subscriptions out of step for a while, by one target
at a time, and the handles of a trigger are written when both are in step.  What is said
here about a trigger is about its row, the rows of its targets and the subscriptions to
its topic only, so nobody who leaves these alone can make it false.

Main definitions: `World.Serving`, rows and subscriptions that differ by a change to be
made; `World.Served`, what is true of every trigger whose lock is free;
`World.SameTargets`, worlds that agree on the trigger.  There is one lemma for each call
that brings both out of step or back.
-/

namespace TelemetryTriggers

def World.Numbered (w : World) : Prop :=
  forall s, s ∈ w.broker.subscriptions ->
    exists u, w.ids.Gave u ∧ s.handle = Broker.subscriptionHandle s.topic u

/-- The row is the one of a provisioned trigger.  Its owner has not asked for its deletion,
and no change of its targets broke off. -/
structure Trigger.Kept (H : History) (broken : TriggerId -> Prop) (t : Trigger) : Prop where
  provisioned : t.isProvisioned = true
  wanted : ¬ H.Doomed t
  whole : ¬ broken t.id

namespace World

/-- If the trigger has a row of the kind, the broker serves what the change makes of the
rows of its targets. -/
def Serving (naming : ResourceNaming) (id : TriggerId) (kind : Trigger -> Prop)
    (change : List Target -> List Target) (w : World) : Prop :=
  forall t, t ∈ w.store.triggers -> t.id = id -> kind t ->
    w.broker.Serves (fun s => s) (naming.topicHandle id) (change (w.store.targetsOf id))

def Served (naming : ResourceNaming) (H : History) (broken : TriggerId -> Prop)
    (id : TriggerId) : World -> Prop :=
  Serving naming id (Trigger.Kept H broken) fun rows => rows

/-- A target is subscribed and lacks its row, whatever the identifier of that will be. -/
def Awaiting (naming : ResourceNaming) (id : TriggerId) (kind : Trigger -> Prop)
    (target : ValidTarget) (subscription : SubscriptionHandle) (w : World) : Prop :=
  forall u, w.Serving naming id kind
    (· ++ [⟨u, id, target.kind, target.address, subscription⟩])

def RowIs (id : TriggerId) (R : Trigger -> Prop) (w : World) : Prop :=
  forall t, t ∈ w.store.triggers -> t.id = id -> R t

structure SameTargets (naming : ResourceNaming) (id : TriggerId) (w v : World) : Prop where
  row : forall t, t ∈ v.store.triggers -> t.id = id -> t ∈ w.store.triggers
  targets : v.store.targetsOf id = w.store.targetsOf id
  subscriptions : v.broker.subscriptionsOf (naming.topicHandle id) =
    w.broker.subscriptionsOf (naming.topicHandle id)

def OnTargets (naming : ResourceNaming) (id : TriggerId) (core : World -> Prop) : Prop :=
  forall w v : World, w.SameTargets naming id v -> core w -> core v

section Trigger

variable {naming : ResourceNaming} {H : History} {broken : TriggerId -> Prop}
  {id : TriggerId} {kind : Trigger -> Prop} {R : Trigger -> Prop}
  {change : List Target -> List Target} {row : Target} {w v : World}

theorem SameTargets.refl (w : World) : w.SameTargets naming id w :=
  ⟨fun _ ht _ => ht, rfl, rfl⟩

theorem SameTargets.trans {u : World} (h : w.SameTargets naming id v)
    (hv : v.SameTargets naming id u) : w.SameTargets naming id u where
  row t ht hid := h.row t (hv.row t ht hid) hid
  targets := hv.targets.trans h.targets
  subscriptions := hv.subscriptions.trans h.subscriptions

theorem SameTargets.of_services (h : w.SameServices v) : w.SameTargets naming id v := by
  constructor
  · intro t ht _
    rw [h.store] at ht
    exact ht
  · rw [h.store]
  · rw [Broker.subscriptionsOf, h.subscriptions, Broker.subscriptionsOf]

theorem SameTargets.of_estate (h : v.estate naming id = w.estate naming id) :
    w.SameTargets naming id v := by
  constructor
  · intro t ht hid
    have hitem : v.Holds (.trigger t) := ht
    apply holds_of_share h hitem
    exact beq_iff_eq.mpr (congrArg some hid)
  · have htargets := congrArg Share.targets h
    simp only [estate, share, Option.some_beq_some] at htargets
    exact htargets
  · have hsubscriptions : forall u : World, u.broker.subscriptionsOf (naming.topicHandle id) =
        (u.estate naming id).subscriptions.filter (·.topic == naming.topicHandle id) := by
      intro u
      rw [Broker.subscriptionsOf, estate, share, List.filter_filter]
      apply List.filter_congr
      intro s _
      cases htopic : s.topic == naming.topicHandle id with
      | false => rfl
      | true => simp [eq_of_beq htopic]
    rw [hsubscriptions v, hsubscriptions w, h]

theorem onTargets_serving : OnTargets naming id (Serving naming id kind change) := by
  intro w v hv h t ht hid hkind
  have hserves := h t (hv.row t ht hid) hid hkind
  rw [hv.targets]
  unfold Broker.Serves at hserves ⊢
  rw [hv.subscriptions]
  exact hserves

theorem onTargets_rowIs : OnTargets naming id (RowIs id R) :=
  fun _ _ hv h t ht hid => h t (hv.row t ht hid) hid

theorem OnTargets.and {core core' : World -> Prop} (h : OnTargets naming id core)
    (h' : OnTargets naming id core') : OnTargets naming id fun w => core w ∧ core' w :=
  fun w v hv hw => ⟨h w v hv hw.1, h' w v hv hw.2⟩

theorem onTargets_awaiting {target : ValidTarget} {subscription : SubscriptionHandle} :
    OnTargets naming id (Awaiting naming id kind target subscription) :=
  fun w v hv h u => onTargets_serving w v hv (h u)

theorem RowIs.perform {c : Call} (h : w.RowIs id R) (hc : ¬ c.Founds) :
    (c.perform w).2.RowIs id R :=
  fun t ht hid => h t (Call.mem_triggers_of_perform hc ht) hid

theorem RowIs.after {c : Call} {reply : Except ServiceError c.Reply} (h : w.RowIs id R)
    (hdone : c.perform w = (reply, v)) (hc : ¬ c.Founds) : v.RowIs id R := by
  have hkept := h.perform hc
  rw [hdone] at hkept
  exact hkept

theorem RowIs.served (h : w.RowIs id R) (hR : forall t, R t -> ¬ t.Kept H broken) :
    w.Served naming H broken id :=
  fun t ht hid hkept => absurd hkept (hR t (h t ht hid))

/-!
# One call
-/

theorem Numbered.perform (h : w.Numbered) (c : Call) : (c.perform w).2.Numbered := by
  have hold : forall s, s ∈ w.broker.subscriptions ->
      exists u, (c.perform w).2.ids.Gave u ∧ s.handle = Broker.subscriptionHandle s.topic u := by
    intro s hs
    rcases h s hs with ⟨u, hu, hhandle⟩
    exact ⟨u, (c.ids_precedes w).gave hu, hhandle⟩
  intro s hs
  rcases c.subscriptions_perform w with heq | ⟨topic, _, heq⟩ |
    ⟨topic, protocol, endpoint, u, rfl, _⟩ | ⟨handle, _, heq⟩
  · rw [heq] at hs
    exact hold s hs
  · rw [heq] at hs
    exact hold s (List.mem_of_mem_filter hs)
  · cases hperform : (Call.subscribe topic protocol endpoint).perform w with
    | mk reply v =>
        rw [hperform] at hs hold
        cases reply with
        | error e =>
            rcases Call.perform_error hperform with rfl
            exact hold s hs
        | ok handle =>
            rcases Call.subscribe_ok hperform with ⟨_, hhandle, rfl⟩
            rcases List.mem_append.mp hs with hkept | hnew
            · exact hold s (List.mem_of_mem_filter hkept)
            · rw [List.mem_singleton.mp hnew]
              exact ⟨w.ids.next.1, w.ids.gave_next, hhandle⟩
  · rw [heq] at hs
    exact hold s (List.mem_of_mem_filter hs)

theorem Numbered.same (h : w.Numbered) (hv : w.SameServices v) (hids : v.ids = w.ids) :
    v.Numbered := by
  intro s hs
  rw [hv.subscriptions] at hs
  rw [hids]
  exact h s hs

theorem Numbered.step {α : Type} {fails : Call -> ServiceError -> Prop} {s s' : Saga α}
    {st st' : Standing} (h : w.Numbered) (hstep : s.Step fails st w st' v s') : v.Numbered := by
  cases hstep with
  | call c next => exact h.perform c
  | draw next =>
      intro s hs
      rcases h s hs with ⟨u, hu, hhandle⟩
      exact ⟨u, w.ids.precedes_next.gave hu, hhandle⟩
  | _ => exact h

theorem Serving.subscribe {target : ValidTarget} {subscription : SubscriptionHandle}
    (h : w.Serving naming id kind fun rows => rows) (hw : w.Numbered)
    (hdone : (Call.subscribe (naming.topicHandle id) target.kind.protocol target.address).perform
      w = (.ok subscription, v))
    (hids : v.ids.Unrepeated) : v.Awaiting naming id kind target subscription := by
  rcases Call.subscribe_ok hdone with ⟨_, _, hv⟩
  have hstore : v.store = w.store := by rw [hv]
  have hnext : v.ids = w.ids.next.2 := by rw [hv]
  intro u t ht hid hkind
  rw [hstore] at ht ⊢
  refine Call.serves_of_subscribe (h t ht hid hkind) ?_ hdone rfl
  intro s hs hsame
  rcases hw s hs with ⟨u, hu, hhandle⟩
  rw [hnext] at hids
  exact hids.next_ne hu (Broker.subscriptionHandle_inj (hhandle.symm.trans hsame)).2

theorem Awaiting.insertTarget {target : ValidTarget} {subscription : SubscriptionHandle}
    {u : TargetId} {r : Unit} (h : w.Awaiting naming id kind target subscription)
    (hdone : (Call.insertTarget ⟨u, id, target.kind, target.address, subscription⟩).perform w =
      (.ok r, v)) : v.Serving naming id kind fun rows => rows := by
  rcases Call.insertTarget_ok hdone with ⟨_, rfl⟩
  intro t ht hid hkind
  rw [Store.targetsOf_concat rfl]
  exact h u t ht hid hkind

theorem Serving.unsubscribe (h : w.Serving naming id kind fun rows => rows) (hw : w.Integrity)
    (hrow : row ∈ w.store.targetsOf id) :
    Serving naming id kind (·.filter (·.id != row.id))
      { w with broker := { w.broker with
          subscriptions := w.broker.subscriptions.filter (·.handle != row.subscription) } } := by
  intro t ht hid hkind
  have hserves := h t ht hid hkind
  have hhandles := hserves.nodup hw.broker (·.handle) fun _ => rfl
  show Broker.Serves _ _ ((w.store.targetsOf id).filter (·.id != row.id)) _
  rw [← Store.filter_subscription (hw.store.nodup_targetsOf id) hhandles hrow]
  exact hserves.unsubscribe row.subscription (·.handle) fun _ => rfl

theorem Serving.deleteTarget {target : TargetId}
    (h : w.Serving naming id kind (·.filter (·.id != target))) :
    Serving naming id kind (fun rows => rows)
      { w with store := { w.store with targets := w.store.targets.filter (·.id != target) } } := by
  intro t ht hid hkind
  rw [Store.targetsOf_filter]
  exact h t ht hid hkind

theorem serving_of_insertTrigger {t : Trigger} {r : Unit} (hw : w.Integrity)
    (hvacant : w.broker.subscriptionsOf (naming.topicHandle t.id) = [])
    (hdone : (Call.insertTrigger t).perform w = (.ok r, v)) :
    v.Serving naming t.id kind fun rows => rows := by
  rcases Call.insertTrigger_ok hdone with ⟨hnew, rfl⟩
  have hnone : w.store.targetsOf t.id = [] := by
    rw [List.eq_nil_iff_forall_not_mem]
    intro q hq
    rcases Store.mem_targetsOf.mp hq with ⟨hmem, howner⟩
    rcases hw.store.owned q hmem with ⟨parent, hparent, hid⟩
    exact hnew parent hparent (hid.trans howner)
  intro _ _ _ _
  show (List.map _ (w.store.targetsOf t.id)).Perm
    ((w.broker.subscriptionsOf (naming.topicHandle t.id)).map _)
  rw [hnone, hvacant]
  exact List.Perm.nil

theorem Serving.setHandles {other : TriggerId} {handles : Handles} {r : Unit}
    (h : w.Serving naming id (fun _ => True) change)
    (hdone : (Call.setHandles other handles).perform w = (.ok r, v)) :
    v.Serving naming id kind change := by
  rcases Call.setHandles_ok hdone with ⟨_, rfl⟩
  intro t ht hid _
  rcases List.mem_map.mp ht with ⟨old, hold, hwritten⟩
  apply h old hold _ trivial
  rw [← hid, ← hwritten]
  split
  · rfl
  · rfl

end Trigger
end World
end TelemetryTriggers
