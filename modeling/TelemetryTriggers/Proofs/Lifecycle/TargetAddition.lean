import TelemetryTriggers.Lifecycle.Targets
import TelemetryTriggers.Proofs.Lifecycle.Create
import TelemetryTriggers.Proofs.Requests.Targets
import TelemetryTriggers.Proofs.Saga.Spared
import TelemetryTriggers.Proofs.Saga.Undo
import TelemetryTriggers.Proofs.Services.Pairing

/-!
# Additions of targets

An addition subscribes the new target before it writes the row.  Every call before that
only asks, and a row that is not written has its subscription taken back.  So an addition
that fails leaves everything as it was, as long as the subscription can be taken back.

Main definitions: `World.SameState`, two worlds that hold the same; `World.withTarget`;
`Lifecycle.Joined`, a target that was added to a trigger.  The main statement is
`Lifecycle.addTarget_atomic`.
-/

namespace TelemetryTriggers
namespace World

/-- The two worlds hold the same rows, resources, deliveries and locks. -/
def SameState (w v : World) : Prop :=
  exists faults ids, v = { w with faults, ids }

def withTarget (topic : TopicHandle) (row : Target) (w : World) : World :=
  { w with
    store := { w.store with targets := w.store.targets ++ [row] }
    broker := { w.broker with
      subscriptions := w.broker.subscriptions ++ [row.subscribed topic] } }

/-- The next two identifiers are new: the first one for a subscription to the topic, the
second one for a target. -/
structure RoomForTarget (topic : TopicHandle) (w : World) : Prop where
  subscription : forall s, s ∈ w.broker.subscriptions ->
    s.handle ≠ Broker.subscriptionHandle topic w.ids.next.1
  target : forall q, q ∈ w.store.targets -> q.id ≠ ⟨w.ids.next.2.next.1⟩

variable {w v : World} {topic : TopicHandle} {row : Target} {id : TriggerId} {locks : LockTable}

theorem SameState.refl (w : World) : w.SameState w :=
  ⟨w.faults, w.ids, rfl⟩

theorem SameState.withFaults (h : w.SameState v) (p : FaultPlan) :
    w.SameState { v with faults := p } := by
  rcases h with ⟨_, ids, rfl⟩
  exact ⟨p, ids, rfl⟩

theorem SameState.release (hfree : w.locks.acquire? id = some locks)
    (h : SameState { w with locks } v) :
    w.SameState { v with locks := v.locks.release id } := by
  rcases LockTable.acquire?_eq_some hfree with ⟨hheld, rfl⟩
  rcases h with ⟨faults, ids, rfl⟩
  refine ⟨faults, ids, ?_⟩
  simp only [LockTable.release_cons hheld]

end World

namespace Lifecycle

variable {w : World} {user : UserId} {id : TriggerId} {topic : TopicHandle} {row : Target}
  {fails : Call -> ServiceError -> Prop} {n : Nat}

theorem bears_visibleTrigger {Q : Nat -> Trigger -> World -> Prop}
    {E : Nat -> TriggerError -> World -> Prop}
    (hvisible : forall t, w.store.trigger? id = some t -> isVisibleTo user t = true -> Q n t w)
    (herror : forall m e, E m e w) : (visibleTrigger user id).Bears fails Q E n w := by
  apply Operation.Bears.bind
  apply Operation.Bears.ask (c := .getTrigger id)
  · intro row v hread
    cases hread
    apply Operation.Bears.orFail
    · intro t ht
      rcases Option.filter_eq_some_iff.mp ht with ⟨hfound, hsees⟩
      exact hvisible t hfound hsees
    · exact fun _ => herror n _
  · exact fun e _ => herror n _
  · exact fun m e _ _ => herror m _

/-- The row is one of a trigger that the account sees, and it and its subscription to the
topic of that trigger are all that was added. -/
structure Joined (user : UserId) (id : TriggerId) (w : World) (row : Target) (v : World) :
    Prop where
  owner : row.trigger = id
  added : exists t handles, t ∈ w.store.triggers ∧ t.id = id ∧ isVisibleTo user t = true ∧
    t.handles = some handles ∧ (w.withTarget handles.topic row).SameState v

theorem Joined.withFaults {v : World} (h : Joined user id w row v) (p : FaultPlan) :
    Joined user id w row { v with faults := p } := by
  rcases h.added with ⟨t, handles, ht, hid, hsees, hhandles, hsame⟩
  exact ⟨h.owner, t, handles, ht, hid, hsees, hhandles, hsame.withFaults p⟩

theorem Joined.release {v : World} {locks : LockTable}
    (hfree : w.locks.acquire? id = some locks) (h : Joined user id { w with locks } row v) :
    Joined user id w row { v with locks := v.locks.release id } := by
  rcases h.added with ⟨t, handles, ht, hid, hsees, hhandles, hsame⟩
  exact ⟨h.owner, t, handles, ht, hid, hsees, hhandles,
    World.SameState.release (w := w.withTarget handles.topic row) hfree hsame⟩

def CanUnsubscribe (fails : Call -> ServiceError -> Prop) (n : Nat) : Prop :=
  n ≤ 1 ∨ forall subscription e, ¬fails (.unsubscribe subscription) e

variable {target : ValidTarget}

theorem writeTarget_joins {t : Trigger} {subscription : SubscriptionHandle} {ids : IdSource}
    (hback : CanUnsubscribe fails n) (ht : t ∈ w.store.triggers)
    (hnew : forall s, s ∈ w.broker.subscriptions -> s.handle ≠ subscription)
    (hfresh : forall q, q ∈ w.store.targets -> q.id ≠ ⟨ids.next.1⟩) :
    (do
      let u ← Operation.fresh
      let row : Target := ⟨⟨u⟩, t.id, target.kind, target.address, subscription⟩
      (Operation.ask (.insertTarget row)).orUndo [.unsubscribe subscription]
      pure row : Operation Target).Bears fails
        (fun _ row v => row.trigger = t.id ∧ target = ⟨row.kind, row.address⟩ ∧
          (w.withTarget topic row).SameState v)
        (fun _ _ v => w.SameState v) n
        { w with
          broker := { w.broker with
            subscriptions := w.broker.subscriptions ++
              [⟨subscription, topic, target.kind.protocol, target.address⟩] }
          ids } := by
  let row : Target := ⟨⟨ids.next.1⟩, t.id, target.kind, target.address, subscription⟩
  let v : World := { w with
    broker := { w.broker with
      subscriptions := w.broker.subscriptions ++ [row.subscribed topic] }
    ids := ids.next.2 }
  have hperform : (Call.insertTarget row).perform v = (.ok (), { v with
      store := { v.store with targets := v.store.targets ++ [row] } }) :=
    Call.insertTarget_of_fresh ⟨t, ht, rfl⟩ hfresh
  apply Operation.Bears.bind
  apply Operation.Bears.fresh
  apply Operation.Bears.bind
  apply Operation.Bears.orUndo
  apply Operation.Bears.ask (c := .insertTarget row)
  · intro _ u hdone
    cases hperform.symm.trans hdone
    exact Operation.Bears.pure ⟨rfl, rfl, w.faults, ids.next.2, rfl⟩
  · intro e hrefused
    cases (congrArg Prod.fst hperform).symm.trans hrefused
  · intro m e hm _
    have hkept : (w.broker.subscriptions ++ [row.subscribed topic]).filter
        (·.handle != subscription) = w.broker.subscriptions := by
      rw [List.filter_append, List.filter_eq_self.mpr fun s hs => bne_iff_ne.mpr (hnew s hs),
        List.filter_cons_of_neg (by simp [Target.subscribed, row]), List.filter_nil,
        List.append_nil]
    refine ⟨?_, ?_⟩
    · show w.SameState ((Call.unsubscribe subscription).perform v).2
      rw [(Call.clears_unsubscribe subscription v).perform_eq]
      refine ⟨w.faults, ids.next.2, ?_⟩
      simp only [v, hkept]
    · intro k e hk hfails
      rcases hback with hfew | hspared
      · omega
      · exact absurd hfails (hspared subscription e)

theorem addTargetOwned_joins (hback : CanUnsubscribe fails n)
    (hroom : forall t handles, t ∈ w.store.triggers -> t.id = id -> t.handles = some handles ->
      w.RoomForTarget handles.topic) (maxTargets : Nat) :
    (addTargetOwned maxTargets user id target).Bears fails
      (fun _ row v => target = ⟨row.kind, row.address⟩ ∧ Joined user id w row v)
      (fun _ _ v => w.SameState v) n w := by
  rw [addTargetOwned]
  apply Operation.Bears.bind
  apply bears_visibleTrigger
  · intro t hfound hsees
    rcases Store.trigger?_eq_some hfound with ⟨ht, rfl⟩
    apply Operation.Bears.bind
    apply Operation.Bears.orFail
    · intro handles hhandles
      have hfresh := hroom t handles ht rfl hhandles
      apply Operation.Bears.bind
      apply Operation.Bears.ask (c := .listTargets t.id)
      · intro rows v hread
        cases hread
        split
        · exact Operation.Bears.fail (.refl w)
        · apply Operation.Bears.bind
          apply Operation.Bears.ask (c := .subscribe handles.topic target.kind.protocol _)
          · intro subscription v hdone
            rcases Call.subscribe_ok hdone with ⟨_, rfl, rfl⟩
            rw [List.filter_eq_self.mpr fun s hs => bne_iff_ne.mpr (hfresh.subscription s hs)]
            apply (writeTarget_joins hback ht hfresh.subscription hfresh.target).mono
            · intro _ row v hrow
              rcases hrow with ⟨howner, htarget, hsame⟩
              exact ⟨htarget, howner, t, handles, ht, rfl, hsees, hhandles, hsame⟩
            · exact fun _ _ _ hsame => hsame
          · exact fun _ _ => .refl w
          · exact fun _ _ _ _ => .refl w
      · exact fun _ _ => .refl w
      · exact fun _ _ _ _ => .refl w
    · exact fun _ => .refl w
  · exact fun _ _ => .refl w

inductive AllOrNone (user : UserId) (id : TriggerId) (spec : TargetSpec) (w : World) :
    Except TriggerError Target -> World -> Prop
  | all {row : Target} {v : World} (hvalid : spec.validate = .ok ⟨row.kind, row.address⟩)
      (hjoined : Joined user id w row v) : AllOrNone user id spec w (.ok row) v
  | none {e : TriggerError} {v : World} (hsame : w.SameState v) :
      AllOrNone user id spec w (.error e) v

theorem AllOrNone.withFaults {spec : TargetSpec} {result : Except TriggerError Target} {v : World}
    (h : AllOrNone user id spec w result v) (p : FaultPlan) :
    AllOrNone user id spec w result { v with faults := p } := by
  cases h with
  | all hvalid hjoined => exact .all hvalid (hjoined.withFaults p)
  | none hsame => exact .none (hsame.withFaults p)

theorem addTarget_joins (config : Config) (spec : TargetSpec) (hback : CanUnsubscribe fails n)
    (hroom : forall t handles, t ∈ w.store.triggers -> t.id = id -> t.handles = some handles ->
      w.RoomForTarget handles.topic) :
    (addTarget config user id spec).Bears fails
      (fun _ row => AllOrNone user id spec w (.ok row))
      (fun _ e => AllOrNone user id spec w (.error e)) n w := by
  rw [addTarget]
  apply Operation.Bears.bind
  apply Operation.Bears.ofExcept
  · intro target hvalid
    apply Operation.Bears.detached
    apply Operation.Bears.locked (.none (.refl w))
    intro locks hfree
    have hfresh : forall t handles, t ∈ w.store.triggers -> t.id = id ->
        t.handles = some handles -> World.RoomForTarget handles.topic { w with locks } := by
      intro t handles ht hid hhandles
      have hthere := hroom t handles ht hid hhandles
      exact ⟨hthere.subscription, hthere.target⟩
    apply (addTargetOwned_joins (w := { w with locks }) hback hfresh config.maxTargets).mono
    · intro _ row v hrow
      rcases hrow with ⟨rfl, hjoined⟩
      exact .all hvalid (hjoined.release hfree)
    · exact fun _ _ _ hsame => .none (hsame.release hfree)
  · exact fun _ _ => .none (.refl w)

theorem parse_of_validate {spec : TargetSpec} (h : spec.validate = .ok target) :
    TargetKind.parse spec.kind = .ok target.kind ∧ target.address = Text.trim spec.address := by
  have hreads := (TargetSpec.validate_eq_ok_iff.mp h).2
  exact ⟨TargetKind.parse_eq_ok_iff.mpr hreads.kind, hreads.address⟩

/-- An addition that fails changes no row, no topic, no subscription, no delivery, no rule
and no lock, whatever made it fail.  One that succeeds adds the row that it returns after all
others, with the subscription of the trimmed address to the topic of the trigger, and nothing
else.  The plan may make any calls fail, except that the subscription can be taken back. -/
theorem addTarget_atomic (config : Config) (spec : TargetSpec)
    (hspared : w.faults.fault? "broker.unsubscribe" = none)
    (hroom : forall t handles, t ∈ w.store.triggers -> t.id = id -> t.handles = some handles ->
      w.RoomForTarget handles.topic) :
    (forall e v, (addTarget config user id spec).run.run config.callTimeout w = (.error e, v) ->
      v.store = w.store ∧ v.broker = w.broker ∧ v.engine = w.engine ∧ v.locks = w.locks) ∧
    forall row v, (addTarget config user id spec).run.run config.callTimeout w = (.ok row, v) ->
      TargetKind.parse spec.kind = .ok row.kind ∧ row.address = Text.trim spec.address ∧
        Joined user id w row v := by
  have hspares : forall operation, operation ∈ ["broker.unsubscribe"] ->
      w.faults.fault? operation = none := by
    intro operation hmem
    rw [List.mem_singleton.mp hmem]
    exact hspared
  have hback : CanUnsubscribe (fun c _ => c.operation ∉ ["broker.unsubscribe"])
      ((addTarget config user id spec).run.harms config.callTimeout w) :=
    .inr fun _ _ hnot => hnot List.mem_cons_self
  have hends := Operation.Bears.run (R := AllOrNone user id spec w)
    (addTarget_joins config spec hback hroom)
    (FaultPlan.within_of_spared config.callTimeout hspares) (Nat.le_refl _)
    fun _ _ p hr => hr.withFaults p
  constructor
  · intro e v hrun
    rw [hrun] at hends
    cases hends with
    | none hsame =>
        rcases hsame with ⟨faults, ids, rfl⟩
        exact ⟨rfl, rfl, rfl, rfl⟩
  · intro row v hrun
    rw [hrun] at hends
    cases hends with
    | all hvalid hjoined =>
        rcases parse_of_validate hvalid with ⟨hkind, haddress⟩
        exact ⟨hkind, haddress, hjoined⟩

/-!
# An example
-/

/-- The house once it has its alarm, where some rows cannot be written for a moment. -/
def alarmedHouse (operation : String) : World :=
  { ((create .standard heatAlarm).run.play house).2 with
    faults := FaultPlan.empty.set operation (.times (.unavailable "down") 1) }

def heatRow : Trigger :=
  ⟨⟨Uuid.ofNat 0⟩, ⟨7⟩, ⟨1⟩, ⟨"Temp", .greaterThan, 30⟩, "Too hot",
    some ⟨ResourceNaming.standard.topicHandle ⟨Uuid.ofNat 0⟩,
      ResourceNaming.standard.ruleHandle ⟨Uuid.ofNat 0⟩⟩⟩

theorem alarmedHouse_reachable (operation : String) : (alarmedHouse operation).Reachable :=
  ((create .standard heatAlarm).run.reachable_play house_reachable).around _ _ _

theorem alarmedHouse_room (operation : String) :
    forall t handles, t ∈ (alarmedHouse operation).store.triggers -> t.id = heatRow.id ->
      t.handles = some handles -> (alarmedHouse operation).RoomForTarget handles.topic := by
  intro t handles ht _ hhandles
  have hrow : t = heatRow := List.mem_singleton.mp ht
  rw [hrow] at hhandles
  cases hhandles
  have hroom : (alarmedHouse "").RoomForTarget (ResourceNaming.standard.topicHandle heatRow.id) :=
    ⟨by decide +kernel, by decide +kernel⟩
  exact ⟨hroom.subscription, hroom.target⟩

theorem alarm_gains_phone :
    let phone : TargetSpec := ⟨"sms", " +15551234567 "⟩
    let refusing := alarmedHouse "store.insert_target"
    let calm := alarmedHouse "store.delete_target"
    let failed := (addTarget .standard ⟨7⟩ heatRow.id phone).run.run
      Config.standard.callTimeout refusing
    let added := (addTarget .standard ⟨7⟩ heatRow.id phone).run.run
      Config.standard.callTimeout calm
    let row : Target := ⟨⟨Uuid.ofNat 4⟩, heatRow.id, .sms, "+15551234567",
      Broker.subscriptionHandle (ResourceNaming.standard.topicHandle heatRow.id) (Uuid.ofNat 3)⟩
    (refusing.Reachable ∧ failed.1 = .error (.store (.unavailable "down")) ∧
      failed.2.store = refusing.store ∧ failed.2.broker = refusing.broker ∧
        failed.2.engine = refusing.engine ∧ failed.2.locks = refusing.locks) ∧
    calm.Reachable ∧ added.1 = .ok row ∧ TargetKind.parse phone.kind = .ok row.kind ∧
      row.address = Text.trim phone.address ∧ Joined ⟨7⟩ heatRow.id calm row added.2 := by
  intro phone refusing calm failed added row
  have hfailed : failed.1 = .error (.store (.unavailable "down")) := by decide +kernel
  have hadded : added.1 = .ok row := by decide +kernel
  have hrefused : failed = (.error (.store (.unavailable "down")), failed.2) := by rw [← hfailed]
  have hdone : added = (.ok row, added.2) := by rw [← hadded]
  have hunchanged := (addTarget_atomic .standard phone (by decide +kernel)
    (alarmedHouse_room "store.insert_target")).1 _ _ hrefused
  have hjoined := (addTarget_atomic .standard phone (by decide +kernel)
    (alarmedHouse_room "store.delete_target")).2 _ _ hdone
  exact ⟨⟨alarmedHouse_reachable "store.insert_target", hfailed, hunchanged⟩,
    alarmedHouse_reachable "store.delete_target", hadded, hjoined⟩

end Lifecycle
end TelemetryTriggers
