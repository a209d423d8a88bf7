import TelemetryTriggers.Proofs.Registry.Image
import TelemetryTriggers.Proofs.Requests.Validation

/-!
# Additions to a registry

A creation appends one item after the other to what the services hold, and so does the
addition of a target.  Each item gets a name of its own, because the identifiers that
are drawn for it are new, so no step is refused.

Main definition: `World.Ready`, when a target can be added.  The main statements are
`Registry.Mirrors.follows_create` and `Registry.Mirrors.follows_addTarget`.
-/

namespace TelemetryTriggers

variable {naming : ResourceNaming} {things : List Thing} {r : Registry} {w : World}

/-!
# Rows of targets
-/

namespace World

def withTargets (naming : ResourceNaming) (rows : List Target) (ids : IdSource) (w : World) :
    World :=
  { w with
    store := { w.store with targets := w.store.targets ++ rows }
    broker := { w.broker with
      subscriptions :=
        w.broker.subscriptions ++ rows.map (Lifecycle.subscriptionOf naming) }
    ids }

theorem withTargets_nil (w : World) : w.withTargets naming [] w.ids = w := by
  simp only [withTargets, List.map_nil, List.append_nil]

theorem withTargets_cons (row : Target) (rows : List Target) (ids ids' : IdSource)
    (w : World) :
    (w.withTargets naming [row] ids').withTargets naming rows ids =
      w.withTargets naming (row :: rows) ids := by
  simp only [withTargets, List.append_assoc, List.map_cons, List.map_nil, List.singleton_append]

structure Ready (naming : ResourceNaming) (id : TriggerId) (w : World) : Prop where
  live : w.broker.hasTopic (naming.topicHandle id) = true
  row : exists t, t ∈ w.store.triggers ∧ t.id = id
  targets : forall q, q ∈ w.store.targets -> w.ids.Gave q.id.uuid
  subscriptions : forall s, s ∈ w.broker.subscriptions -> forall u,
    s.handle = Broker.subscriptionHandle (naming.topicHandle id) u -> w.ids.Gave u

end World

theorem Registry.precedes_enlist (target : ValidTarget) (ids : IdSource) :
    ids.Precedes (enlist target ids).2 :=
  ids.precedes_next.trans ids.next.2.precedes_next

theorem Registry.precedes_enlistAll (targets : List ValidTarget) (ids : IdSource) :
    ids.Precedes (enlistAll targets ids).2 := by
  induction targets generalizing ids with
  | nil => exact .refl ids
  | cons target targets ih => exact (precedes_enlist target ids).trans (ih _)

namespace World.Ready

variable {id : TriggerId}

theorem subscribe (h : w.Ready naming id) (hids : w.ids.next.2.Unrepeated)
    (kind : TargetKind) (address : String) :
    (Call.subscribe (naming.topicHandle id) kind.protocol address).perform w =
      (.ok (Broker.subscriptionHandle (naming.topicHandle id) w.ids.next.1), { w with
        broker := { w.broker with
          subscriptions := w.broker.subscriptions ++
            [⟨Broker.subscriptionHandle (naming.topicHandle id) w.ids.next.1,
              naming.topicHandle id, kind.protocol, address⟩] }
        ids := w.ids.next.2 }) := by
  apply Call.subscribe_of_live h.live
  intro s hs hhandle
  exact hids.next_ne (h.subscriptions s hs _ hhandle) rfl

theorem insertTarget (h : w.Ready naming id) (hids : w.ids.next.2.next.2.Unrepeated)
    (target : ValidTarget) (b : Broker) :
    (Call.insertTarget ((Registry.enlist target w.ids).1.row naming id)).perform
        { w with broker := b, ids := w.ids.next.2.next.2 } =
      (.ok (), { w with
        store := { w.store with
          targets := w.store.targets ++ [(Registry.enlist target w.ids).1.row naming id] }
        broker := b
        ids := w.ids.next.2.next.2 }) := by
  apply Call.insertTarget_of_fresh (w := { w with broker := b, ids := w.ids.next.2.next.2 })
    h.row
  intro q hq hid
  have hgave := w.ids.precedes_next.gave (h.targets q hq)
  exact hids.next_ne hgave (congrArg TargetId.uuid hid)

theorem withTarget (h : w.Ready naming id) (target : ValidTarget) :
    (w.withTargets naming [(Registry.enlist target w.ids).1.row naming id]
      (Registry.enlist target w.ids).2).Ready naming id := by
  have hlater := Registry.precedes_enlist target w.ids
  constructor
  case live => exact h.live
  case row => exact h.row
  case targets =>
    intro q hq
    rcases List.mem_append.mp hq with hold | hnew
    · exact hlater.gave (h.targets q hold)
    · rw [List.mem_singleton.mp hnew]
      exact w.ids.next.2.gave_next
  case subscriptions =>
    intro s hs u hhandle
    rcases List.mem_append.mp hs with hold | hnew
    · exact hlater.gave (h.subscriptions s hold u hhandle)
    · rw [List.map_singleton, List.mem_singleton] at hnew
      rcases hnew with rfl
      rw [← (Broker.subscriptionHandle_inj hhandle).2]
      exact w.ids.next.2.precedes_next.gave w.ids.gave_next

end World.Ready

theorem Lifecycle.play_subscribeTargets {id : TriggerId} (targets : List ValidTarget)
    (undos : List Undo) (h : w.Ready naming id)
    (hids : (Registry.enlistAll targets w.ids).2.Unrepeated) :
    exists undos',
      (subscribeTargets id (naming.topicHandle id) targets undos).run.play w =
        (.ok ((Registry.enlistAll targets w.ids).1.map (Listed.row naming id), undos'),
          w.withTargets naming ((Registry.enlistAll targets w.ids).1.map (Listed.row naming id))
            (Registry.enlistAll targets w.ids).2) := by
  induction targets generalizing w undos with
  | nil =>
      refine ⟨undos, ?_⟩
      show _ = (_, w.withTargets naming [] w.ids)
      rw [World.withTargets_nil]
      rfl
  | cons target targets ih =>
      have hsecond : w.ids.next.2.next.2.Unrepeated :=
        (Registry.precedes_enlistAll targets _).unrepeated hids
      have hfirst := w.ids.next.2.precedes_next.unrepeated hsecond
      have hsubscribe := h.subscribe hfirst target.kind target.address
      have hinsert := h.insertTarget hsecond target { w.broker with
        subscriptions := w.broker.subscriptions ++
          [Lifecycle.subscriptionOf naming ((Registry.enlist target w.ids).1.row naming id)] }
      rcases ih _ (h.withTarget target) hids with ⟨undos', hrest⟩
      refine ⟨undos', ?_⟩
      rw [subscribeTargets, Operation.play_bind_of_ok
        (Operation.play_orUndo_of_ok (Operation.play_ask_of_ok hsubscribe) undos)]
      refine (Operation.play_bind_of_ok (Operation.play_fresh _)).trans ?_
      refine (Operation.play_bind_of_ok
        (Operation.play_orUndo_of_ok (Operation.play_ask_of_ok hinsert) _)).trans ?_
      refine (Operation.play_bind_of_ok hrest).trans ?_
      rw [World.withTargets_cons]
      rfl

/-!
# One more target
-/

namespace Registry

theorem mem_withTarget {id : TriggerId} {l : Listed} {entries : List Entry} {e : Entry} :
    e ∈ withTarget id l entries ↔ exists old, old ∈ entries ∧
      (if old.id = id then { old with targets := old.targets ++ [l] } else old) = e :=
  List.mem_map

theorem map_withTarget {α : Type} {image : Entry -> α}
    (himage : forall e listed, image { e with targets := listed } = image e)
    (id : TriggerId) (l : Listed) (entries : List Entry) :
    (withTarget id l entries).map image = entries.map image := by
  rw [withTarget, List.map_map]
  apply List.map_congr_left
  intro e _
  rw [Function.comp_apply]
  split
  · exact himage e _
  · rfl

namespace Mirrors

theorem hasTopic (h : r.Mirrors naming things w) {e : Entry} (he : e ∈ r.entries) :
    w.broker.hasTopic (naming.topicHandle e.id) = true := by
  apply Broker.hasTopic_iff.mpr
  refine ⟨e.topic naming, ?_, rfl⟩
  rw [h.shows.topics]
  exact List.mem_map_of_mem he

theorem gave_target (h : r.Mirrors naming things w) {q : Target} (hq : q ∈ w.store.targets) :
    r.ids.Gave q.id.uuid := by
  rcases h.shows.owned q hq with ⟨e, he, hrow⟩
  rcases Entry.mem_rows.mp hrow with ⟨l, hl, rfl⟩
  apply h.drawn e he
  exact List.mem_cons_of_mem _ (List.mem_flatMap.mpr ⟨l, hl, List.mem_cons_self⟩)

theorem gave_suffix (h : r.Mirrors naming things w) {s : Subscription}
    (hs : s ∈ w.broker.subscriptions) {topic : TopicHandle} {u : Uuid}
    (hhandle : s.handle = Broker.subscriptionHandle topic u) : r.ids.Gave u := by
  rw [h.shows.subscriptions] at hs
  rcases List.mem_map.mp hs with ⟨q, hq, rfl⟩
  rcases h.shows.owned q hq with ⟨e, he, hrow⟩
  rcases Entry.mem_rows.mp hrow with ⟨l, hl, rfl⟩
  rw [← (Broker.subscriptionHandle_inj hhandle).2]
  apply h.drawn e he
  exact List.mem_cons_of_mem _
    (List.mem_flatMap.mpr ⟨l, hl, List.mem_cons_of_mem _ List.mem_cons_self⟩)

theorem ready (h : r.Mirrors naming things w) {e : Entry} (he : e ∈ r.entries) :
    w.Ready naming e.id := by
  constructor
  case live => exact h.hasTopic he
  case row =>
    refine ⟨e.row naming, ?_, rfl⟩
    rw [h.shows.triggers]
    exact List.mem_map_of_mem he
  case targets =>
    intro q hq
    rw [h.shows.ids]
    exact h.gave_target hq
  case subscriptions =>
    intro s hs u hhandle
    rw [h.shows.ids]
    exact h.gave_suffix hs hhandle

theorem shows_withTarget (h : r.Mirrors naming things w) {e : Entry} (he : e ∈ r.entries)
    (l : Listed) (ids : IdSource) :
    Registry.Shows naming things ⟨withTarget e.id l r.entries, ids⟩
      (w.withTargets naming [l.row naming e.id] ids) := by
  constructor
  case things => exact h.shows.things
  case triggers => exact h.shows.triggers.trans (map_withTarget (fun _ _ => rfl) _ _ _).symm
  case targets =>
    intro e' he'
    rcases mem_withTarget.mp he' with ⟨old, hold, rfl⟩
    have hrows := h.shows.targets old hold
    unfold Store.targetsOf at hrows
    show (w.store.targets ++ [l.row naming e.id]).filter _ = _
    split
    · rename_i hid
      rw [List.filter_append, hrows, Entry.rows, Entry.rows, List.map_append, hid,
        List.filter_singleton]
      simp [Listed.row]
    · rename_i hid
      have hother : (e.id == old.id) = false := by simpa using Ne.symm hid
      rw [List.filter_append, hrows, List.filter_singleton]
      simp [Listed.row, hother]
  case owned =>
    intro q hq
    rcases List.mem_append.mp hq with hold | hnew
    · rcases h.shows.owned q hold with ⟨old, hmem, hrow⟩
      refine ⟨_, mem_withTarget.mpr ⟨old, hmem, rfl⟩, ?_⟩
      split
      · rw [Entry.rows, List.map_append]
        exact List.mem_append_left _ hrow
      · exact hrow
    · refine ⟨_, mem_withTarget.mpr ⟨e, he, rfl⟩, ?_⟩
      rw [if_pos rfl, Entry.rows, List.map_append]
      exact List.mem_append_right _ hnew
  case topics => exact h.shows.topics.trans (map_withTarget (fun _ _ => rfl) _ _ _).symm
  case subscriptions =>
    show w.broker.subscriptions ++ _ = (w.store.targets ++ _).map _
    rw [h.shows.subscriptions, List.map_append]
  case rules => exact h.shows.rules.trans (map_withTarget (fun _ _ => rfl) _ _ _).symm
  case deliveries => exact h.shows.deliveries
  case ids => rfl

theorem drawn_withTarget (h : r.Mirrors naming things w) (id : TriggerId)
    (target : ValidTarget) (e : Entry)
    (he : e ∈ withTarget id (enlist target r.ids).1 r.entries) (u : Uuid) (hu : u ∈ e.uuids) :
    (enlist target r.ids).2.Gave u := by
  have hold : forall old, old ∈ r.entries -> u ∈ old.uuids ->
      (enlist target r.ids).2.Gave u :=
    fun old hmem hu => (precedes_enlist target r.ids).gave (h.drawn old hmem u hu)
  rcases mem_withTarget.mp he with ⟨old, hmem, rfl⟩
  split at hu
  · rw [Entry.uuids, List.flatMap_append, ← List.cons_append, List.mem_append] at hu
    rcases hu with hu | hu
    · exact hold old hmem hu
    · rw [List.flatMap_singleton, List.mem_cons, List.mem_singleton] at hu
      rcases hu with rfl | rfl
      · exact r.ids.next.2.gave_next
      · exact r.ids.next.2.precedes_next.gave r.ids.gave_next
  · exact hold old hmem hu

theorem play_addTargetOwned (h : r.Mirrors naming things w) {maxTargets : Nat}
    (target : ValidTarget) {e : Entry} (he : e ∈ r.entries)
    (hroom : ¬ maxTargets ≤ e.targets.length)
    (hids : (enlist target r.ids).2.Unrepeated) :
    (Lifecycle.addTargetOwned maxTargets e.user e.id target).run.play w =
      (.ok ((enlist target r.ids).1.row naming e.id),
        w.withTargets naming [(enlist target r.ids).1.row naming e.id]
          (enlist target r.ids).2) := by
  rw [← h.shows.ids] at hids ⊢
  have hvisible := h.play_visibleTrigger e.user e.id
  rw [h.entry?_of_mem he] at hvisible
  have hready := h.ready he
  have hsubscribe := hready.subscribe (w.ids.next.2.precedes_next.unrepeated hids)
    target.kind target.address
  have hinsert := hready.insertTarget hids target { w.broker with
    subscriptions := w.broker.subscriptions ++
      [Lifecycle.subscriptionOf naming ((enlist target w.ids).1.row naming e.id)] }
  have hlength : ¬ maxTargets ≤ (e.rows naming).length := by
    rw [Entry.rows, List.length_map]
    exact hroom
  rw [Lifecycle.addTargetOwned, Operation.play_bind_of_ok hvisible,
    Operation.play_bind_of_ok (a := naming.handles e.id) (w := w) (v := w) rfl,
    Operation.play_bind_of_ok (Operation.play_ask_of_ok rfl), h.shows.targets e he,
    if_neg hlength]
  refine (Operation.play_bind_of_ok (Operation.play_ask_of_ok hsubscribe)).trans ?_
  refine (Operation.play_bind_of_ok (Operation.play_fresh _)).trans ?_
  refine (Operation.play_bind_of_ok
    (Operation.play_orUndo_of_ok (Operation.play_ask_of_ok hinsert) _)).trans ?_
  rfl

theorem play_addTargetOwned_of_full (h : r.Mirrors naming things w) {maxTargets : Nat}
    {target : ValidTarget} {e : Entry} (he : e ∈ r.entries)
    (hfull : maxTargets ≤ e.targets.length) :
    (Lifecycle.addTargetOwned maxTargets e.user e.id target).run.play w =
      (.error (.validation (.targetLimit e.id maxTargets)), w) := by
  have hvisible := h.play_visibleTrigger e.user e.id
  rw [h.entry?_of_mem he] at hvisible
  have hlength : maxTargets ≤ (e.rows naming).length := by
    rw [Entry.rows, List.length_map]
    exact hfull
  rw [Lifecycle.addTargetOwned, Operation.play_bind_of_ok hvisible,
    Operation.play_bind_of_ok (a := naming.handles e.id) (w := w) (v := w) rfl,
    Operation.play_bind_of_ok (Operation.play_ask_of_ok rfl), h.shows.targets e he,
    if_pos hlength]
  rfl

theorem follows_addTarget (config : Config) (h : r.Mirrors config.naming things w)
    (hlocks : w.locks = .empty) (user : UserId) (id : TriggerId) (spec : TargetSpec)
    (hids : (addTarget config user id spec r).2.ids.Unrepeated) :
    Registry.Follows config.naming things (Lifecycle.addTarget config user id spec) w
      (addTarget config user id spec r) := by
  rw [addTarget] at hids ⊢
  cases hvalid : spec.validate with
  | error e =>
      apply h.follows_of_play hlocks
      rw [Lifecycle.addTarget, hvalid]
      rfl
  | ok target =>
      simp only [hvalid] at hids
      have hlocked := h.around w.faults ⟨id :: w.locks.held⟩
      apply Registry.Follows.after (a := target)
      · rw [hvalid]
        rfl
      · cases hentry : r.entry? user id with
        | none =>
            have hvisible := hlocked.play_visibleTrigger user id
            rw [hentry] at hvisible
            exact follows_of_locked h.integrity hlocks (Operation.play_bind_of_error hvisible)
              h.shows h.drawn
        | some e =>
            rcases entry?_eq_some hentry with ⟨he, rfl, rfl⟩
            simp only [hentry] at hids ⊢
            by_cases hfull : config.maxTargets ≤ e.targets.length
            · rw [if_pos hfull]
              exact follows_of_locked h.integrity hlocks
                (hlocked.play_addTargetOwned_of_full he hfull) h.shows h.drawn
            · rw [if_neg hfull] at hids ⊢
              have hplay := hlocked.play_addTargetOwned target he hfull
              exact follows_of_locked (v := w.withTargets _ _ _) h.integrity hlocks (hplay hids)
                (h.shows_withTarget he _ _) (h.drawn_withTarget e.id target)

end Mirrors
end Registry

/-!
# One more entry
-/

def Entry.draft (e : Entry) : Trigger :=
  ⟨e.id, e.user, e.thing.id, e.condition, e.message, none⟩

namespace World

def withDraft (e : Entry) (w : World) : World :=
  { w with store := { w.store with triggers := w.store.triggers ++ [e.draft] } }

def withTopic (naming : ResourceNaming) (e : Entry) (w : World) : World :=
  { w with broker := { w.broker with topics := w.broker.topics ++ [e.topic naming] } }

def withRule (naming : ResourceNaming) (e : Entry) (w : World) : World :=
  { w with engine := ⟨w.engine.rules ++ [e.rule naming]⟩ }

def withEntry (naming : ResourceNaming) (e : Entry) (ids : IdSource) (w : World) : World :=
  { w with
    store := { w.store with
      triggers := w.store.triggers ++ [e.row naming]
      targets := w.store.targets ++ e.rows naming }
    broker := { w.broker with
      topics := w.broker.topics ++ [e.topic naming]
      subscriptions :=
        w.broker.subscriptions ++ (e.rows naming).map (Lifecycle.subscriptionOf naming) }
    engine := ⟨w.engine.rules ++ [e.rule naming]⟩
    ids }

structure Vacant (naming : ResourceNaming) (e : Entry) (w : World) : Prop where
  row : forall t, t ∈ w.store.triggers -> t.id ≠ e.id
  topic : w.broker.hasTopic (naming.topicHandle e.id) = false
  rule : forall t, t ∈ w.engine.rules -> t.handle ≠ naming.ruleHandle e.id
  targets : forall q, q ∈ w.store.targets -> w.ids.Gave q.id.uuid
  subscriptions : forall s, s ∈ w.broker.subscriptions -> forall topic u,
    s.handle = Broker.subscriptionHandle topic u -> w.ids.Gave u

theorem Vacant.ready {e : Entry} (h : w.Vacant naming e) :
    ((w.withDraft e).withTopic naming e).Ready naming e.id where
  live := Broker.hasTopic_iff.mpr
    ⟨e.topic naming, List.mem_append_right _ List.mem_cons_self, rfl⟩
  row := ⟨e.draft, List.mem_append_right _ List.mem_cons_self, rfl⟩
  targets := h.targets
  subscriptions := fun s hs u hhandle => h.subscriptions s hs _ u hhandle

end World

namespace World.Vacant

variable {e : Entry}

theorem createTopic (h : w.Vacant naming e) :
    (Call.createTopic (naming.topicName e.draft.id)).perform (w.withDraft e) =
      (.ok (naming.topicHandle e.id), (w.withDraft e).withTopic naming e) :=
  Call.createTopic_of_absent (w := w.withDraft e) h.topic

theorem installRule (h : w.Vacant naming e) (ids : IdSource) :
    (Call.installRule (naming.ruleName e.draft.id) e.predicate
      (naming.topicHandle e.id)).perform
        (((w.withDraft e).withTopic naming e).withTargets naming (e.rows naming) ids) =
      (.ok (naming.ruleHandle e.id),
        (((w.withDraft e).withTopic naming e).withTargets naming
          (e.rows naming) ids).withRule naming e) :=
  Call.installRule_of_fresh
    (w := ((w.withDraft e).withTopic naming e).withTargets naming (e.rows naming) ids) h.rule

theorem trigger? (h : w.Vacant naming e) :
    (w.withDraft e).store.trigger? e.id = some e.draft := by
  have hnone : w.store.triggers.find? (·.id == e.id) = none := by
    rw [List.find?_eq_none]
    exact fun t ht => by simpa using h.row t ht
  show (w.store.triggers ++ [e.draft]).find? (·.id == e.id) = _
  rw [List.find?_append, hnone]
  simp [Entry.draft]

theorem setHandles (h : w.Vacant naming e) (ids : IdSource) :
    (Call.setHandles e.draft.id (naming.handles e.id)).perform
        ((((w.withDraft e).withTopic naming e).withTargets naming
          (e.rows naming) ids).withRule naming e) =
      (.ok (), w.withEntry naming e ids) := by
  refine (Call.setHandles_of_draft (w := (((w.withDraft e).withTopic naming e).withTargets
    naming (e.rows naming) ids).withRule naming e) h.trigger? rfl).trans ?_
  have hrows : Store.withHandles e.draft.id (naming.handles e.id)
      (w.store.triggers ++ [e.draft]) = w.store.triggers ++ [e.row naming] :=
    Store.withHandles_concat _ h.row rfl
  unfold World.withDraft World.withEntry
  rw [← hrows]
  rfl

end World.Vacant

namespace Lifecycle

theorem play_provision {e : Entry} {targets : List ValidTarget} {ids : IdSource}
    (h : w.Vacant naming e) (hlisted : Registry.enlistAll targets w.ids = (e.targets, ids))
    (hids : ids.Unrepeated) (hname : validateThingName e.thing.name = .ok ())
    (undos : List Undo) :
    (provision naming e.draft e.thing targets undos).run.play (w.withDraft e) =
      (.ok (e.details naming), w.withEntry naming e ids) := by
  have hcompile : e.draft.condition.compile e.thing.name e.draft.message = .ok e.predicate :=
    Condition.compile_eq_ok.mpr ⟨hname, rfl⟩
  have hsource : ((w.withDraft e).withTopic naming e).ids = w.ids := rfl
  rcases play_subscribeTargets targets (.deleteTopic (naming.topicHandle e.id) :: undos) h.ready
    (by rw [hsource, hlisted]; exact hids) with ⟨undos', hsubscribe⟩
  rw [hsource, hlisted] at hsubscribe
  rw [provision, Operation.play_bind_of_ok
    (Operation.play_orUndo_of_ok (Operation.play_ask_of_ok h.createTopic) undos)]
  refine (Operation.play_bind_of_ok hsubscribe).trans ?_
  rw [hcompile]
  refine (Operation.play_bind_of_ok
    (Operation.play_orUndo_of_ok (Operation.play_ask_of_ok (h.installRule ids)) undos')).trans ?_
  exact Operation.play_bind_of_ok
    (Operation.play_orUndo_of_ok (Operation.play_ask_of_ok (h.setHandles ids)) _)

theorem play_pairedThing (user : UserId) (name : String) (w : World) :
    (pairedThing user name).run.play w =
      match (w.store.things.find? (·.name == name)).filter (·.owner == user) with
      | none => (.error (.validation (.unpairedThing name)), w)
      | some thing => (.ok thing, w) := by
  rw [pairedThing, Operation.play_bind_of_ok (Operation.play_ask_of_ok rfl), Store.thingNamed?]
  cases (w.store.things.find? (·.name == name)).filter (·.owner == user) with
  | none => rfl
  | some thing => rfl

theorem play_createWithId (e : Entry) (request : ValidRequest) {ids : IdSource}
    (h : w.Vacant naming e)
    (hthing : (w.store.things.find? (·.name == request.thingName)).filter
      (·.owner == e.user) = some e.thing)
    (hcondition : request.condition = e.condition) (hmessage : request.message = e.message)
    (hlisted : Registry.enlistAll request.targets w.ids = (e.targets, ids))
    (hids : ids.Unrepeated) (hname : validateThingName e.thing.name = .ok ()) :
    (createWithId naming e.user request e.id).run.play w =
      (.ok (e.details naming), w.withEntry naming e ids) := by
  have hpaired := play_pairedThing e.user request.thingName w
  rw [hthing] at hpaired
  rw [createWithId, Operation.play_bind_of_ok hpaired, hcondition, hmessage]
  have hdraft : (Call.insertTrigger e.draft).perform w = (.ok (), w.withDraft e) :=
    Call.insertTrigger_of_fresh h.row
  refine (Operation.play_bind_of_ok (Operation.play_ask_of_ok hdraft)).trans ?_
  exact play_provision h hlisted hids hname _

end Lifecycle

theorem validateThingName_of_validate {request : CreateRequest} {maxTargets : Nat}
    {valid : ValidRequest} (h : request.validate maxTargets = .ok valid) :
    validateThingName valid.thingName = .ok () := by
  rw [thingName_of_validate h]
  exact (CreateRequest.parts_of_validate h).1

namespace Registry

theorem gave_enlistAll (targets : List ValidTarget) (ids : IdSource) (l : Listed)
    (hl : l ∈ (enlistAll targets ids).1) :
    (enlistAll targets ids).2.Gave l.id.uuid ∧ (enlistAll targets ids).2.Gave l.suffix := by
  induction targets generalizing ids with
  | nil => exact absurd hl List.not_mem_nil
  | cons target targets ih =>
      rcases List.mem_cons.mp hl with rfl | hl
      · have hlater := precedes_enlistAll targets (enlist target ids).2
        exact ⟨hlater.gave ids.next.2.gave_next,
          hlater.gave (ids.next.2.precedes_next.gave ids.gave_next)⟩
      · exact ih _ hl

theorem gave_newEntry (user : UserId) (valid : ValidRequest) (thing : Thing) (ids : IdSource)
    (u : Uuid) (hu : u ∈ (newEntry user valid thing ids).uuids) :
    (enlistAll valid.targets ids.next.2).2.Gave u := by
  rcases List.mem_cons.mp hu with rfl | hu
  · exact (precedes_enlistAll valid.targets ids.next.2).gave ids.gave_next
  · rcases List.mem_flatMap.mp hu with ⟨l, hl, hu⟩
    have hgave := gave_enlistAll valid.targets ids.next.2 l hl
    rw [List.mem_cons, List.mem_singleton] at hu
    rcases hu with rfl | rfl
    · exact hgave.1
    · exact hgave.2

namespace Mirrors

theorem entry_ne (h : r.Mirrors naming things w) (hids : r.ids.next.2.Unrepeated)
    {e : Entry} (he : e ∈ r.entries) : e.id ≠ ⟨r.ids.next.1⟩ := by
  intro hid
  exact hids.next_ne (h.drawn e he _ List.mem_cons_self) (congrArg TriggerId.uuid hid)

theorem vacant (h : r.Mirrors naming things w) (hids : r.ids.next.2.Unrepeated) {e : Entry}
    (he : e.id = ⟨r.ids.next.1⟩) (locks : LockTable) :
    World.Vacant naming e { w with ids := r.ids.next.2, locks } := by
  constructor
  case row =>
    intro t ht
    have hmem : t ∈ r.entries.map (Entry.row naming) := h.shows.triggers ▸ ht
    rcases List.mem_map.mp hmem with ⟨old, hold, rfl⟩
    rw [he]
    exact h.entry_ne hids hold
  case topic =>
    rw [Bool.eq_false_iff, ne_eq, Broker.hasTopic_iff]
    intro htopic
    rcases htopic with ⟨t, ht, hhandle⟩
    have hmem : t ∈ r.entries.map (Entry.topic naming) := h.shows.topics ▸ ht
    rcases List.mem_map.mp hmem with ⟨old, hold, rfl⟩
    apply h.entry_ne hids hold
    rw [← he]
    exact ResourceNaming.topicHandle_injective hhandle
  case rule =>
    intro t ht hhandle
    have hmem : t ∈ r.entries.map (Entry.rule naming) := h.shows.rules ▸ ht
    rcases List.mem_map.mp hmem with ⟨old, hold, rfl⟩
    apply h.entry_ne hids hold
    rw [← he]
    exact ResourceNaming.ruleHandle_injective hhandle
  case targets => exact fun q hq => r.ids.precedes_next.gave (h.gave_target hq)
  case subscriptions =>
    exact fun s hs topic u hhandle => r.ids.precedes_next.gave (h.gave_suffix hs hhandle)

theorem shows_withEntry (h : r.Mirrors naming things w) (hids : r.ids.next.2.Unrepeated)
    {e : Entry} (he : e.id = ⟨r.ids.next.1⟩) (ids : IdSource) :
    Registry.Shows naming things ⟨r.entries ++ [e], ids⟩ (w.withEntry naming e ids) := by
  have howner : forall q, q ∈ e.rows naming -> q.trigger = e.id := by
    intro q hq
    rcases Entry.mem_rows.mp hq with ⟨l, _, rfl⟩
    rfl
  have happend : forall {α : Type} {image : Entry -> α} {items : List α},
      items = r.entries.map image -> items ++ [image e] = (r.entries ++ [e]).map image := by
    intro α image items hitems
    rw [hitems, List.map_append, List.map_singleton]
  constructor
  case things => exact h.shows.things
  case triggers => exact happend h.shows.triggers
  case targets =>
    intro e' he'
    show (w.store.targets ++ e.rows naming).filter (·.trigger == e'.id) = _
    rw [List.filter_append]
    rcases List.mem_append.mp he' with hold | hnew
    · have hnone : (e.rows naming).filter (·.trigger == e'.id) = [] := by
        rw [List.filter_eq_nil_iff]
        intro q hq htrigger
        apply h.entry_ne hids hold
        rw [← he, ← howner q hq, eq_of_beq htrigger]
      rw [hnone, List.append_nil]
      exact h.shows.targets e' hold
    · rcases List.mem_singleton.mp hnew with rfl
      have hnone : w.store.targets.filter (·.trigger == e'.id) = [] := by
        rw [List.filter_eq_nil_iff]
        intro q hq htrigger
        rcases h.shows.owned q hq with ⟨old, hold, hrow⟩
        rcases Entry.mem_rows.mp hrow with ⟨l, _, rfl⟩
        exact h.entry_ne hids hold ((eq_of_beq htrigger).trans he)
      rw [hnone, List.nil_append, List.filter_eq_self]
      exact fun q hq => beq_iff_eq.mpr (howner q hq)
  case owned =>
    intro q hq
    rcases List.mem_append.mp hq with hold | hnew
    · rcases h.shows.owned q hold with ⟨old, hmem, hrow⟩
      exact ⟨old, List.mem_append_left _ hmem, hrow⟩
    · exact ⟨e, List.mem_append_right _ List.mem_cons_self, hnew⟩
  case topics => exact happend h.shows.topics
  case subscriptions =>
    exact (congrArg (· ++ _) h.shows.subscriptions).trans List.map_append.symm
  case rules => exact happend h.shows.rules
  case deliveries => exact h.shows.deliveries
  case ids => rfl

theorem drawn_withEntry (h : r.Mirrors naming things w) {e : Entry} {ids : IdSource}
    (hids : r.ids.Precedes ids) (he : forall u, u ∈ e.uuids -> ids.Gave u) :
    forall e', e' ∈ r.entries ++ [e] -> forall u, u ∈ e'.uuids -> ids.Gave u := by
  intro e' he' u hu
  rcases List.mem_append.mp he' with hold | hnew
  · exact hids.gave (h.drawn e' hold u hu)
  · rw [List.mem_singleton.mp hnew] at hu
    exact he u hu

theorem follows_createValid (config : Config) (h : r.Mirrors config.naming things w)
    (hlocks : w.locks = .empty) (user : UserId) {valid : ValidRequest}
    (hname : validateThingName valid.thingName = .ok ())
    (hids : (createValid config things user valid r).2.ids.Unrepeated) :
    Registry.Follows config.naming things
      (.locked ⟨r.ids.next.1⟩
        (Lifecycle.createWithId config.naming user valid ⟨r.ids.next.1⟩))
      { w with ids := r.ids.next.2 } (createValid config things user valid r) := by
  have hintegrity : World.Integrity { w with ids := r.ids.next.2 } :=
    ⟨h.integrity.store, h.integrity.broker, h.integrity.engine⟩
  rw [createValid] at hids ⊢
  cases hthing : (things.find? (·.name == valid.thingName)).filter (·.owner == user) with
  | none =>
      have hpaired := Lifecycle.play_pairedThing user valid.thingName
        { w with ids := r.ids.next.2, locks := ⟨⟨r.ids.next.1⟩ :: w.locks.held⟩ }
      simp only [h.shows.things, hthing] at hpaired
      refine follows_of_locked (v := { w with ids := r.ids.next.2 }) hintegrity hlocks
        (Operation.play_bind_of_error hpaired) ?_ ?_
      · exact ⟨h.shows.things, h.shows.triggers, h.shows.targets, h.shows.owned,
          h.shows.topics, h.shows.subscriptions, h.shows.rules, h.shows.deliveries, rfl⟩
      · exact fun e he u hu => r.ids.precedes_next.gave (h.drawn e he u hu)
  | some thing =>
      simp only [hthing] at hids ⊢
      have hlater := precedes_enlistAll valid.targets r.ids.next.2
      have hnext := hlater.unrepeated hids
      have hthingName : validateThingName thing.name = .ok () := by
        rcases Option.filter_eq_some_iff.mp hthing with ⟨hfound, _⟩
        have heq := List.find?_some hfound
        rw [eq_of_beq heq]
        exact hname
      have hpaired : (w.store.things.find? (·.name == valid.thingName)).filter
          (·.owner == user) = some thing := by
        rw [h.shows.things]
        exact hthing
      have hplay := Lifecycle.play_createWithId (newEntry user valid thing r.ids) valid
        (h.vacant hnext rfl ⟨⟨r.ids.next.1⟩ :: w.locks.held⟩)
        hpaired rfl rfl rfl hids hthingName
      refine follows_of_locked
        (v := w.withEntry config.naming (newEntry user valid thing r.ids) _) hintegrity hlocks hplay
        (h.shows_withEntry hnext rfl _) ?_
      exact h.drawn_withEntry (r.ids.precedes_next.trans hlater) (gave_newEntry user valid thing _)

theorem follows_create (config : Config) (h : r.Mirrors config.naming things w)
    (hlocks : w.locks = .empty) (request : CreateRequest)
    (hids : (create config things request r).2.ids.Unrepeated) :
    Registry.Follows config.naming things (Lifecycle.create config request) w
      (create config things request r) := by
  rw [create] at hids ⊢
  cases hvalid : request.validate config.maxTargets with
  | error e =>
      apply h.follows_of_play hlocks
      rw [Lifecycle.create, hvalid]
      rfl
  | ok valid =>
      simp only [hvalid] at hids ⊢
      have hfollows := h.follows_createValid config hlocks request.user
        (validateThingName_of_validate hvalid) hids
      have hfresh := Operation.play_fresh w
      rw [h.shows.ids] at hfresh
      apply Registry.Follows.after (a := valid) (v := w)
      · rw [hvalid]
        rfl
      · exact Registry.Follows.after hfresh hfollows

end Mirrors
end Registry
end TelemetryTriggers
