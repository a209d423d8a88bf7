import TelemetryTriggers.Proofs.Lifecycle.CreateFailure
import TelemetryTriggers.Proofs.Requests.Validation

/-!
# Creations that succeed

Each step of a creation appends one item to what the services held when it started.
The identifiers that it draws have to be different, since a subscription replaces
one that has the same handle.

Main definitions: `IdSource.Distinct`; `Lifecycle.Made`, how far a creation is;
`Lifecycle.Created`, what a creation adds.  The main statement is
`Lifecycle.create_created`.
-/

namespace TelemetryTriggers

def IdSource.Distinct (source : IdSource) (n : Nat) : Prop :=
  forall i j, i < n -> j < n ->
    source.sequence (source.drawn + i) = source.sequence (source.drawn + j) -> i = j

theorem Store.withHandles_concat {rows : List Trigger} {row : Trigger} {id : TriggerId}
    (handles : Handles) (hrows : forall t, t ∈ rows -> t.id ≠ id) (hrow : row.id = id) :
    Store.withHandles id handles (rows ++ [row]) =
      rows ++ [{ row with handles := some handles }] := by
  have hother : rows.map (fun t => if t.id = id then { t with handles := some handles } else t)
      = rows := by
    refine (List.map_congr_left fun t ht => ?_).trans rows.map_id
    rw [if_neg (hrows t ht)]
    rfl
  rw [Store.withHandles, List.map_append, hother, List.map_singleton, if_pos hrow]

namespace Lifecycle

def subscriptionOf (naming : ResourceNaming) (row : Target) : Subscription :=
  ⟨row.subscription, naming.topicHandle row.trigger, row.kind.protocol, row.address⟩

/-- The services hold what they held at the start, then the items of a share. -/
structure Made (naming : ResourceNaming) (id : TriggerId) (base : World) (made : Share)
    (st : Standing) (w : World) : Prop where
  holding : LockKept id base st w
  things : w.store.things = base.store.things
  deliveries : w.broker.deliveries = base.broker.deliveries
  triggers : w.store.triggers = base.store.triggers ++ made.triggers
  targets : w.store.targets = base.store.targets ++ made.targets
  topics : w.broker.topics = base.broker.topics ++ made.topics
  subscriptions : w.broker.subscriptions = base.broker.subscriptions ++ made.subscriptions
  rules : w.engine.rules = base.engine.rules ++ made.rules
  sequence : w.ids.sequence = base.ids.sequence
  suffixes : forall s, s ∈ made.subscriptions -> exists i,
    base.ids.drawn + i < w.ids.drawn ∧
      s.handle = Broker.subscriptionHandle (naming.topicHandle id)
        (base.ids.sequence (base.ids.drawn + i))

/-- The creation can still draw some of the identifiers that are known to differ. -/
def Room (base : World) (n left : Nat) : Assertion := fun _ w =>
  base.ids.drawn < w.ids.drawn ∧ w.ids.drawn + left ≤ base.ids.drawn + n

section Steps

variable {naming : ResourceNaming} {id : TriggerId} {base : World} {made : Share}
  {st : Standing} {w v : World}

theorem Made.insertTrigger {row : Trigger} {r : Unit}
    (h : Made naming id base made st w)
    (hc : (Call.insertTrigger row).perform w = (.ok r, v)) :
    Made naming id base { made with triggers := made.triggers ++ [row] } st v := by
  rcases Call.insertTrigger_ok hc with ⟨_, rfl⟩
  refine ⟨h.holding, h.things, h.deliveries, ?_, h.targets, h.topics, h.subscriptions,
    h.rules, h.sequence, h.suffixes⟩
  rw [h.triggers, List.append_assoc]

theorem Made.insertTarget {row : Target} {r : Unit} (h : Made naming id base made st w)
    (hc : (Call.insertTarget row).perform w = (.ok r, v)) :
    Made naming id base { made with targets := made.targets ++ [row] } st v := by
  rcases Call.insertTarget_ok hc with ⟨_, rfl⟩
  refine ⟨h.holding, h.things, h.deliveries, h.triggers, ?_, h.topics, h.subscriptions,
    h.rules, h.sequence, h.suffixes⟩
  rw [h.targets, List.append_assoc]

theorem Made.createTopic {topic : TopicHandle} (hfresh : base.Fresh naming id)
    (hbase : base.Integrity) (h : Made naming id base made st w)
    (hmade : made.topics = [])
    (hc : (Call.createTopic (naming.topicName id)).perform w = (.ok topic, v)) :
    Made naming id base { made with topics := [⟨naming.topicName id, topic⟩] } st v ∧
      topic = naming.topicHandle id := by
  rcases Call.createTopic_ok hc with ⟨rfl, ⟨hold, _⟩ | ⟨_, rfl⟩⟩
  · rcases Broker.hasTopic_iff.mp hold with ⟨t, ht, hhandle⟩
    rw [h.topics, hmade, List.append_nil] at ht
    have howner := hbase.broker.owner_of_live ht naming
    rw [hhandle] at howner
    exact absurd (howner.symm.trans (naming.triggerForHandle?_topicHandle id))
      (hfresh.topic t ht)
  · refine ⟨⟨h.holding, h.things, h.deliveries, h.triggers, h.targets, ?_,
      h.subscriptions, h.rules, h.sequence, h.suffixes⟩, rfl⟩
    rw [h.topics, hmade, List.append_nil]

theorem Made.installRule {predicate : Predicate} {topic : TopicHandle} {rule : RuleHandle}
    (h : Made naming id base made st w)
    (hc : (Call.installRule (naming.ruleName id) predicate topic).perform w =
      (.ok rule, v)) :
    Made naming id base
        { made with rules := made.rules ++ [⟨rule, naming.ruleName id, predicate, topic⟩] }
        st v ∧
      rule = naming.ruleHandle id := by
  rcases Call.installRule_ok hc with ⟨_, rfl, rfl⟩
  refine ⟨⟨h.holding, h.things, h.deliveries, h.triggers, h.targets, h.topics,
    h.subscriptions, ?_, h.sequence, h.suffixes⟩, rfl⟩
  rw [h.rules, List.append_assoc]

theorem Made.setHandles {handles : Handles} {row : Trigger} {r : Unit}
    (hfresh : base.Fresh naming id) (hrow : row.id = id)
    (h : Made naming id base made st w) (hmade : made.triggers = [row])
    (hc : (Call.setHandles id handles).perform w = (.ok r, v)) :
    Made naming id base
      { made with triggers := [{ row with handles := some handles }] } st v := by
  rcases Call.setHandles_ok hc with ⟨_, rfl⟩
  refine ⟨h.holding, h.things, h.deliveries, ?_, h.targets, h.topics, h.subscriptions,
    h.rules, h.sequence, h.suffixes⟩
  rw [h.triggers, hmade]
  exact Store.withHandles_concat handles hfresh.row hrow

theorem Made.subscribe {protocol endpoint : String} {handle : SubscriptionHandle}
    {n left : Nat} (hfresh : base.Fresh naming id) (hbase : base.Integrity)
    (hdistinct : base.ids.Distinct n) (h : Made naming id base made st w)
    (hroom : Room base n (left + 1) st w)
    (hc : (Call.subscribe (naming.topicHandle id) protocol endpoint).perform w =
      (.ok handle, v)) :
    Made naming id base { made with subscriptions :=
        made.subscriptions ++ [⟨handle, naming.topicHandle id, protocol, endpoint⟩] } st v ∧
      Room base n left st v := by
  rcases Call.subscribe_ok hc with ⟨_, hhandle, rfl⟩
  rcases hroom with ⟨hdrawn, hroom⟩
  rcases Nat.exists_eq_add_of_lt hdrawn with ⟨k, hk⟩
  have hnew : handle = Broker.subscriptionHandle (naming.topicHandle id)
      (base.ids.sequence (base.ids.drawn + (k + 1))) := by
    rw [hhandle, IdSource.next, h.sequence, hk]
    rfl
  have hother : forall s, s ∈ w.broker.subscriptions -> s.handle ≠ handle := by
    intro s hs hold
    rw [h.subscriptions] at hs
    rcases List.mem_append.mp hs with hs | hs
    · have htopic := hbase.broker.topic_of_suffixed hs (hold.trans hhandle)
      have hitem : base.Holds (.subscription s) := hs
      apply hfresh.owner_ne hbase hitem
      rw [Item.owner?, htopic]
      exact naming.triggerForHandle?_topicHandle id
    · rcases h.suffixes s hs with ⟨i, hi, hsuffix⟩
      have hequal := Broker.subscriptionHandle_inj (hsuffix.symm.trans (hold.trans hnew))
      have hindex := hdistinct i (k + 1) (by omega) (by omega) hequal.2
      omega
  constructor
  · refine ⟨h.holding, h.things, h.deliveries, h.triggers, h.targets, h.topics, ?_,
      h.rules, h.sequence, ?_⟩
    · have hkept : (w.broker.subscriptions.filter fun s => s.handle != handle) =
          w.broker.subscriptions :=
        List.filter_eq_self.mpr fun s hs => by simpa using hother s hs
      simp only
      rw [hkept, h.subscriptions, List.append_assoc]
    · intro s hs
      rcases List.mem_append.mp hs with hs | hs
      · rcases h.suffixes s hs with ⟨i, hi, hsuffix⟩
        exact ⟨i, Nat.lt_succ_of_lt hi, hsuffix⟩
      · rw [List.mem_singleton.mp hs]
        refine ⟨k + 1, ?_, hnew⟩
        show base.ids.drawn + (k + 1) < w.ids.drawn + 1
        omega
  · constructor
    · show base.ids.drawn < w.ids.drawn + 1
      omega
    · show w.ids.drawn + 1 + left ≤ base.ids.drawn + n
      omega

theorem Made.store_eq (h : Made naming id base made st w) :
    w.store = { base.store with
      triggers := base.store.triggers ++ made.triggers
      targets := base.store.targets ++ made.targets } := by
  show Store.mk w.store.things w.store.triggers w.store.targets = _
  rw [h.things, h.triggers, h.targets]

theorem Made.broker_eq (h : Made naming id base made st w) :
    w.broker = { base.broker with
      topics := base.broker.topics ++ made.topics
      subscriptions := base.broker.subscriptions ++ made.subscriptions } := by
  show Broker.mk w.broker.topics w.broker.subscriptions w.broker.deliveries = _
  rw [h.topics, h.subscriptions, h.deliveries]

theorem Made.engine_eq (h : Made naming id base made st w) :
    w.engine = ⟨base.engine.rules ++ made.rules⟩ := by
  show RuleEngine.mk w.engine.rules = _
  rw [h.rules]

theorem Made.later (h : Made naming id base made st w) (drawn : List Uuid)
    (faults : FaultPlan) (k : Nat) :
    Made naming id base made { st with drawn }
      { w with faults, ids := { w.ids with drawn := w.ids.drawn + k } } where
  holding := h.holding
  things := h.things
  deliveries := h.deliveries
  triggers := h.triggers
  targets := h.targets
  topics := h.topics
  subscriptions := h.subscriptions
  rules := h.rules
  sequence := h.sequence
  suffixes := by
    intro s hs
    rcases h.suffixes s hs with ⟨i, hi, hsuffix⟩
    exact ⟨i, Nat.lt_add_right k hi, hsuffix⟩

end Steps

/-!
# The steps in their order

Here a failure is of no interest, except that it leaves the lock held.
-/

abbrev anyhow : Setting :=
  Setting.alone (fun _ _ => True) fun _ => True

abbrev holding (id : TriggerId) (base : World) : TriggerError -> Assertion :=
  fun _ => LockKept id base

section Order

variable {naming : ResourceNaming} {id : TriggerId} {base : World} {made : Share}

theorem unwind_holding (undos : List Undo) :
    Saga.Triple anyhow (LockKept id base) (unwind undos) fun _ => LockKept id base := by
  apply unwind_triple (P := fun _ => LockKept id base)
  · exact fun _ => lockKept_stable
  · exact fun _ _ _ _ _ _ => trivial
  · exact fun _ _ _ _ _ h _ _ => h
  · intro undo undos st w h _
    rw [LockKept, undo.toCall.perform_locks]
    exact h

theorem step_made {P : Assertion} {c : Call} {undos : List Undo} {Q : c.Reply -> Assertion}
    (hP : anyhow.Stable P) (hholding : forall st w, P st w -> LockKept id base st w)
    (hok : forall st w r v, P st w -> w.Integrity -> c.perform w = (.ok r, v) -> Q r st v) :
    Operation.Triple anyhow P ((Operation.ask c).orUndo undos) Q (holding id base) := by
  have hask : Operation.Triple anyhow P (Operation.ask c) Q (holding id base) := by
    apply Operation.Triple.ask hP
    · exact fun _ _ _ _ => trivial
    · exact fun st w _ h _ => hholding st w h
    · exact hok
    · intro st w e v h _ hc
      rw [Call.perform_error hc]
      exact hholding st w h
  apply Operation.Triple.orUndo hask
  intro _
  exact unwind_holding undos

theorem made_stable : anyhow.Stable (Made naming id base made) :=
  Setting.alone_stable fun st _ p h => h.later st.drawn p 0

theorem made_room_stable {n left : Nat} :
    anyhow.Stable fun st w => Made naming id base made st w ∧ Room base n left st w :=
  Setting.alone_stable fun st _ p h => ⟨h.1.later st.drawn p 0, h.2⟩

structure RowsFor (id : TriggerId) (targets : List ValidTarget) (rows : List Target) :
    Prop where
  owned : forall row, row ∈ rows -> row.trigger = id
  requested : rows.map (fun row => ValidTarget.mk row.kind row.address) = targets

theorem RowsFor.cons {target : ValidTarget} {targets : List ValidTarget} {row : Target}
    {rows : List Target} (h : RowsFor id targets rows) (hid : row.trigger = id)
    (hrow : ValidTarget.mk row.kind row.address = target) :
    RowsFor id (target :: targets) (row :: rows) := by
  constructor
  · intro other hother
    rcases List.mem_cons.mp hother with rfl | hother
    · exact hid
    · exact h.owned other hother
  · rw [List.map_cons, hrow, h.requested]

theorem subscribe_made (hfresh : base.Fresh naming id) (hbase : base.Integrity)
    {n : Nat} (hdistinct : base.ids.Distinct n) (target : ValidTarget) (left : Nat)
    (undos : List Undo) :
    Operation.Triple anyhow
      (fun st w => Made naming id base made st w ∧ Room base n (left + 1) st w)
      ((Operation.ask (.subscribe (naming.topicHandle id) target.kind.protocol
        target.address)).orUndo undos)
      (fun handle st w => Made naming id base { made with subscriptions :=
          made.subscriptions ++
            [⟨handle, naming.topicHandle id, target.kind.protocol, target.address⟩] }
          st w ∧ Room base n left st w)
      (holding id base) :=
  step_made made_room_stable (fun _ _ h => h.1.holding) fun _ _ _ _ h _ hc =>
    h.1.subscribe hfresh hbase hdistinct h.2 hc

theorem fresh_made {n left : Nat} :
    Operation.Triple anyhow
      (fun st w => Made naming id base made st w ∧ Room base n (left + 1) st w)
      Operation.fresh
      (fun _ st w => Made naming id base made st w ∧ Room base n left st w) (holding id base) := by
  apply Operation.Triple.fresh made_room_stable
  intro st w h _ _
  rcases h with ⟨hmade, hdrawn, hroom⟩
  constructor
  · exact hmade.later _ w.faults 1
  · constructor
    · show base.ids.drawn < w.ids.drawn + 1
      omega
    · show w.ids.drawn + 1 + left ≤ base.ids.drawn + n
      omega

theorem insertTarget_made {n left : Nat} (row : Target) (undos : List Undo) :
    Operation.Triple anyhow
      (fun st w => Made naming id base made st w ∧ Room base n left st w)
      ((Operation.ask (.insertTarget row)).orUndo undos)
      (fun _ st w => Made naming id base { made with targets := made.targets ++ [row] } st w ∧
        Room base n left st w)
      (holding id base) := by
  apply step_made made_room_stable (fun _ _ h => h.1.holding)
  intro st w r v h _ hc
  constructor
  · exact h.1.insertTarget hc
  · rw [(Call.insertTarget_ok hc).2]
    exact h.2

theorem subscribeTargets_made (hfresh : base.Fresh naming id) (hbase : base.Integrity)
    {n : Nat} (hdistinct : base.ids.Distinct n) (targets : List ValidTarget)
    (undos : List Undo) :
    Operation.Triple anyhow
      (fun st w => Made naming id base made st w ∧ Room base n (2 * targets.length) st w)
      (subscribeTargets id (naming.topicHandle id) targets undos)
      (fun result st w => Made naming id base
          { made with
            targets := made.targets ++ result.1
            subscriptions := made.subscriptions ++ result.1.map (subscriptionOf naming) }
          st w ∧ RowsFor id targets result.1)
      (holding id base) := by
  induction targets generalizing made undos with
  | nil =>
      apply Operation.Triple.pure
      intro st w h
      constructor
      · simpa using h.1
      · exact ⟨fun _ hrow => absurd hrow List.not_mem_nil, rfl⟩
  | cons target targets ih =>
      rw [subscribeTargets]
      apply Operation.Triple.bind (subscribe_made hfresh hbase hdistinct target _ undos)
      intro handle
      apply Operation.Triple.bind fresh_made
      intro u
      apply Operation.Triple.bind (insertTarget_made _ _)
      intro _
      apply Operation.Triple.bind (ih _)
      intro result
      apply Operation.Triple.pure
      intro st w h
      constructor
      · simpa [subscriptionOf] using h.1
      · exact h.2.cons rfl rfl

theorem createTopic_made {n left : Nat} (hfresh : base.Fresh naming id)
    (hbase : base.Integrity) {rows : List Trigger} (undos : List Undo) :
    Operation.Triple anyhow
      (fun st w => Made naming id base ⟨rows, [], [], [], []⟩ st w ∧ Room base n left st w)
      ((Operation.ask (.createTopic (naming.topicName id))).orUndo undos)
      (fun topic st w => (Made naming id base
          ⟨rows, [], [⟨naming.topicName id, naming.topicHandle id⟩], [], []⟩ st w ∧
        Room base n left st w) ∧ topic = naming.topicHandle id)
      (holding id base) := by
  apply step_made made_room_stable (fun _ _ h => h.1.holding)
  intro st w topic v h _ hc
  rcases h.1.createTopic hfresh hbase rfl hc with ⟨hmade, htopic⟩
  rw [htopic] at hmade
  refine ⟨⟨hmade, ?_⟩, htopic⟩
  rcases (Call.createTopic_ok hc).2 with ⟨_, rfl⟩ | ⟨_, rfl⟩
  · exact h.2
  · exact h.2

theorem installRule_made (predicate : Predicate) (undos : List Undo) :
    Operation.Triple anyhow (Made naming id base made)
      ((Operation.ask (.installRule (naming.ruleName id) predicate
        (naming.topicHandle id))).orUndo undos)
      (fun rule st w => Made naming id base
          { made with rules := made.rules ++ [⟨naming.ruleHandle id, naming.ruleName id,
            predicate, naming.topicHandle id⟩] } st w ∧
        rule = naming.ruleHandle id)
      (holding id base) := by
  apply step_made made_stable (fun _ _ h => h.holding)
  intro st w rule v h _ hc
  rcases h.installRule hc with ⟨hmade, rfl⟩
  exact ⟨hmade, rfl⟩

theorem setHandles_made (hfresh : base.Fresh naming id) (row : Trigger)
    (hrow : row.id = id) (hmade : made.triggers = [row]) (handles : Handles)
    (undos : List Undo) :
    Operation.Triple anyhow (Made naming id base made)
      ((Operation.ask (.setHandles id handles)).orUndo undos)
      (fun _ => Made naming id base
        { made with triggers := [{ row with handles := some handles }] })
      (holding id base) :=
  step_made made_stable (fun _ _ h => h.holding) fun _ _ _ _ h _ hc =>
    h.setHandles hfresh hrow hmade hc

theorem ofExcept_made {α : Type} {P : Assertion}
    (hholding : forall st w, P st w -> LockKept id base st w)
    (result : Except TriggerError α) (undos : List Undo) :
    Operation.Triple anyhow P ((Operation.ofExcept result).orUndo undos)
      (fun a st w => P st w ∧ result = .ok a) (holding id base) := by
  have hresult : Operation.Triple anyhow P (Operation.ofExcept result)
      (fun a st w => P st w ∧ result = .ok a) (holding id base) :=
    Operation.Triple.ofExcept (fun a ha st w h => ⟨h, ha⟩) fun _ _ st w h => hholding st w h
  apply Operation.Triple.orUndo hresult
  intro _
  exact unwind_holding undos

def complete (naming : ResourceNaming) (predicate : Predicate) (details : TriggerDetails) :
    Share where
  triggers := [details.trigger]
  targets := details.targets
  topics := [⟨naming.topicName details.trigger.id, naming.topicHandle details.trigger.id⟩]
  subscriptions := details.targets.map (subscriptionOf naming)
  rules := [⟨naming.ruleHandle details.trigger.id, naming.ruleName details.trigger.id,
    predicate, naming.topicHandle details.trigger.id⟩]

structure Provisioned (naming : ResourceNaming) (draft : Trigger) (thing : Thing)
    (targets : List ValidTarget) (predicate : Predicate) (details : TriggerDetails) :
    Prop where
  trigger : details.trigger = { draft with
    handles := some ⟨naming.topicHandle draft.id, naming.ruleHandle draft.id⟩ }
  rows : RowsFor draft.id targets details.targets
  compiled : draft.condition.compile thing.name draft.message = .ok predicate

theorem provision_made {draft : Trigger} (hfresh : base.Fresh naming draft.id)
    (hbase : base.Integrity) {n : Nat} (hdistinct : base.ids.Distinct n) (thing : Thing)
    (targets : List ValidTarget) (undos : List Undo) :
    Operation.Triple anyhow
      (fun st w => Made naming draft.id base ⟨[draft], [], [], [], []⟩ st w ∧
        Room base n (2 * targets.length) st w)
      (provision naming draft thing targets undos)
      (fun details st w => exists predicate,
        Provisioned naming draft thing targets predicate details ∧
          Made naming draft.id base (complete naming predicate details) st w)
      (holding draft.id base) := by
  rw [provision]
  apply Operation.Triple.bind_given (createTopic_made hfresh hbase undos)
  intro topic htopic
  subst htopic
  apply Operation.Triple.bind_given (subscribeTargets_made hfresh hbase hdistinct targets _)
  intro result hrows
  apply Operation.Triple.bind_given (ofExcept_made (fun _ _ h => h.holding) _ _)
  intro predicate hcompiled
  apply Operation.Triple.bind_given (installRule_made _ _)
  intro rule hrule
  subst hrule
  apply Operation.Triple.bind (setHandles_made hfresh draft rfl rfl _ _)
  intro _
  apply Operation.Triple.pure
  intro st w h
  exact ⟨predicate, ⟨rfl, hrows, hcompiled⟩, h⟩

end Order

/-!
# The creation as a whole
-/

/-- The creation added exactly what belongs to the new trigger, at the end of each
list. -/
structure Created (naming : ResourceNaming) (user : UserId) (request : ValidRequest)
    (details : TriggerDetails) (base w : World) : Prop where
  locks : w.locks = base.locks
  content : exists thing predicate,
    (base.store.thingNamed? request.thingName = some thing ∧ thing.owner = user) ∧
    Provisioned naming ⟨⟨base.ids.next.1⟩, user, thing.id, request.condition,
      request.message, none⟩ thing request.targets predicate details ∧
    w.store = { base.store with
      triggers := base.store.triggers ++ [details.trigger]
      targets := base.store.targets ++ details.targets } ∧
    w.broker = { base.broker with
      topics := base.broker.topics ++
        [⟨naming.topicName details.trigger.id, naming.topicHandle details.trigger.id⟩]
      subscriptions := base.broker.subscriptions ++
        details.targets.map (subscriptionOf naming) } ∧
    w.engine = ⟨base.engine.rules ++
      [⟨naming.ruleHandle details.trigger.id, naming.ruleName details.trigger.id,
        predicate, naming.topicHandle details.trigger.id⟩]⟩

section Whole

variable {naming : ResourceNaming} {base : World}

theorem pairedThing_made {id : TriggerId} {n left : Nat} (user : UserId) (name : String) :
    Operation.Triple anyhow
      (fun st w => Made naming id base ⟨[], [], [], [], []⟩ st w ∧ Room base n left st w)
      (pairedThing user name)
      (fun thing st w => (Made naming id base ⟨[], [], [], [], []⟩ st w ∧
        Room base n left st w) ∧
          base.store.thingNamed? name = some thing ∧ thing.owner = user)
      (holding id base) := by
  rw [pairedThing]
  apply Operation.Triple.bind (Q := fun row st w =>
    (Made naming id base ⟨[], [], [], [], []⟩ st w ∧ Room base n left st w) ∧
      row = base.store.thingNamed? name)
  · apply Operation.Triple.ask made_room_stable
    · exact fun _ _ _ _ => trivial
    · exact fun _ _ _ h _ => h.1.holding
    · intro st w row v h _ hc
      cases hc
      refine ⟨h, ?_⟩
      rw [Store.thingNamed?, h.1.things]
      rfl
    · intro st w e v h _ hc
      rw [Call.perform_error hc]
      exact h.1.holding
  · intro row
    apply Operation.Triple.given
    intro heq
    rcases heq with rfl
    apply Operation.Triple.orFail
    · intro thing hthing st w h
      rcases Option.filter_eq_some_iff.mp hthing with ⟨hrow, howner⟩
      exact ⟨h, hrow, eq_of_beq howner⟩
    · exact fun _ _ _ h => h.1.holding

theorem createWithId_made {n : Nat} (hbase : base.Integrity)
    (hfresh : base.Fresh naming ⟨base.ids.next.1⟩) (hdistinct : base.ids.Distinct n)
    (user : UserId) (request : ValidRequest) :
    Operation.Triple anyhow
      (fun st w => Made naming ⟨base.ids.next.1⟩ base ⟨[], [], [], [], []⟩ st w ∧
        Room base n (2 * request.targets.length) st w)
      (createWithId naming user request ⟨base.ids.next.1⟩)
      (fun details st w => LockKept ⟨base.ids.next.1⟩ base st w ∧
        Created naming user request details base
          { w with locks := w.locks.release ⟨base.ids.next.1⟩ })
      (holding ⟨base.ids.next.1⟩ base) := by
  rw [createWithId]
  apply Operation.Triple.bind_given (pairedThing_made user request.thingName)
  intro thing hthing
  apply Operation.Triple.bind (Q := fun _ st w =>
    Made naming ⟨base.ids.next.1⟩ base ⟨[⟨⟨base.ids.next.1⟩, user, thing.id,
      request.condition, request.message, none⟩], [], [], [], []⟩ st w ∧
      Room base n (2 * request.targets.length) st w)
  · apply Operation.Triple.ask made_room_stable
    · exact fun _ _ _ _ => trivial
    · exact fun _ _ _ h _ => h.1.holding
    · intro st w r v h _ hc
      constructor
      · exact h.1.insertTrigger hc
      · rw [(Call.insertTrigger_ok hc).2]
        exact h.2
    · intro st w e v h _ hc
      rw [Call.perform_error hc]
      exact h.1.holding
  · intro _
    apply Operation.Triple.consequence
      (provision_made hfresh hbase hdistinct thing request.targets [.deleteTrigger _])
    · exact fun st w h => h
    · intro details st w h
      rcases h with ⟨predicate, hprovisioned, hmade⟩
      refine ⟨hmade.holding, ?_, thing, predicate, hthing, hprovisioned, ?_, ?_, ?_⟩
      · rw [hmade.holding.2.2]
        exact LockTable.release_cons hmade.holding.2.1
      · exact hmade.store_eq
      · exact hmade.broker_eq
      · exact hmade.engine_eq
    · exact fun _ _ _ h => h

theorem length_validate {request : CreateRequest} {maxTargets : Nat} {valid : ValidRequest}
    (h : request.validate maxTargets = .ok valid) :
    valid.targets.length = request.targets.length :=
  (CreateRequest.validate_eq_ok_iff.mp h).2.targets.length_eq

theorem Created.around {user : UserId} {request : ValidRequest} {details : TriggerDetails}
    {w : World} (h : Created naming user request details base w) (faults : FaultPlan)
    (ids : IdSource) : Created naming user request details base { w with faults, ids } :=
  ⟨h.locks, h.content⟩

theorem Untouched.made {st : Standing} {w : World} {id : TriggerId} {locks : LockTable}
    (h : Untouched base st w) (hids : w.ids = base.ids.next.2)
    (hlocks : w.locks.acquire? id = some locks) :
    Made naming id base ⟨[], [], [], [], []⟩ { st with locks := [id] } { w with locks } := by
  rcases LockTable.acquire?_eq_some hlocks with ⟨hfree, rfl⟩
  rcases h with ⟨_, hstore, hbroker, hengine, hheld⟩
  rw [hheld] at hfree
  constructor
  · exact ⟨rfl, hfree, by rw [hheld]⟩
  · rw [hstore]
  · rw [hbroker]
  · rw [hstore, List.append_nil]
  · rw [hstore, List.append_nil]
  · rw [hbroker, List.append_nil]
  · rw [hbroker, List.append_nil]
  · rw [hengine, List.append_nil]
  · rw [hids]
    rfl
  · exact fun _ hs => absurd hs List.not_mem_nil

theorem create_created {config : Config} {request : CreateRequest} (hbase : base.Integrity)
    (hfresh : base.Fresh config.naming ⟨base.ids.next.1⟩)
    (hdistinct : base.ids.Distinct (1 + 2 * request.targets.length)) :
    Operation.Triple anyhow
      (fun st w => Untouched base st w ∧ w.ids = base.ids)
      (create config request)
      (fun details _ w => exists valid, request.validate config.maxTargets = .ok valid ∧
        Created config.naming request.user valid details base w)
      fun _ _ _ => True := by
  rw [create]
  apply Operation.Triple.bind (Q := fun valid st w =>
    (Untouched base st w ∧ w.ids = base.ids) ∧
      request.validate config.maxTargets = .ok valid)
  · exact Operation.Triple.ofExcept (fun valid hvalid st w h => ⟨h, hvalid⟩)
      fun _ _ _ _ _ => trivial
  · intro valid
    apply Operation.Triple.given
    intro hvalid
    have hlength := length_validate hvalid
    apply Operation.Triple.detached
      (D := fun st w => (Untouched base st w ∧ w.ids = base.ids) ∧ st.detached = true)
    · exact Setting.alone_stable fun _ _ _ h => h
    · apply Operation.Triple.bind (Q := fun u st w =>
        ((Untouched base st w ∧ w.ids = base.ids.next.2) ∧ st.detached = true) ∧
          u = base.ids.next.1)
      · apply Operation.Triple.fresh
        · exact Setting.alone_stable fun _ _ _ h => h
        · intro st w h _ _
          rcases h with ⟨⟨huntouched, hids⟩, hdetached⟩
          rw [hids]
          exact ⟨⟨⟨huntouched, rfl⟩, hdetached⟩, rfl⟩
      · intro u
        apply Operation.Triple.given
        intro heq
        rcases heq with rfl
        refine Operation.Triple.locked ?_ ?_ ?_ ?_
          (createWithId_made hbase hfresh hdistinct request.user valid) ?_ ?_ ?_ ?_ ?_ ?_
        · exact Setting.alone_stable fun _ _ _ h => h
        · exact fun st w h => ⟨h.1.1.1, h.2⟩
        · exact fun _ _ _ => trivial
        · intro st w locks h _ hlocks
          refine ⟨h.1.1.made h.1.2 hlocks, ?_⟩
          rw [Room, h.1.2, hlength]
          constructor
          · exact Nat.lt_succ_self _
          · show base.ids.drawn + 1 + _ ≤ _
            omega
        · exact fun _ => Setting.alone_stable fun _ _ p h => ⟨h.1, h.2.around p _⟩
        · exact fun _ => lockKept_stable
        · exact fun _ _ _ h => h.1.1
        · exact fun _ _ _ h => h.1
        · exact fun _ _ _ h _ => ⟨valid, hvalid, h.2⟩
        · exact fun _ _ _ _ _ => trivial
    · exact fun st w h _ => ⟨h, rfl⟩

end Whole
end Lifecycle
end TelemetryTriggers
