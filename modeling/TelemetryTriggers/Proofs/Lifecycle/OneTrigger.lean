import TelemetryTriggers.Proofs.Lifecycle.Create
import TelemetryTriggers.Proofs.Orchestrator.SweepSafety
import TelemetryTriggers.Proofs.Saga.Keep

/-!
# Operations touch one trigger

An operation that changes something is about one trigger.  It asks first, so what it then
removes by a handle is what the rows of that trigger held when it began, and what it takes
back is what it made itself.  So whatever fails, and wherever it stops, everything that
belongs to another trigger is as it was.

Main definitions: `Request.Concerns`, the trigger that a request is about;
`World.OthersKept`, what is as it was.  The main statement is
`System.Reachable.others_kept`.
-/

namespace TelemetryTriggers

/-!
# What a request is about
-/

/-- The request is about no other trigger.  A creation is about the trigger of the next
identifier, and the removal of a target about the trigger that the target's row is for. -/
def Request.Concerns (id : TriggerId) (w : World) : Request -> Prop
  | create _ => id = ⟨w.ids.next.1⟩
  | delete _ other => other = id
  | addTarget _ other _ => other = id
  | removeTarget _ target => forall row, w.store.target? target = some row -> row.trigger = id
  | _ => False

/-- What belongs to other triggers than the given one, or to none, is as it was, in the
order that it had. -/
structure World.OthersKept (naming : ResourceNaming) (id : TriggerId) (w v : World) :
    Prop where
  row : forall other, other ≠ id -> v.store.trigger? other = w.store.trigger? other
  targets : forall other, other ≠ id -> v.store.targetsOf other = w.store.targetsOf other
  topic : forall other, other ≠ id ->
    v.broker.topics.filter (fun t => t.name == naming.topicName other) =
      w.broker.topics.filter fun t => t.name == naming.topicName other
  subscriptions : forall other, other ≠ id ->
    v.broker.subscriptionsOf (naming.topicHandle other) =
      w.broker.subscriptionsOf (naming.topicHandle other)
  rule : forall other, other ≠ id ->
    v.engine.rules.filter (fun r => r.name == naming.ruleName other) =
      w.engine.rules.filter fun r => r.name == naming.ruleName other
  strayTopics :
    v.broker.topics.filter (fun t => naming.triggerForTopic? t.name == none) =
      w.broker.topics.filter fun t => naming.triggerForTopic? t.name == none
  strayRules :
    v.engine.rules.filter (fun r => naming.triggerForRule? r.name == none) =
      w.engine.rules.filter fun r => naming.triggerForRule? r.name == none

theorem filter_eq_of_filter_eq {α : Type} {p q : α -> Bool} {as bs : List α}
    (h : as.filter q = bs.filter q) (hpq : forall a, p a = true -> q a = true) :
    as.filter p = bs.filter p := by
  have hthrough : forall items : List α, items.filter p = (items.filter q).filter p := by
    intro items
    rw [List.filter_filter]
    apply List.filter_congr
    intro a _
    cases hp : p a with
    | false => rfl
    | true => rw [hpq a hp, Bool.and_true]
  rw [hthrough as, hthrough bs, h]

theorem World.SameOutside.othersKept {naming : ResourceNaming} {id : TriggerId} {w v : World}
    (h : w.SameOutside naming id v) : w.OthersKept naming id v := by
  have houtside := h.outside
  simp only [World.outside, World.share] at houtside
  injection houtside with htriggers htargets htopics hsubscriptions hrules
  constructor
  · intro other hother
    have hrows : v.store.triggers.filter (·.id == other) =
        w.store.triggers.filter (·.id == other) := by
      apply filter_eq_of_filter_eq htriggers
      intro t ht
      simpa [beq_iff_eq.mp ht] using hother
    rw [Store.trigger?, ← List.head?_filter, hrows, List.head?_filter]
    rfl
  · intro other hother
    apply filter_eq_of_filter_eq htargets
    intro r hr
    simpa [beq_iff_eq.mp hr] using hother
  · intro other hother
    apply filter_eq_of_filter_eq htopics
    intro t ht
    simpa [beq_iff_eq.mp ht] using hother
  · intro other hother
    apply filter_eq_of_filter_eq hsubscriptions
    intro s hs
    simpa [beq_iff_eq.mp hs] using hother
  · intro other hother
    apply filter_eq_of_filter_eq hrules
    intro r hr
    simpa [beq_iff_eq.mp hr] using hother
  · apply filter_eq_of_filter_eq htopics
    intro t ht
    simp [beq_iff_eq.mp ht]
  · apply filter_eq_of_filter_eq hrules
    intro r hr
    simp [beq_iff_eq.mp hr]

/-!
# Handles lead back to one trigger
-/

/-- What the rows of a trigger hold are handles of its own resources. -/
structure World.Tied (naming : ResourceNaming) (id : TriggerId) (w : World) : Prop where
  integrity : w.Integrity
  handles : forall t, t ∈ w.store.triggers -> t.id = id -> forall handles,
    t.handles = some handles -> handles = naming.handles id
  suffixed : forall r, r ∈ w.store.targets -> r.trigger = id ->
    exists u, r.subscription = Broker.subscriptionHandle (naming.topicHandle id) u

theorem World.Sound.tied {config : Config} {H : History} {w : World} (h : w.Sound config H)
    (id : TriggerId) : w.Tied config.naming id where
  integrity := h.integrity
  handles := by
    intro t ht hid handles hhandles
    rw [← hid]
    exact h.handles t ht handles hhandles
  suffixed := by
    intro r hr hid
    rw [← hid]
    exact (h.targets r hr).suffixed

namespace Call

variable {naming : ResourceNaming} {id : TriggerId} {w : World}

theorem about_unsubscribe (hw : w.Integrity) {handle : SubscriptionHandle}
    (h : exists u, handle = Broker.subscriptionHandle (naming.topicHandle id) u) :
    (unsubscribe handle).About naming id w := by
  rcases h with ⟨u, rfl⟩
  intro s hs hhandle
  rw [hw.broker.topic_of_suffixed hs hhandle]
  exact naming.triggerForHandle?_topicHandle id

theorem about_deleteTopic {name : String} (h : naming.triggerForTopic? name = some id) :
    (deleteTopic (Broker.handleFor name)).About naming id w :=
  (naming.triggerForHandle?_handleFor name).trans h

theorem about_removeRule (hw : w.Integrity) {name : String}
    (h : naming.triggerForRule? name = some id) :
    (removeRule (RuleEngine.handleFor name)).About naming id w := by
  intro r hr hhandle
  rw [hw.engine.named r hr] at hhandle
  rw [RuleEngine.handleFor_injective hhandle]
  exact h

theorem about_deleteTarget (hw : w.Integrity) {row : Target} (hrow : row ∈ w.store.targets)
    (h : row.trigger = id) : (deleteTarget row.id).About naming id w := by
  intro r hr hid
  rw [List.inj_on_of_nodup_map hw.store.target_ids hr hrow hid]
  exact h

theorem Reads.perform_fst {c : Call} (h : c.Reads) (w : World) (faults : FaultPlan)
    (locks : LockTable) (ids : IdSource) :
    (c.perform { w with faults, locks, ids }).1 = (c.perform w).1 := by
  cases c with
  | thingNamed _ | getTrigger _ | listTriggers _ | listAllTriggers | getTarget _
  | listTargets _ | listTopics | listRules => rfl
  | _ => exact h.elim

end Call

/-!
# Assertions
-/

namespace Lifecycle

variable {naming : ResourceNaming} {id : TriggerId} {base : World} {locks : List TriggerId}

structure Still (base : World) (locks : List TriggerId) (st : Standing) (w : World) :
    Prop where
  locks : st.locks = locks
  same : exists p l i, w = { base with faults := p, locks := l, ids := i }

structure Aside (naming : ResourceNaming) (id : TriggerId) (base : World)
    (locks : List TriggerId) (st : Standing) (w : World) : Prop where
  locks : st.locks = locks
  same : base.SameOutside naming id w

theorem Still.aside {st : Standing} {w : World} (h : Still base locks st w) :
    Aside naming id base locks st w := by
  rcases h with ⟨hlocks, p, l, i, rfl⟩
  exact ⟨hlocks, rfl, rfl, rfl⟩

abbrev only (naming : ResourceNaming) (id : TriggerId) (base : World) : Setting :=
  .alone anyFault (base.SameOutside naming id)

theorem still_stable : (only naming id base).Stable (Still base locks) := by
  apply Setting.alone_stable
  rintro st w p ⟨hlocks, q, l, i, rfl⟩
  exact ⟨hlocks, p, l, i, rfl⟩

theorem aside_stable : (only naming id base).Stable (Aside naming id base locks) :=
  Setting.alone_stable fun _ _ _ h =>
    ⟨h.locks, h.same.things, h.same.deliveries, h.same.outside⟩

theorem keeps_aside : (only naming id base).Keeps (Aside naming id base locks)
    fun c => c.About naming id base where
  stable := aside_stable
  allowed _ h _ := h.same
  perform hc h hw := ⟨h.locks, h.same.perform hw (h.same.about hc)⟩

theorem ask_still {c : Call} (hc : c.Reads) :
    Operation.Triple (only naming id base) (Still base locks) (.ask c)
      (fun r st w => Still base locks st w ∧ (c.perform base).1 = .ok r)
      fun _ => Aside naming id base locks := by
  have hkept : forall {st w v reply}, Still base locks st w -> c.perform w = (reply, v) ->
      v = w ∧ (c.perform base).1 = reply := by
    intro st w v reply h hperform
    have hsame := hc.perform_eq w
    rw [hperform] at hsame
    rcases h with ⟨_, p, l, i, rfl⟩
    have hreply := hc.perform_fst base p l i
    rw [hperform] at hreply
    exact ⟨hsame, hreply.symm⟩
  apply Operation.Triple.ask still_stable
  · exact fun st w h _ => (Still.aside h).same
  · exact fun st w e h _ => h.aside
  · intro st w r v h _ hperform
    rcases hkept h hperform with ⟨rfl, hreply⟩
    exact ⟨h, hreply⟩
  · intro st w e v h _ hperform
    rcases hkept h hperform with ⟨rfl, _⟩
    exact h.aside

theorem locked_aside {α : Type} {op : Operation α}
    (hop : Operation.Triple (only naming id base) (Still base [id]) op
      (fun _ => Aside naming id base [id]) fun _ => Aside naming id base [id]) :
    Operation.Triple (only naming id base) (fun st w => Still base [] st w ∧ st.detached = true)
      (.locked id op) (fun _ => Aside naming id base []) fun _ => Aside naming id base [] := by
  have hrelease : forall st w, Aside naming id base [id] st w ->
      Aside naming id base [] { st with locks := [] }
        { w with locks := w.locks.release id } :=
    fun st w h => ⟨rfl, h.same.things, h.same.deliveries, h.same.outside⟩
  refine Operation.Triple.locked ?_ ?_ ?_ ?_ hop ?_ ?_ ?_ ?_ ?_ ?_
  · exact fun st w v h hv => ⟨still_stable st w v h.1 hv, h.2⟩
  · exact fun st w h => ⟨h.1.locks, h.2⟩
  · exact fun st w h => h.1.aside
  · rintro st w l ⟨⟨_, p, _, i, rfl⟩, _⟩ _ _
    exact ⟨rfl, p, l, i, rfl⟩
  · exact fun _ => aside_stable
  · exact fun _ => aside_stable
  · exact fun _ st w h => h.locks
  · exact fun _ st w h => h.locks
  · exact fun _ st w h _ => hrelease st w h
  · exact fun _ st w h _ => hrelease st w h

theorem detached_aside {α : Type} {op : Operation α}
    (hop : Operation.Triple (only naming id base) (Still base [id]) op
      (fun _ => Aside naming id base [id]) fun _ => Aside naming id base [id]) :
    Operation.Triple (only naming id base) (Still base []) (.detached (.locked id op))
      (fun _ => Aside naming id base []) fun _ => Aside naming id base [] := by
  apply Operation.Triple.detached still_stable (locked_aside hop)
  exact fun st w h _ => ⟨⟨h.locks, h.same⟩, rfl⟩

theorem visibleTrigger_still (user : UserId) (other : TriggerId) :
    Operation.Triple (only naming id base) (Still base locks) (visibleTrigger user other)
      (fun t st w => Still base locks st w ∧ base.store.trigger? other = some t)
      fun _ => Aside naming id base locks := by
  rw [visibleTrigger]
  apply Operation.Triple.bind_given (ask_still (c := .getTrigger other) trivial)
  intro row hrow
  have hrow : base.store.trigger? other = row := Except.ok.inj hrow
  apply Operation.Triple.orFail
  · intro t ht st w h
    rw [← hrow] at ht
    exact ⟨h, (Option.filter_eq_some_iff.mp ht).1⟩
  · exact fun _ _ _ h => h.aside

def TakesBack (naming : ResourceNaming) (id : TriggerId) (base : World) (undos : List Undo) :
    Prop :=
  forall undo, undo ∈ undos -> undo.toCall.About naming id base

theorem TakesBack.cons {undo : Undo} {undos : List Undo}
    (hundo : undo.toCall.About naming id base) (h : TakesBack naming id base undos) :
    TakesBack naming id base (undo :: undos) :=
  List.forall_mem_cons.mpr ⟨hundo, h⟩

theorem orUndo_aside {α : Type} {P : Assertion} {op : Operation α} {Q : α -> Assertion}
    {undos : List Undo} (hundos : TakesBack naming id base undos)
    (hop : Operation.Triple (only naming id base) P op Q fun _ => Aside naming id base locks) :
    Operation.Triple (only naming id base) P (op.orUndo undos) Q
      fun _ => Aside naming id base locks :=
  Operation.Triple.orUndo hop fun _ => keeps_aside.unwind hundos

/-- The row of a target that was inserted can be deleted again, since no other row has its
identifier. -/
theorem insertTarget_aside {row : Target} (hid : row.trigger = id) :
    Operation.Triple (only naming id base) (Aside naming id base locks)
      (.ask (.insertTarget row))
      (fun _ st w => Aside naming id base locks st w ∧
        (Call.deleteTarget row.id).About naming id base)
      fun _ => Aside naming id base locks := by
  have habout : (Call.insertTarget row).About naming id base := hid
  apply Operation.Triple.ask aside_stable
  · exact fun st w h _ => h.same
  · exact fun st w e h _ => h
  · intro st w r v h hw hperform
    have hkept := keeps_aside.perform habout h hw
    rw [hperform] at hkept
    refine ⟨hkept, ?_⟩
    intro old hold hsame
    by_contra hother
    have hbase : base.Holds (.target old) := hold
    have hitem : w.Holds (.target old) :=
      h.same.symm.holds hbase fun heq => hother (Option.some.inj heq)
    exact (Call.insertTarget_ok hperform).1 old hitem hsame
  · intro st w e v h hw hperform
    rw [Call.perform_error hperform]
    exact h

theorem subscribe_aside {topic : TopicHandle} {protocol endpoint : String}
    (htopic : topic = naming.topicHandle id) :
    Operation.Triple (only naming id base) (Aside naming id base locks)
      (.ask (.subscribe topic protocol endpoint))
      (fun handle st w => Aside naming id base locks st w ∧
        exists u, handle = Broker.subscriptionHandle (naming.topicHandle id) u)
      fun _ => Aside naming id base locks := by
  subst htopic
  apply keeps_aside.question (c := .subscribe (naming.topicHandle id) protocol endpoint)
  · exact naming.triggerForHandle?_topicHandle id
  · intro w handle _ hreply
    refine ⟨w.ids.next.1, ?_⟩
    exact (Call.subscribe_ok (v := _) (Prod.ext hreply rfl)).2.1

theorem fresh_aside :
    Operation.Triple (only naming id base) (Aside naming id base locks) .fresh
      (fun _ => Aside naming id base locks) fun _ => Aside naming id base locks :=
  Operation.Triple.fresh aside_stable fun _ _ h _ _ =>
    ⟨h.locks, h.same.things, h.same.deliveries, h.same.outside⟩

/-!
# Creation
-/

section Creation

theorem subscribeTargets_aside (hbase : base.Integrity) (targets : List ValidTarget)
    {undos : List Undo} (hundos : TakesBack naming id base undos) :
    Operation.Triple (only naming id base) (Aside naming id base locks)
      (subscribeTargets id (naming.topicHandle id) targets undos)
      (fun made st w => Aside naming id base locks st w ∧ TakesBack naming id base made.2)
      fun _ => Aside naming id base locks := by
  induction targets generalizing undos with
  | nil => exact Operation.Triple.pure fun st w h => ⟨h, hundos⟩
  | cons target targets ih =>
      rw [subscribeTargets]
      apply Operation.Triple.bind_given (orUndo_aside hundos (subscribe_aside rfl))
      intro handle hhandle
      have hsubscribed : TakesBack naming id base (.unsubscribe handle :: undos) :=
        hundos.cons (Call.about_unsubscribe hbase hhandle)
      apply Operation.Triple.bind fresh_aside
      intro u
      apply Operation.Triple.bind_given (orUndo_aside hsubscribed (insertTarget_aside rfl))
      intro _ hrow
      have hinserted : TakesBack naming id base
          (.deleteTarget ⟨u⟩ :: .unsubscribe handle :: undos) := hsubscribed.cons hrow
      apply Operation.Triple.bind_given (ih hinserted)
      intro made hmade
      exact Operation.Triple.pure fun st w h => ⟨h, hmade⟩

theorem createTopic_aside :
    Operation.Triple (only naming id base) (Aside naming id base locks)
      (.ask (.createTopic (naming.topicName id)))
      (fun topic st w => Aside naming id base locks st w ∧ topic = naming.topicHandle id)
      fun _ => Aside naming id base locks := by
  apply keeps_aside.question (c := .createTopic (naming.topicName id))
  · exact naming.triggerForTopic?_topicName id
  · exact fun w topic _ hreply => (Except.ok.inj hreply).symm

theorem installRule_aside (predicate : Predicate) (topic : TopicHandle) :
    Operation.Triple (only naming id base) (Aside naming id base locks)
      (.ask (.installRule (naming.ruleName id) predicate topic))
      (fun rule st w => Aside naming id base locks st w ∧ rule = naming.ruleHandle id)
      fun _ => Aside naming id base locks := by
  apply keeps_aside.question (c := .installRule (naming.ruleName id) predicate topic)
  · exact naming.triggerForRule?_ruleName id
  · intro w rule _ hreply
    exact (Call.installRule_ok (v := _) (Prod.ext hreply rfl)).2.1

theorem provision_aside (hbase : base.Integrity) {draft : Trigger} (hid : draft.id = id)
    (thing : Thing) (targets : List ValidTarget) {undos : List Undo}
    (hundos : TakesBack naming id base undos) :
    Operation.Triple (only naming id base) (Aside naming id base locks)
      (provision naming draft thing targets undos)
      (fun _ => Aside naming id base locks) fun _ => Aside naming id base locks := by
  subst hid
  rw [provision]
  apply Operation.Triple.bind_given (orUndo_aside hundos createTopic_aside)
  intro topic htopic
  subst htopic
  have htopic : TakesBack naming draft.id base (.deleteTopic _ :: undos) :=
    hundos.cons (Call.about_deleteTopic (naming.triggerForTopic?_topicName draft.id))
  apply Operation.Triple.bind_given (subscribeTargets_aside hbase targets htopic)
  rintro ⟨rows, undos⟩ hundos
  apply Operation.Triple.bind (Q := fun _ => Aside naming draft.id base locks)
  · apply orUndo_aside hundos
    exact Operation.Triple.ofExcept (fun _ _ _ _ h => h) fun _ _ _ _ h => h
  intro predicate
  apply Operation.Triple.bind_given (orUndo_aside hundos (installRule_aside predicate _))
  intro rule hrule
  subst hrule
  have hrule : TakesBack naming draft.id base (.removeRule _ :: undos) :=
    hundos.cons (Call.about_removeRule hbase (naming.triggerForRule?_ruleName draft.id))
  apply Operation.Triple.bind
  · exact orUndo_aside hrule (keeps_aside.ask (c := .setHandles draft.id _) rfl)
  · exact fun _ => Operation.Triple.pure fun st w h => h

theorem createWithId_aside (hbase : base.Integrity) (user : UserId) (request : ValidRequest) :
    Operation.Triple (only naming id base) (Still base [id])
      (createWithId naming user request id)
      (fun _ => Aside naming id base [id]) fun _ => Aside naming id base [id] := by
  rw [createWithId]
  apply Operation.Triple.bind (Q := fun _ => Aside naming id base [id])
  · rw [pairedThing]
    apply Operation.Triple.bind
    · apply Operation.Triple.pre (keeps_aside.ask (c := .thingNamed request.thingName) trivial)
      exact fun st w h => h.aside
    · exact fun _ => Operation.Triple.orFail (fun _ _ _ _ h => h) fun _ _ _ h => h
  intro thing
  let draft : Trigger := ⟨id, user, thing.id, request.condition, request.message, none⟩
  show Operation.Triple _ _ (Operation.ask (.insertTrigger draft) >>= fun _ =>
    provision naming draft thing request.targets [.deleteTrigger id]) _ _
  apply Operation.Triple.bind (keeps_aside.ask (c := .insertTrigger draft) rfl)
  intro _
  apply provision_aside hbase rfl
  intro undo hundo
  rw [List.mem_singleton.mp hundo]
  exact rfl

theorem create_aside (hbase : base.Integrity) {config : Config} (request : CreateRequest)
    (hid : id = ⟨base.ids.next.1⟩) :
    Operation.Triple (only config.naming id base)
      (fun st w => Still base [] st w ∧ w.ids = base.ids) (create config request)
      (fun _ => Aside config.naming id base []) fun _ => Aside config.naming id base [] := by
  have hstable : (only config.naming id base).Stable
      fun st w => Still base [] st w ∧ w.ids = base.ids := by
    intro st w v h hv
    refine ⟨still_stable st w v h.1 hv, ?_⟩
    rcases hv with ⟨p, rfl⟩
    exact h.2
  have hdraw : Operation.Triple (only config.naming id base)
      (fun st w => (Still base [] st w ∧ w.ids = base.ids) ∧ st.detached = true) .fresh
      (fun u st w => (Still base [] st w ∧ st.detached = true) ∧ id = ⟨u⟩)
      fun _ => Aside config.naming id base [] := by
    apply Operation.Triple.fresh
    · exact fun st w v h hv => ⟨hstable st w v h.1 hv, h.2⟩
    · rintro st w ⟨⟨⟨hlocks, p, l, i, rfl⟩, hids⟩, hdetached⟩ _ _
      refine ⟨⟨⟨hlocks, p, l, _, rfl⟩, hdetached⟩, ?_⟩
      rw [hid, hids]
  rw [create]
  apply Operation.Triple.bind (Q := fun _ st w => Still base [] st w ∧ w.ids = base.ids)
  · exact Operation.Triple.ofExcept (fun _ _ _ _ h => h) fun _ _ _ _ h => h.1.aside
  intro valid
  apply Operation.Triple.detached
    (D := fun st w => (Still base [] st w ∧ w.ids = base.ids) ∧ st.detached = true) hstable
  · apply Operation.Triple.bind_given hdraw
    intro u hu
    subst hu
    exact locked_aside (createWithId_aside hbase request.user valid)
  · exact fun st w h _ => ⟨⟨⟨h.1.locks, h.1.same⟩, h.2⟩, rfl⟩

end Creation

/-!
# Deletion
-/

section Deletion

theorem deleteRows_aside (htied : base.Tied naming id) {targets : List Target}
    (htargets : targets = base.store.targetsOf id) :
    Operation.Triple (only naming id base) (Aside naming id base locks) (deleteRows id targets)
      (fun _ => Aside naming id base locks) fun _ => Aside naming id base locks := by
  subst htargets
  apply keeps_aside.deleteRows
  · intro r hr
    rcases Store.mem_targetsOf.mp hr with ⟨hrow, hid⟩
    exact Call.about_deleteTarget htied.integrity hrow hid
  · exact rfl

theorem getOwned_still (user : UserId) (other : TriggerId) :
    Operation.Triple (only naming id base) (Still base locks)
      (do
        let row : Option Trigger ← .ask (.getTrigger other)
        Operation.orFail (row.filter (·.user == user)) (noTrigger other))
      (fun t st w => Still base locks st w ∧ (t ∈ base.store.triggers ∧ t.id = other))
      fun _ => Aside naming id base locks := by
  apply Operation.Triple.bind_given (ask_still (c := .getTrigger other) trivial)
  intro row hrow
  have hrow : base.store.trigger? other = row := Except.ok.inj hrow
  apply Operation.Triple.orFail
  · intro t ht st w h
    rw [← hrow] at ht
    exact ⟨h, Store.trigger?_eq_some (Option.filter_eq_some_iff.mp ht).1⟩
  · exact fun _ _ _ h => h.aside

theorem deleteOwned_aside (htied : base.Tied naming id) (user : UserId) :
    Operation.Triple (only naming id base) (Still base locks) (deleteOwned naming user id)
      (fun _ => Aside naming id base locks) fun _ => Aside naming id base locks := by
  have hresources : forall handles, handles = naming.handles id ->
      Operation.Triple (only naming id base) (Aside naming id base locks)
        (removeResources handles) (fun _ => Aside naming id base locks)
        fun _ => Aside naming id base locks := by
    rintro handles rfl
    apply keeps_aside.removeResources
    · exact Call.about_removeRule htied.integrity (naming.triggerForRule?_ruleName id)
    · exact Call.about_deleteTopic (naming.triggerForTopic?_topicName id)
  have hleftovers : Operation.Triple (only naming id base) (Aside naming id base locks)
      (removeLeftovers naming id) (fun _ => Aside naming id base locks)
      fun _ => Aside naming id base locks := by
    apply keeps_aside.removeLeftovers (fun _ hw => hw) trivial trivial
    · exact fun name hname => Call.about_removeRule htied.integrity hname
    · exact fun name hname => Call.about_deleteTopic hname
  rw [deleteOwned, ← bind_assoc]
  apply Operation.Triple.bind_given (getOwned_still user id)
  rintro t ⟨ht, hid⟩
  apply Operation.Triple.bind_given (ask_still (c := .listTargets id) trivial)
  intro targets htargets
  have htargets : base.store.targetsOf id = targets := Except.ok.inj htargets
  apply Operation.Triple.pre (P := Aside naming id base locks) _ fun _ _ h => h.aside
  cases hhandles : t.handles with
  | some handles =>
      apply Operation.Triple.bind (hresources handles (htied.handles t ht hid handles hhandles))
      exact fun _ => deleteRows_aside htied htargets.symm
  | none =>
      apply Operation.Triple.bind hleftovers
      intro _
      apply Operation.Triple.bind (keeps_aside.unsubscribeAll _)
      · exact fun _ => deleteRows_aside htied htargets.symm
      · intro r hr
        rw [← htargets] at hr
        rcases Store.mem_targetsOf.mp hr with ⟨hrow, howner⟩
        exact Call.about_unsubscribe htied.integrity (htied.suffixed r hrow howner)

end Deletion

/-!
# Targets
-/

section Targets

theorem addTargetOwned_aside (htied : base.Tied naming id) (maxTargets : Nat) (user : UserId)
    (target : ValidTarget) :
    Operation.Triple (only naming id base) (Still base locks)
      (addTargetOwned maxTargets user id target)
      (fun _ => Aside naming id base locks) fun _ => Aside naming id base locks := by
  rw [addTargetOwned]
  apply Operation.Triple.bind_given (visibleTrigger_still user id)
  intro t hfound
  rcases Store.trigger?_eq_some hfound with ⟨ht, hid⟩
  have hgiven : Operation.Triple (only naming id base) (Still base locks)
      (.orFail t.handles (noTrigger id))
      (fun handles st w => Still base locks st w ∧ handles = naming.handles id)
      fun _ => Aside naming id base locks := by
    apply Operation.Triple.orFail
    · exact fun handles hhandles st w h => ⟨h, htied.handles t ht hid handles hhandles⟩
    · exact fun _ _ _ h => h.aside
  apply Operation.Triple.bind_given hgiven
  intro handles hhandles
  apply Operation.Triple.bind_given (ask_still (c := .listTargets id) trivial)
  intro targets _
  apply Operation.Triple.pre (P := Aside naming id base locks) _ fun _ _ h => h.aside
  split
  · exact Operation.Triple.fail fun _ _ h => h
  · apply Operation.Triple.bind_given (subscribe_aside (congrArg Handles.topic hhandles))
    intro handle hhandle
    have hundos : TakesBack naming id base [.unsubscribe handle] := by
      intro undo hundo
      rw [List.mem_singleton.mp hundo]
      exact Call.about_unsubscribe htied.integrity hhandle
    apply Operation.Triple.bind fresh_aside
    intro u
    apply Operation.Triple.bind_given (orUndo_aside hundos (insertTarget_aside rfl))
    exact fun _ _ => Operation.Triple.pure fun _ _ h => h

theorem getRow_still (target : TargetId) :
    Operation.Triple (only naming id base) (Still base locks)
      (do
        let row : Option Target ← .ask (.getTarget target)
        Operation.orFail row (noTarget target))
      (fun row st w => Still base locks st w ∧ base.store.target? target = some row)
      fun _ => Aside naming id base locks := by
  apply Operation.Triple.bind_given (ask_still (c := .getTarget target) trivial)
  intro found hfound
  have hfound : base.store.target? target = found := Except.ok.inj hfound
  apply Operation.Triple.orFail
  · exact fun row hrow st w h => ⟨h, hfound.trans hrow⟩
  · exact fun _ _ _ h => h.aside

theorem getTarget_still (user : UserId) (target : TargetId) :
    Operation.Triple (only naming id base) (Still base locks) (getTarget user target)
      (fun row st w => Still base locks st w ∧ base.store.target? target = some row)
      fun _ => Aside naming id base locks := by
  rw [getTarget, ← bind_assoc]
  apply Operation.Triple.bind_given (getRow_still target)
  intro row hrow
  apply Operation.Triple.bind
  · exact Operation.Triple.adapt (visibleTrigger_still user row.trigger)
  · exact fun _ => Operation.Triple.pure fun st w h => ⟨h.1, hrow⟩

theorem removeTargetOwned_aside (htied : base.Tied naming id) (user : UserId)
    {target : TargetId} {row : Target} (hrow : base.store.target? target = some row)
    (hid : row.trigger = id) :
    Operation.Triple (only naming id base) (Still base locks) (removeTargetOwned user target)
      (fun _ => Aside naming id base locks) fun _ => Aside naming id base locks := by
  rcases Store.target?_eq_some hrow with ⟨hmem, htarget⟩
  rw [removeTargetOwned, ← bind_assoc]
  apply Operation.Triple.bind_given (getRow_still target)
  intro found hfound
  rw [hrow] at hfound
  cases hfound
  apply Operation.Triple.bind (visibleTrigger_still user row.trigger)
  intro _
  apply Operation.Triple.pre (P := Aside naming id base locks) _ fun _ _ h => h.1.aside
  apply Operation.Triple.bind
  · apply keeps_aside.ensureGone
    exact Call.about_unsubscribe htied.integrity (htied.suffixed row hmem hid)
  · intro _
    apply keeps_aside.ensureGone
    rw [← htarget]
    exact Call.about_deleteTarget htied.integrity hmem hid

theorem removeTarget_aside (htied : base.Tied naming id) (user : UserId) (target : TargetId)
    (hid : forall row, base.store.target? target = some row -> row.trigger = id) :
    Operation.Triple (only naming id base) (Still base []) (removeTarget user target)
      (fun _ => Aside naming id base []) fun _ => Aside naming id base [] := by
  rw [removeTarget]
  apply Operation.Triple.bind_given (getTarget_still user target)
  intro row hrow
  rw [hid row hrow]
  exact detached_aside (removeTargetOwned_aside htied user hrow (hid row hrow))

end Targets

/-!
# All operations
-/

theorem operation_aside {config : Config} (request : Request)
    (htied : base.Tied config.naming id) (hconcerns : request.Concerns id base) :
    Operation.Triple (only config.naming id base)
      (fun st w => Still base [] st w ∧ w.ids = base.ids) (request.operation config)
      (fun _ => Aside config.naming id base []) fun _ => Aside config.naming id base [] := by
  have hanswer : forall {α : Type} {op : Operation α} (answer : α -> Answer),
      Operation.Triple (only config.naming id base) (Still base []) op
        (fun _ => Aside config.naming id base []) (fun _ => Aside config.naming id base []) ->
      Operation.Triple (only config.naming id base)
        (fun st w => Still base [] st w ∧ w.ids = base.ids) (op >>= fun a => pure (answer a))
        (fun _ => Aside config.naming id base []) fun _ => Aside config.naming id base [] := by
    intro α op answer hop
    apply Operation.Triple.bind (hop.pre fun _ _ h => h.1)
    exact fun _ => Operation.Triple.pure fun _ _ h => h
  cases request with
  | create request =>
      apply Operation.Triple.bind (create_aside htied.integrity request hconcerns)
      exact fun _ => Operation.Triple.pure fun _ _ h => h
  | delete user other =>
      rcases (hconcerns : other = id) with rfl
      exact hanswer (fun _ => .deleted) (detached_aside (deleteOwned_aside htied user))
  | addTarget user other spec =>
      rcases (hconcerns : other = id) with rfl
      apply hanswer .added
      rw [addTarget]
      apply Operation.Triple.bind (Q := fun _ => Still base [])
      · exact Operation.Triple.ofExcept (fun _ _ _ _ h => h) fun _ _ _ _ h => h.aside
      · exact fun target => detached_aside
          (addTargetOwned_aside htied config.maxTargets user target)
  | removeTarget user target =>
      exact hanswer (fun _ => .removed) (removeTarget_aside htied user target hconcerns)
  | _ => exact hconcerns.elim

end Lifecycle

namespace System.Reachable

variable {config : Config} {fails : Call -> ServiceError -> Prop} {things : List Thing}
  {ids : IdSource} {s : System}

/-- Whatever an orchestrator has come to, an operation that is about one trigger leaves
everything that belongs to other triggers as it was, under every fault plan and every
deadline, whatever it answers and however much of it could be taken back; and so it does if
it is stopped dead after any number of calls. -/
theorem others_kept (hs : Reachable config fails things ids s) {request : Request}
    {id : TriggerId} (hconcerns : request.Concerns id s.world) (faults : FaultPlan)
    (deadline : Nat) :
    s.world.OthersKept config.naming id
        ((request.operation config).run.run deadline { s.world with faults }).2 ∧
      forall calls, s.world.OthersKept config.naming id
        ((request.operation config).run.stopped deadline calls
          { s.world with faults }) := by
  have hsound := hs.ordered.inv
  have hw : World.Integrity { s.world with faults } :=
    ⟨hsound.integrity.store, hsound.integrity.broker, hsound.integrity.engine⟩
  have hplan : ({ s.world with faults } : World).faults.Within anyFault deadline :=
    faults.within_all deadline
  have hmeets := (Lifecycle.operation_aside request (hsound.tied id) hconcerns).meets
    ⟨[], [], false⟩ { s.world with faults } ⟨⟨rfl, faults, _, _, rfl⟩, rfl⟩
  have hend : forall {r : Except TriggerError Answer} {st v},
      Operation.ends (fun _ => Lifecycle.Aside config.naming id s.world [])
        (fun _ => Lifecycle.Aside config.naming id s.world []) r st v ->
      s.world.SameOutside config.naming id v := by
    intro r st v h
    cases r with
    | ok a => exact h.same
    | error e => exact h.same
  constructor
  · rcases hmeets.run hw hplan with ⟨_, st, hpost⟩
    exact (hend hpost).othersKept
  · intro calls
    rcases (hmeets.stopped hw hplan calls).2 with hsame | ⟨r, st, hpost⟩
    · exact World.SameOutside.othersKept hsame
    · exact (hend hpost).othersKept

/-- The same is true of every single step while other operations go on, if fresh identifiers
do not repeat: it changes only what belongs to the trigger whose lock is held. -/
theorem others_kept_of_moves {t : System} (hs : Reachable config fails things ids s)
    (hids : s.world.ids.Unrepeated) {place : Nat} {thread : Thread}
    (hplace : s.threads[place]? = some thread) (hmoves : Moves fails place s t)
    {id : TriggerId} (hlocks : forall held, held ∈ thread.standing.locks -> held = id) :
    s.world.OthersKept config.naming id t.world := by
  cases hmoves with
  | @move w v threads request st st' work work' hwork hstep =>
      cases hplace.symm.trans hwork
      apply World.SameOutside.othersKept
      cases hstep with
      | call c next =>
          rcases hs.ordered.reads_or_permitted hplace with hreads | ⟨held, hheld, hpermitted⟩
          · rw [hreads.perform_eq]
            exact .refl config.naming id w
          · have hid : held = id := by
              apply hlocks
              rw [hheld]
              exact List.mem_singleton_self held
            subst hid
            -- identifiers that do not repeat tell which trigger a target is for
            have habout := hpermitted.about (Or.inl (hs.drawn hids).distinct)
            exact (World.SameOutside.refl config.naming held w).perform
              hs.ordered.inv.integrity habout
      | _ => exact ⟨rfl, rfl, rfl⟩

end System.Reachable

namespace System

/-- Rules cannot be installed and topics cannot be deleted, so a creation fails and cannot
take everything back. -/
def patchy : FaultPlan :=
  (FaultPlan.empty.set "rules.install_rule" (.always (.unavailable "down"))).set
    "broker.delete_topic" (.always (.unavailable "down"))

theorem guarded_others_kept :
    let request := Request.create Lifecycle.heatAlarm
    let id : TriggerId := ⟨guarded.world.ids.next.1⟩
    let w : World := { guarded.world with faults := patchy }
    let op := (request.operation .standard).run
    request.Concerns id guarded.world ∧
      (op.run Config.standard.callTimeout w).1.isOk = false ∧
      (op.run Config.standard.callTimeout w).2.broker.topics.length =
        guarded.world.broker.topics.length + 1 ∧
      guarded.world.OthersKept Config.standard.naming id
        (op.run Config.standard.callTimeout w).2 ∧
      forall calls, guarded.world.OthersKept Config.standard.naming id
        (op.stopped Config.standard.callTimeout calls w) := by
  intro request id w op
  have hs : Reachable .standard anyFault _ _ guarded := home_reachable.play _
  have hconcerns : request.Concerns id guarded.world := rfl
  have hfailed : (op.run Config.standard.callTimeout w).1.isOk = false ∧
      (op.run Config.standard.callTimeout w).2.broker.topics.length =
        guarded.world.broker.topics.length + 1 := by
    decide +kernel
  exact ⟨hconcerns, hfailed.1, hfailed.2,
    hs.others_kept hconcerns patchy Config.standard.callTimeout⟩

end System
end TelemetryTriggers
