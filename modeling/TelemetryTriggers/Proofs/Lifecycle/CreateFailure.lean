import TelemetryTriggers.Lifecycle.Create
import TelemetryTriggers.Proofs.Saga.Undo
import TelemetryTriggers.Proofs.Services.Addition

/-!
# Creations that fail

A creation adds the items of one trigger, one call after another, and keeps a stack
that covers what it added.  Wherever it fails the stack is unwound, and before each
of its calls the world is one that may be left behind.

Main definition: `Lifecycle.Returned`, what is left of a creation that failed.  The
main statement is `Lifecycle.create_returned`.
-/

namespace TelemetryTriggers
namespace Lifecycle

/-!
# Each step that adds something is covered by its action
-/

section Underway

variable {fails : Call -> ServiceError -> Prop} {certain : Prop} {naming : ResourceNaming}
  {id : TriggerId} {base : World} {undos : List Undo} {st : Standing} {w v : World}

theorem step_underway {c : Call} {Q : c.Reply -> Assertion}
    (hspared : certain -> forall undo : Undo, forall e, fails undo.toCall e -> False)
    (hok : forall st w r v, Underway True naming id base undos st w -> w.Integrity ->
      c.perform w = (.ok r, v) -> Q r st v) :
    Operation.Triple (Setting.alone fails (base.Residue naming id))
      (Underway True naming id base undos) ((Operation.ask c).orUndo undos) Q
      fun _ => Underway certain naming id base [] := by
  have hask : Operation.Triple (Setting.alone fails (base.Residue naming id))
      (Underway True naming id base undos) (Operation.ask c) Q
      fun _ => Underway True naming id base undos := by
    refine Operation.Triple.ask underway_stable ?_ ?_ hok ?_
    · exact fun st w h _ => h.residue
    · exact fun st w e h _ => h
    · intro st w e v h _ hperform
      rw [Call.perform_error hperform]
      exact h
  refine Operation.Triple.orUndo hask fun _ => ?_
  apply Saga.Triple.consequence (unwind_residue hspared)
  · exact fun st w h => h.weaken
  · exact fun _ _ _ h => h

theorem underway_insertTrigger {row : Trigger} {r : Unit}
    (h : Underway True naming id base [] st w) (hw : w.Integrity) (hid : row.id = id)
    (hdraft : row.isProvisioned = false)
    (hc : (Call.insertTrigger row).perform w = (.ok r, v)) :
    Underway True naming id base [.deleteTrigger id] st v := by
  have hsame := h.residue.same.perform (c := .insertTrigger row) hw hid
  rw [hc] at hsame
  rcases Call.insertTrigger_ok hc with ⟨_, rfl⟩
  subst hid
  refine h.add (.trigger row) rfl ⟨hsame, ?_, h.residue.suffixed⟩ rfl rfl ?_
  · intro t ht hid
    rcases List.mem_append.mp ht with hold | hnew
    · exact h.residue.draft t hold hid
    · rw [List.mem_singleton.mp hnew]
      exact hdraft
  · intro other hother
    cases other with
    | trigger t =>
        rcases List.mem_append.mp hother with hold | hnew
        · exact Or.inl hold
        · rw [List.mem_singleton.mp hnew]
          exact Or.inr rfl
    | _ => exact Or.inl hother

theorem underway_createTopic {topic : TopicHandle}
    (h : Underway True naming id base undos st w) (hw : w.Integrity)
    (hc : (Call.createTopic (naming.topicName id)).perform w = (.ok topic, v)) :
    Underway True naming id base (.deleteTopic topic :: undos) st v ∧
      topic = naming.topicHandle id := by
  have habout : (Call.createTopic (naming.topicName id)).About naming id w :=
    naming.triggerForTopic?_topicName id
  have hsame := h.residue.same.perform hw habout
  rw [hc] at hsame
  rcases Call.createTopic_ok hc with ⟨rfl, hv⟩
  refine ⟨?_, rfl⟩
  rcases hv with ⟨_, rfl⟩ | ⟨_, rfl⟩
  · refine h.add (.topic ⟨naming.topicName id, _⟩) rfl ?_
      (naming.triggerForHandle?_topicHandle id) h.last ?_
    · exact ⟨hsame, h.residue.draft, h.residue.suffixed⟩
    · exact fun other hother => Or.inl hother
  · refine h.add (.topic ⟨naming.topicName id, _⟩) rfl ?_
      (naming.triggerForHandle?_topicHandle id) h.last ?_
    · exact ⟨hsame, h.residue.draft, h.residue.suffixed⟩
    · intro other hother
      cases other with
      | topic t =>
          rcases List.mem_append.mp hother with hold | hnew
          · exact Or.inl hold
          · rw [List.mem_singleton.mp hnew]
            exact Or.inr rfl
      | _ => exact Or.inl hother

theorem underway_subscribe {protocol endpoint : String} {handle : SubscriptionHandle}
    (hbase : base.Integrity) (h : Underway True naming id base undos st w)
    (hw : w.Integrity)
    (hc : (Call.subscribe (naming.topicHandle id) protocol endpoint).perform w =
      (.ok handle, v)) :
    Underway True naming id base (.unsubscribe handle :: undos) st v ∧
      exists u, handle = Broker.subscriptionHandle (naming.topicHandle id) u := by
  have habout : (Call.subscribe (naming.topicHandle id) protocol endpoint).About
      naming id w :=
    naming.triggerForHandle?_topicHandle id
  have hsame := h.residue.same.perform hw habout
  rw [hc] at hsame
  rcases Call.subscribe_ok hc with ⟨_, hhandle, rfl⟩
  refine ⟨?_, _, hhandle⟩
  refine h.add (.subscription ⟨handle, naming.topicHandle id, protocol, endpoint⟩)
    rfl ⟨hsame, h.residue.draft, h.residue.suffixed⟩ ?_ h.last ?_
  · intro s hs hold
    rw [hbase.broker.topic_of_suffixed hs (hold.trans hhandle)]
    exact naming.triggerForHandle?_topicHandle id
  · intro other hother
    cases other with
    | subscription s =>
        rcases List.mem_append.mp hother with hold | hnew
        · exact Or.inl (List.mem_of_mem_filter hold)
        · rw [List.mem_singleton.mp hnew]
          exact Or.inr rfl
    | _ => exact Or.inl hother

theorem underway_insertTarget {row : Target} {r : Unit} {u : Uuid}
    (h : Underway True naming id base undos st w) (hw : w.Integrity)
    (hid : row.trigger = id)
    (hsubscription :
      row.subscription = Broker.subscriptionHandle (naming.topicHandle id) u)
    (hc : (Call.insertTarget row).perform w = (.ok r, v)) :
    Underway True naming id base (.deleteTarget row.id :: undos) st v := by
  have hsame := h.residue.same.perform (c := .insertTarget row) hw hid
  rw [hc] at hsame
  rcases Call.insertTarget_ok hc with ⟨hfree, rfl⟩
  refine h.add (.target row) rfl ⟨hsame, h.residue.draft, ?_⟩ ?_ h.last ?_
  · intro q hq hid
    rcases List.mem_append.mp hq with hold | hnew
    · exact h.residue.suffixed q hold hid
    · rw [List.mem_singleton.mp hnew]
      exact ⟨u, hsubscription⟩
  · intro q hq hrow
    by_contra hother
    have hitem : base.Holds (.target q) := hq
    exact hfree q (h.residue.same.symm.holds hitem fun heq => hother (Option.some.inj heq))
      hrow
  · intro other hother
    cases other with
    | target q =>
        rcases List.mem_append.mp hother with hold | hnew
        · exact Or.inl hold
        · rw [List.mem_singleton.mp hnew]
          exact Or.inr rfl
    | _ => exact Or.inl hother

theorem underway_installRule {predicate : Predicate} {topic : TopicHandle}
    {rule : RuleHandle} (hbase : base.Integrity)
    (h : Underway True naming id base undos st w) (hw : w.Integrity)
    (hc : (Call.installRule (naming.ruleName id) predicate topic).perform w =
      (.ok rule, v)) :
    Underway True naming id base (.removeRule rule :: undos) st v := by
  have habout : (Call.installRule (naming.ruleName id) predicate topic).About
      naming id w :=
    naming.triggerForRule?_ruleName id
  have hsame := h.residue.same.perform hw habout
  rw [hc] at hsame
  rcases Call.installRule_ok hc with ⟨_, hrule, rfl⟩
  refine h.add (.rule ⟨rule, naming.ruleName id, predicate, topic⟩)
    rfl ⟨hsame, h.residue.draft, h.residue.suffixed⟩ ?_ h.last ?_
  · intro r hr hhandle
    have hname : r.name = naming.ruleName id :=
      RuleEngine.handleFor_injective
        ((hbase.engine.named r hr).symm.trans (hhandle.trans hrule))
    rw [hname]
    exact naming.triggerForRule?_ruleName id
  · intro other hother
    cases other with
    | rule r =>
        rcases List.mem_append.mp hother with hold | hnew
        · exact Or.inl hold
        · rw [List.mem_singleton.mp hnew]
          exact Or.inr rfl
    | _ => exact Or.inl hother

theorem fresh_underway {E : TriggerError -> Assertion} :
    Operation.Triple (Setting.alone fails (base.Residue naming id))
      (Underway certain naming id base undos) Operation.fresh
      (fun _ => Underway certain naming id base undos) E :=
  Operation.Triple.fresh underway_stable fun _ w h _ _ => h.around _ w.faults _

theorem subscribeTargets_underway (hbase : base.Integrity)
    (hspared : certain -> forall undo : Undo, forall e, fails undo.toCall e -> False)
    (targets : List ValidTarget) (undos : List Undo) :
    Operation.Triple (Setting.alone fails (base.Residue naming id))
      (Underway True naming id base undos)
      (subscribeTargets id (naming.topicHandle id) targets undos)
      (fun made => Underway True naming id base made.2)
      fun _ => Underway certain naming id base [] := by
  induction targets generalizing undos with
  | nil => exact Operation.Triple.pure fun st w h => h
  | cons target targets ih =>
      rw [subscribeTargets]
      refine Operation.Triple.bind (step_underway hspared fun st w r v h hw hc =>
        underway_subscribe hbase h hw hc) fun handle => ?_
      refine Operation.Triple.given fun hhandle => ?_
      rcases hhandle with ⟨u, hhandle⟩
      refine Operation.Triple.bind fresh_underway fun v => ?_
      refine Operation.Triple.bind (step_underway hspared fun st w r v h hw hc =>
        underway_insertTarget h hw rfl hhandle hc) fun _ => ?_
      refine Operation.Triple.bind (ih _) fun made => ?_
      exact Operation.Triple.pure fun st w h => h

theorem ofExcept_underway {α : Type} (result : Except TriggerError α)
    (hspared : certain -> forall undo : Undo, forall e, fails undo.toCall e -> False) :
    Operation.Triple (Setting.alone fails (base.Residue naming id))
      (Underway True naming id base undos) ((Operation.ofExcept result).orUndo undos)
      (fun _ => Underway True naming id base undos)
      fun _ => Underway certain naming id base [] := by
  have hresult : Operation.Triple (Setting.alone fails (base.Residue naming id))
      (Underway True naming id base undos) (Operation.ofExcept result)
      (fun _ => Underway True naming id base undos)
      fun _ => Underway True naming id base undos :=
    Operation.Triple.ofExcept (fun _ _ _ _ h => h) fun _ _ _ _ h => h
  refine Operation.Triple.orUndo hresult fun _ => ?_
  exact (unwind_residue hspared).consequence (fun _ _ h => h.weaken) fun _ _ _ h => h

def LockKept (id : TriggerId) (base : World) : Assertion := fun st w =>
  st.locks = [id] ∧ base.locks.isHeld id = false ∧ w.locks = ⟨id :: base.locks.held⟩

def Committed (id : TriggerId) (base : World) : Assertion := fun st w =>
  LockKept id base st w ∧
    exists t, t ∈ w.store.triggers ∧ t.id = id ∧ t.isProvisioned = true

theorem commit_underway (handles : Handles)
    (hspared : certain -> forall undo : Undo, forall e, fails undo.toCall e -> False) :
    Operation.Triple (Setting.alone fails (base.Residue naming id))
      (Underway True naming id base undos)
      ((Operation.ask (.setHandles id handles)).orUndo undos) (fun _ => Committed id base)
      fun _ => Underway certain naming id base [] := by
  apply step_underway hspared
  intro st w r v h _ hc
  rcases Call.setHandles_ok hc with ⟨⟨t, ht, _⟩, rfl⟩
  rcases Store.trigger?_eq_some ht with ⟨ht, hid⟩
  constructor
  · exact ⟨h.held, h.free, h.locks⟩
  · exact ⟨{ t with handles := some handles },
      List.mem_map.mpr ⟨t, ht, if_pos hid⟩, hid, rfl⟩

theorem provision_underway {draft : Trigger} (hbase : base.Integrity)
    (hspared : certain -> forall undo : Undo, forall e, fails undo.toCall e -> False)
    (hid : draft.id = id) (thing : Thing) (targets : List ValidTarget) :
    Operation.Triple (Setting.alone fails (base.Residue naming id))
      (Underway True naming id base undos) (provision naming draft thing targets undos)
      (fun _ => Committed id base) fun _ => Underway certain naming id base [] := by
  subst hid
  rw [provision]
  refine Operation.Triple.bind (step_underway hspared fun st w r v h hw hc =>
    underway_createTopic h hw hc) fun topic => ?_
  refine Operation.Triple.given fun htopic => ?_
  subst htopic
  refine Operation.Triple.bind (subscribeTargets_underway hbase hspared targets _)
    fun made => ?_
  refine Operation.Triple.bind (ofExcept_underway _ hspared) fun predicate => ?_
  refine Operation.Triple.bind (step_underway hspared fun st w r v h hw hc =>
    underway_installRule hbase h hw hc) fun rule => ?_
  refine Operation.Triple.bind (commit_underway _ hspared) fun _ => ?_
  exact Operation.Triple.pure fun st w h => h

theorem pairedThing_underway (user : UserId) (name : String) :
    Operation.Triple (Setting.alone fails (base.Residue naming id))
      (Underway True naming id base []) (pairedThing user name)
      (fun _ => Underway True naming id base [])
      fun _ => Underway certain naming id base [] := by
  rw [pairedThing]
  refine Operation.Triple.bind (Q := fun _ => Underway True naming id base []) ?_ fun row => ?_
  · refine Operation.Triple.ask underway_stable ?_ ?_ ?_ ?_
    · exact fun st w h _ => h.residue
    · exact fun st w e h _ => h.weaken
    · intro st w r v h _ hc
      cases hc
      exact h
    · intro st w e v h _ hc
      rw [Call.perform_error hc]
      exact h.weaken
  · exact Operation.Triple.orFail (fun _ _ _ _ h => h) fun _ _ _ h => h.weaken

theorem createWithId_underway (hbase : base.Integrity)
    (hspared : certain -> forall undo : Undo, forall e, fails undo.toCall e -> False)
    (user : UserId) (request : ValidRequest) :
    Operation.Triple (Setting.alone fails (base.Residue naming id))
      (Underway True naming id base []) (createWithId naming user request id)
      (fun _ => Committed id base) fun _ => Underway certain naming id base [] := by
  rw [createWithId]
  refine Operation.Triple.bind (pairedThing_underway user request.thingName) fun thing => ?_
  refine Operation.Triple.bind (Q := fun _ => Underway True naming id base [.deleteTrigger id])
    ?_ fun _ => ?_
  · refine Operation.Triple.ask underway_stable ?_ ?_ ?_ ?_
    · exact fun st w h _ => h.residue
    · exact fun st w e h _ => h.weaken
    · exact fun st w r v h hw hc => underway_insertTrigger h hw rfl rfl hc
    · intro st w e v h _ hc
      rw [Call.perform_error hc]
      exact h.weaken
  · apply provision_underway hbase hspared _ thing request.targets
    rfl

end Underway

/-!
# What a creation leaves when it fails
-/

/-- The world differs from the first one in faults and identifiers only. -/
def Untouched (base : World) : Assertion := fun st w =>
  st.locks = [] ∧ w.store = base.store ∧ w.broker = base.broker ∧
    w.engine = base.engine ∧ w.locks = base.locks

structure Returned (certain : Prop) (naming : ResourceNaming) (id : TriggerId)
    (base w : World) : Prop where
  locks : w.locks = base.locks
  residue : base.Residue naming id w
  cleared : certain -> w.CoveredBy naming id []

section Failure

variable {fails : Call -> ServiceError -> Prop} {leavable : World -> Prop} {certain : Prop}
  {naming : ResourceNaming} {id : TriggerId} {base : World} {st : Standing} {w : World}

theorem Untouched.eq (h : Untouched base st w) :
    w = { base with faults := w.faults, ids := w.ids } := by
  rcases h with ⟨_, hstore, hbroker, hengine, hlocks⟩
  rw [← hstore, ← hbroker, ← hengine, ← hlocks]

theorem Untouched.returned (h : Untouched base st w) (hbase : base.Integrity)
    (hfresh : base.Fresh naming id) : Returned certain naming id base w := by
  rw [h.eq]
  exact ⟨rfl, (hfresh.residue hbase).around _ _ _,
    fun _ => (hfresh.coveredBy hbase []).around _ _ _⟩

theorem Untouched.underway {locks : LockTable} (h : Untouched base st w)
    (hbase : base.Integrity) (hfresh : base.Fresh naming id)
    (hlocks : w.locks.acquire? id = some locks) :
    Underway True naming id base [] { st with locks := [id] } { w with locks } := by
  rcases LockTable.acquire?_eq_some hlocks with ⟨hfree, rfl⟩
  have hheld : w.locks = base.locks := h.2.2.2.2
  rw [hheld] at hfree
  refine ⟨rfl, hfree, by rw [hheld], ?_, ?_, trivial, ?_⟩
  · rw [h.eq]
    exact (hfresh.residue hbase).around _ _ _
  · exact fun undo hundo => absurd hundo List.not_mem_nil
  · intro _
    rw [h.eq]
    exact (hfresh.coveredBy hbase []).around _ _ _

theorem committed_stable : (Setting.alone fails leavable).Stable (Committed id base) :=
  Setting.alone_stable fun _ _ _ h => h

theorem lockKept_stable : (Setting.alone fails leavable).Stable (LockKept id base) :=
  Setting.alone_stable fun _ _ _ h => h

theorem locked_returned {α : Type} {op : Operation α} (hbase : base.Integrity)
    (hfresh : base.Fresh naming id)
    (hop : Operation.Triple (Setting.alone fails (base.Residue naming id))
      (Underway True naming id base []) op (fun _ => Committed id base)
      fun _ => Underway certain naming id base []) :
    Operation.Triple (Setting.alone fails (base.Residue naming id))
      (fun st w => Untouched base st w ∧ st.detached = true) (Operation.locked id op)
      (fun _ _ w => exists t, t ∈ w.store.triggers ∧ t.id = id ∧ t.isProvisioned = true)
      fun _ _ w => Returned certain naming id base w := by
  refine Operation.Triple.locked ?_ ?_ ?_ ?_ hop ?_ ?_ ?_ ?_ ?_ ?_
  · exact Setting.alone_stable fun _ _ _ h => h
  · exact fun st w h => ⟨h.1.1, h.2⟩
  · exact fun st w h => h.1.returned hbase hfresh
  · exact fun st w locks h _ hlocks => h.1.underway hbase hfresh hlocks
  · exact fun _ => committed_stable
  · exact fun _ => underway_stable
  · exact fun _ st w h => h.1.1
  · exact fun _ st w h => h.held
  · exact fun _ st w h _ => h.2
  · intro _ st w h _
    refine ⟨?_, h.residue.around w.faults _ w.ids, fun hcertain =>
      (h.covered hcertain).around w.faults _ w.ids⟩
    rw [h.locks]
    exact LockTable.release_cons h.free

theorem create_returned {config : Config} (fails : Call -> ServiceError -> Prop)
    (certain : Prop) (hbase : base.Integrity)
    (hfresh : base.Fresh config.naming ⟨base.ids.next.1⟩)
    (hspared : certain -> forall undo : Undo, forall e, fails undo.toCall e -> False)
    (request : CreateRequest) :
    Operation.Triple (Setting.alone fails (base.Residue config.naming ⟨base.ids.next.1⟩))
      (fun st w => Untouched base st w ∧ w.ids = base.ids)
      (create config request)
      (fun _ _ w => exists t, t ∈ w.store.triggers ∧ t.id = ⟨base.ids.next.1⟩ ∧
        t.isProvisioned = true)
      fun _ _ w => Returned certain config.naming ⟨base.ids.next.1⟩ base w := by
  rw [create]
  refine Operation.Triple.bind
    (Q := fun _ st w => Untouched base st w ∧ w.ids = base.ids) ?_ fun valid => ?_
  · exact Operation.Triple.ofExcept (fun _ _ _ _ h => h)
      fun _ _ _ _ h => h.1.returned hbase hfresh
  · refine Operation.Triple.detached
      (D := fun st w => (Untouched base st w ∧ w.ids = base.ids) ∧ st.detached = true) ?_ ?_ ?_
    · exact Setting.alone_stable fun _ _ _ h => h
    · refine Operation.Triple.bind
        (Q := fun u st w => (Untouched base st w ∧ st.detached = true) ∧ u = base.ids.next.1)
        ?_ fun u => ?_
      · apply Operation.Triple.fresh
        · exact Setting.alone_stable fun _ _ _ h => h
        · intro st w h _ _
          rcases h with ⟨⟨huntouched, hids⟩, hdetached⟩
          rw [hids]
          exact ⟨⟨huntouched, hdetached⟩, rfl⟩
      · refine Operation.Triple.given fun hu => ?_
        subst hu
        exact locked_returned hbase hfresh
          (createWithId_underway hbase hspared request.user valid)
    · exact fun st w h _ => ⟨h, rfl⟩

end Failure
end Lifecycle
end TelemetryTriggers
