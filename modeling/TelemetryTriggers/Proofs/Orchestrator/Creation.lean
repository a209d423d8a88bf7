import TelemetryTriggers.Proofs.Orchestrator.Holding
import TelemetryTriggers.Proofs.Requests.Validation
import TelemetryTriggers.Proofs.Services.Addition

/-!
# Creations keep the order

A creation holds the lock of its trigger while it works, so its row stays the draft
that it wrote, and its topic and its rule stay once they are there.  When it writes the
handles, both exist.

Main definition: `Building`, what is true until then.  The main statement is
`create_order`.
-/

namespace TelemetryTriggers

/-- The row of the trigger is the draft, the items are there, and the actions of the
stack are about the trigger. -/
structure Building (naming : ResourceNaming) (H : History) (draft : Trigger)
    (items : List Item) (undos : List Undo) (st : Standing) (w : World) : Prop where
  held : st.locks = [draft.id]
  named : st.drawn.head? = some draft.id.uuid
  row : forall t, t ∈ w.store.triggers -> t.id = draft.id -> t = draft
  items : forall item, item ∈ items ->
    item.IsCore ∧ item.owner? naming = some draft.id ∧ w.Holds item
  undos : forall undo, undo ∈ undos -> undo.Concerns naming H draft.id

def Call.Builds : Call -> Prop
  | createTopic _ => True
  | subscribe _ _ _ => True
  | insertTarget _ => True
  | installRule _ _ _ => True
  | _ => False

section Building

variable {fails : Call -> ServiceError -> Prop} {config : Config} {H : History}
  {request : CreateRequest} {draft : Trigger} {items : List Item} {undos : List Undo}
  {st : Standing} {w v : World}

namespace Building

theorem holding (h : Building config.naming H draft items undos st w) :
    Holding draft.id (· = draft) st w :=
  ⟨h.held, h.row⟩

theorem perform {c : Call} (h : Building config.naming H draft items undos st w)
    (hc : c.Builds) : Building config.naming H draft items undos st (c.perform w).2 := by
  have htriggers : (c.perform w).2.store.triggers = w.store.triggers := by
    rcases c.triggers_perform w with heq | ⟨_, rfl, _⟩ | ⟨_, _, rfl, _⟩ | ⟨_, rfl, _⟩
    · exact heq
    · cases hc
    · cases hc
    · cases hc
  refine ⟨h.held, h.named, ?_, ?_, h.undos⟩
  · rw [htriggers]
    exact h.row
  · intro item hitem
    rcases h.items item hitem with ⟨hcore, howner, hholds⟩
    refine ⟨hcore, howner, ?_⟩
    cases item with
    | trigger row =>
        show row ∈ (c.perform w).2.store.triggers
        rw [htriggers]
        exact hholds
    | topic t =>
        show t ∈ (c.perform w).2.broker.topics
        rcases c.topics_perform w with heq | ⟨_, rfl, heq⟩ | ⟨_, rfl, _⟩
        · rw [heq]
          exact hholds
        · rw [heq]
          exact List.mem_append_left _ hholds
        · cases hc
    | rule r =>
        show r ∈ (c.perform w).2.engine.rules
        rcases c.rules_perform w with heq | ⟨_, _, _, rfl, heq⟩ | ⟨_, rfl, _⟩
        · rw [heq]
          exact hholds
        · rw [heq]
          exact List.mem_append_left _ hholds
        · cases hc
    | target row => cases hcore
    | subscription s => cases hcore

theorem add_undo {undo : Undo} (h : Building config.naming H draft items undos st w)
    (hundo : undo.Concerns config.naming H draft.id) :
    Building config.naming H draft items (undo :: undos) st w := by
  refine ⟨h.held, h.named, h.row, h.items, ?_⟩
  intro other hother
  rcases List.mem_cons.mp hother with rfl | hold
  · exact hundo
  · exact h.undos other hold

theorem add_item {item : Item} (h : Building config.naming H draft items undos st w)
    (hcore : item.IsCore) (howner : item.owner? config.naming = some draft.id)
    (hholds : w.Holds item) :
    Building config.naming H draft (item :: items) undos st w := by
  refine ⟨h.held, h.named, h.row, ?_, h.undos⟩
  intro other hother
  rcases List.mem_cons.mp hother with rfl | hold
  · exact ⟨hcore, howner, hholds⟩
  · exact h.items other hold

end Building

theorem stable_building :
    ((order config H).setting fails (.create request)).Stable
      (Building config.naming H draft items undos) := by
  intro st w v h hv
  have hmine : draft.id ∈ st.locks := by simp [h.held]
  refine ⟨h.held, h.named, ?_, ?_, h.undos⟩
  · intro t ht hid
    exact h.row t ((hv _ hmine (.trigger t) trivial (congrArg some hid)).mp ht) hid
  · intro item hitem
    rcases h.items item hitem with ⟨hcore, howner, hholds⟩
    exact ⟨hcore, howner, (hv _ hmine item hcore howner).mpr hholds⟩

theorem unwind_building (hknown : H (.create request) []) (hdraft : draft.isProvisioned = false) :
    Saga.Triple ((order config H).setting fails (.create request))
      (Building config.naming H draft items undos) (unwind undos)
      fun _ => Locked draft.id := by
  intro st w h
  have hremovable : forall undo, undo ∈ undos ->
      Removable config H (.create request) draft.id (· = draft) undo := by
    intro undo hundo
    constructor
    · exact fun _ => h.undos undo hundo
    · intro _ t _ heq hprovisioned
      rcases heq with rfl
      rw [hdraft] at hprovisioned
      cases hprovisioned
  exact (unwind_holding hknown hremovable st w h.holding).mono fun _ st w h => h.1

/-!
# Steps of a creation
-/

theorem orUndo_building {α : Type} {op : Operation α} {Q : α -> Assertion}
    (hknown : H (.create request) []) (hdraft : draft.isProvisioned = false)
    (hop : Operation.Triple ((order config H).setting fails (.create request))
      (Building config.naming H draft items undos) op Q
      fun _ => Building config.naming H draft items undos) :
    Operation.Triple ((order config H).setting fails (.create request))
      (Building config.naming H draft items undos) (op.orUndo undos) Q
      fun _ => Locked draft.id :=
  hop.orUndo fun _ => unwind_building hknown hdraft

theorem build {c : Call} {Q : c.Reply -> Assertion} (hknown : H (.create request) [])
    (hdraft : draft.isProvisioned = false) (hc : c.Builds)
    (habout : forall w, c.About config.naming draft.id w)
    (hfits : forall w, c.Fits config H w)
    (hok : forall st w r v, Building config.naming H draft items undos st v ->
      w.Sound config H -> c.perform w = (.ok r, v) -> Q r st v) :
    Operation.Triple ((order config H).setting fails (.create request))
      (Building config.naming H draft items undos) ((Operation.ask c).orUndo undos) Q
      fun _ => Locked draft.id := by
  apply orUndo_building hknown hdraft
  apply Operation.Triple.change hknown stable_building
  · exact fun st w h => h.held
  · intro st w _ _
    refine ⟨fun _ => habout w, hfits w, ?_⟩
    intro h
    rcases h with hrecover | hstrips
    · cases hrecover
    · cases c with
      | deleteTopic _ | removeRule _ => cases hc
      | _ => cases hstrips
  · intro st w r v h hw hperform
    have hv := h.perform hc
    rw [hperform] at hv
    exact hok st w r v hv hw hperform
  · exact fun _ st w h => h

theorem createTopic_building (hknown : H (.create request) [])
    (hdraft : draft.isProvisioned = false) :
    Operation.Triple ((order config H).setting fails (.create request))
      (Building config.naming H draft items undos)
      ((Operation.ask (.createTopic (config.naming.topicName draft.id))).orUndo undos)
      (fun topic st w => Building config.naming H draft
        (.topic ⟨config.naming.topicName draft.id, config.naming.topicHandle draft.id⟩ :: items)
        (.deleteTopic topic :: undos) st w ∧ topic = config.naming.topicHandle draft.id)
      fun _ => Locked draft.id := by
  apply build hknown hdraft
  · trivial
  · exact fun _ => config.naming.triggerForTopic?_topicName draft.id
  · exact fun _ => trivial
  · intro st w topic v h hw hperform
    rcases Call.createTopic_ok hperform with ⟨rfl, hv⟩
    refine ⟨(h.add_item ?_ ?_ ?_).add_undo ?_, rfl⟩
    · trivial
    · exact config.naming.triggerForTopic?_topicName draft.id
    · rcases hv with ⟨hold, rfl⟩ | ⟨_, rfl⟩
      · -- a topic of that handle can only be the one of that name
        rcases Broker.hasTopic_iff.mp hold with ⟨topic, htopic, hhandle⟩
        have hname : topic.name = config.naming.topicName draft.id := by
          apply Broker.handleFor_injective
          rw [← hw.integrity.broker.named topic htopic, hhandle]
        rcases topic with ⟨name, handle⟩
        cases hname
        cases hhandle
        exact htopic
      · exact List.mem_append_right _ (List.mem_singleton_self _)
    · exact config.naming.triggerForHandle?_topicHandle draft.id

theorem subscribe_building (hknown : H (.create request) [])
    (hdraft : draft.isProvisioned = false) (protocol endpoint : String) :
    Operation.Triple ((order config H).setting fails (.create request))
      (Building config.naming H draft items undos)
      ((Operation.ask (.subscribe (config.naming.topicHandle draft.id) protocol
        endpoint)).orUndo undos)
      (fun handle st w =>
        Building config.naming H draft items (.unsubscribe handle :: undos) st w ∧
          exists u, handle =
            Broker.subscriptionHandle (config.naming.topicHandle draft.id) u)
      fun _ => Locked draft.id := by
  have howner := config.naming.triggerForHandle?_topicHandle draft.id
  apply build hknown hdraft
  · trivial
  · exact fun _ => howner
  · exact fun _ => trivial
  · intro st w handle v h hw hperform
    rcases Call.subscribe_ok hperform with ⟨_, hhandle, _⟩
    exact ⟨h.add_undo ⟨_, _, hhandle, howner⟩, _, hhandle⟩

theorem fresh_building {E : TriggerError -> Assertion} :
    Operation.Triple ((order config H).setting fails (.create request))
      (Building config.naming H draft items undos) Operation.fresh
      (fun u st w => Building config.naming H draft items undos st w ∧ H.Issued draft.id u)
      E := by
  apply Operation.Triple.fresh stable_building
  intro st w h _ hdrawn
  have hnamed : (st.drawn ++ [w.ids.next.1]).head? = some draft.id.uuid := by
    rw [List.head?_append, h.named]
    rfl
  constructor
  · exact ⟨h.held, hnamed, h.row, h.items, h.undos⟩
  · exact ⟨.create request, _, hdrawn, hnamed,
      List.mem_append_right _ (List.mem_singleton_self _)⟩

theorem insertTarget_building (hknown : H (.create request) [])
    (hdraft : draft.isProvisioned = false) {row : Target} (hrow : row.trigger = draft.id)
    (hbelongs : row.BelongsTo config.naming H draft.id) :
    Operation.Triple ((order config H).setting fails (.create request))
      (Building config.naming H draft items undos)
      ((Operation.ask (.insertTarget row)).orUndo undos)
      (fun _ => Building config.naming H draft items (.deleteTarget row.id :: undos))
      fun _ => Locked draft.id := by
  apply build hknown hdraft
  · trivial
  · exact fun _ => hrow
  · intro w
    show row.BelongsTo config.naming H row.trigger
    rw [hrow]
    exact hbelongs
  · exact fun st w _ v h _ _ => h.add_undo (Undo.concerns_deleteTarget hbelongs)

theorem subscribeTargets_building (hknown : H (.create request) [])
    (hdraft : draft.isProvisioned = false) (targets : List ValidTarget) (undos : List Undo) :
    Operation.Triple ((order config H).setting fails (.create request))
      (Building config.naming H draft items undos)
      (Lifecycle.subscribeTargets draft.id (config.naming.topicHandle draft.id) targets undos)
      (fun made => Building config.naming H draft items made.2)
      fun _ => Locked draft.id := by
  induction targets generalizing undos with
  | nil => exact Operation.Triple.pure fun st w h => h
  | cons target targets ih =>
      rw [Lifecycle.subscribeTargets]
      apply Operation.Triple.bind_given (subscribe_building hknown hdraft _ _)
      intro handle hsuffixed
      apply Operation.Triple.bind_given fresh_building
      intro u hissued
      apply Operation.Triple.bind (insertTarget_building hknown hdraft rfl ⟨hissued, hsuffixed⟩)
      intro _
      apply Operation.Triple.bind (ih _)
      exact fun made => Operation.Triple.pure fun st w h => h

theorem compile_building (hknown : H (.create request) [])
    (hdraft : draft.isProvisioned = false) (result : Except TriggerError Predicate) :
    Operation.Triple ((order config H).setting fails (.create request))
      (Building config.naming H draft items undos)
      ((Operation.ofExcept result).orUndo undos)
      (fun predicate st w => Building config.naming H draft items undos st w ∧
        result = .ok predicate)
      fun _ => Locked draft.id := by
  apply orUndo_building hknown hdraft
  apply Operation.Triple.ofExcept
  · exact fun predicate hpredicate st w h => ⟨h, hpredicate⟩
  · exact fun _ _ st w h => h

theorem installRule_building (hknown : H (.create request) [])
    (hdraft : draft.isProvisioned = false) (predicate : Predicate) (topic : TopicHandle) :
    Operation.Triple ((order config H).setting fails (.create request))
      (Building config.naming H draft items undos)
      ((Operation.ask (.installRule (config.naming.ruleName draft.id) predicate
        topic)).orUndo undos)
      (fun rule st w => Building config.naming H draft
        (.rule ⟨config.naming.ruleHandle draft.id, config.naming.ruleName draft.id, predicate,
          topic⟩ :: items)
        (.removeRule rule :: undos) st w ∧ rule = config.naming.ruleHandle draft.id)
      fun _ => Locked draft.id := by
  have howner := config.naming.triggerForRule?_ruleName draft.id
  apply build hknown hdraft
  · trivial
  · exact fun _ => howner
  · exact fun _ => trivial
  · intro st w rule v h hw hperform
    rcases Call.installRule_ok hperform with ⟨_, rfl, rfl⟩
    refine ⟨(h.add_item ?_ ?_ ?_).add_undo ⟨_, rfl, howner⟩, rfl⟩
    · trivial
    · exact howner
    · exact List.mem_append_right _ (List.mem_singleton_self _)

theorem setHandles_building (hknown : H (.create request) [])
    (hdraft : draft.isProvisioned = false) {predicate : Predicate}
    (hordered : H.Ordered config draft predicate) :
    Operation.Triple ((order config H).setting fails (.create request))
      (Building config.naming H draft
        [.rule ⟨config.naming.ruleHandle draft.id, config.naming.ruleName draft.id, predicate,
            config.naming.topicHandle draft.id⟩,
          .topic ⟨config.naming.topicName draft.id, config.naming.topicHandle draft.id⟩]
        undos)
      ((Operation.ask (.setHandles draft.id (config.naming.handles draft.id))).orUndo undos)
      (fun _ => Locked draft.id) fun _ => Locked draft.id := by
  apply orUndo_building hknown hdraft
  apply Operation.Triple.change hknown stable_building
  · exact fun st w h => h.held
  · intro st w h _
    refine ⟨fun _ => rfl, ⟨rfl, ?_⟩, ?_⟩
    · -- the row is still the draft, and nobody else could take its resources away
      intro t ht hid
      rw [h.row t ht hid]
      constructor
      · exact (h.items _ (List.mem_cons_of_mem _ List.mem_cons_self)).2.2
      · exact ⟨_, (h.items _ List.mem_cons_self).2.2, rfl, rfl, hordered⟩
    · intro h
      rcases h with hrecover | hstrips
      · cases hrecover
      · cases hstrips
  · exact fun st w _ v h _ _ => h.held
  · exact fun _ st w h => h

theorem provision_building (hknown : H (.create request) [])
    (hdraft : draft.isProvisioned = false) (thing : Thing) (targets : List ValidTarget)
    (hordered : forall predicate,
      draft.condition.compile thing.name draft.message = .ok predicate ->
        H.Ordered config draft predicate) :
    Operation.Triple ((order config H).setting fails (.create request))
      (Building config.naming H draft [] undos)
      (Lifecycle.provision config.naming draft thing targets undos)
      (fun _ => Locked draft.id) fun _ => Locked draft.id := by
  rw [Lifecycle.provision]
  apply Operation.Triple.bind_given (createTopic_building hknown hdraft)
  intro topic htopic
  subst htopic
  apply Operation.Triple.bind (subscribeTargets_building hknown hdraft targets _)
  intro made
  apply Operation.Triple.bind_given (compile_building hknown hdraft _)
  intro predicate hpredicate
  apply Operation.Triple.bind_given (installRule_building hknown hdraft predicate _)
  intro rule hrule
  subst hrule
  apply Operation.Triple.bind
    (setHandles_building hknown hdraft (hordered predicate hpredicate))
  exact fun _ => Operation.Triple.pure fun st w h => h

end Building

/-!
# The whole creation
-/

section Create

variable {fails : Call -> ServiceError -> Prop} {config : Config} {H : History}
  {request : CreateRequest} {id : TriggerId}

def Named (id : TriggerId) : Assertion :=
  fun st _ => st.locks = [id] ∧ st.drawn.head? = some id.uuid

theorem stable_named :
    ((order config H).setting fails (.create request)).Stable (Named id) :=
  fun _ _ _ h _ => h

theorem pairedThing_named (hknown : H (.create request) []) (user : UserId) (name : String) :
    Operation.Triple ((order config H).setting fails (.create request)) (Named id)
      (Lifecycle.pairedThing user name)
      (fun thing st w => Named id st w ∧ thing.name = name) fun _ => Locked id := by
  rw [Lifecycle.pairedThing]
  apply Operation.Triple.bind (Q := fun (row : Option Thing) st w => Named id st w ∧
    forall thing, row = some thing -> thing.name = name)
  · apply Operation.Triple.read (c := .thingNamed name) trivial hknown stable_named
    · intro st w row h _ hrow
      refine ⟨h, ?_⟩
      intro thing heq
      rcases heq with rfl
      have hfind : w.store.thingNamed? name = some thing := Except.ok.inj hrow
      simpa using List.find?_some hfind
    · exact fun _ st w h => h.1
  · intro row
    apply Operation.Triple.orFail
    · intro thing hthing st w h
      exact ⟨h.1, h.2 thing (Option.filter_eq_some_iff.mp hthing).1⟩
    · exact fun _ st w h => h.1.1

theorem insertTrigger_building (hknown : H (.create request) []) (draft : Trigger)
    (hdraft : draft.isProvisioned = false) :
    Operation.Triple ((order config H).setting fails (.create request)) (Named draft.id)
      (Operation.ask (.insertTrigger draft))
      (fun _ => Building config.naming H draft [] [.deleteTrigger draft.id])
      fun _ => Locked draft.id := by
  apply Operation.Triple.change hknown stable_named
  · exact fun st w h => h.1
  · intro st w _ _
    refine ⟨fun _ => rfl, hdraft, ?_⟩
    intro h
    rcases h with hrecover | hstrips
    · cases hrecover
    · cases hstrips
  · intro st w _ v h _ hperform
    rcases Call.insertTrigger_ok hperform with ⟨hfree, rfl⟩
    constructor
    · exact h.1
    · exact h.2
    · intro t ht hid
      rcases List.mem_append.mp ht with hold | hnew
      · exact absurd hid (hfree t hold)
      · exact List.mem_singleton.mp hnew
    · exact fun item hitem => absurd hitem List.not_mem_nil
    · intro undo hundo
      rw [List.mem_singleton.mp hundo]
      rfl
  · exact fun _ st w h => h.1

theorem thingName_of_validate {maxTargets : Nat} {valid : ValidRequest}
    (h : request.validate maxTargets = .ok valid) : valid.thingName = request.thingName :=
  (CreateRequest.parts_of_validate h).2.1

theorem createWithId_named (hknown : H (.create request) [id.uuid])
    (hstart : H (.create request) []) {valid : ValidRequest}
    (hvalid : request.validate config.maxTargets = .ok valid) :
    Operation.Triple ((order config H).setting fails (.create request)) (Named id)
      (Lifecycle.createWithId config.naming request.user valid id)
      (fun _ => Locked id) fun _ => Locked id := by
  rw [Lifecycle.createWithId]
  apply Operation.Triple.bind_given (pairedThing_named hstart request.user valid.thingName)
  intro thing hname
  apply Operation.Triple.bind (insertTrigger_building hstart
    ⟨id, request.user, thing.id, valid.condition, valid.message, none⟩ rfl)
  intro _
  apply provision_building hstart rfl
  intro predicate hpredicate
  refine ⟨request, _, valid, hknown, rfl, hvalid, rfl, rfl, rfl, ?_⟩
  rw [← thingName_of_validate hvalid, ← hname]
  exact hpredicate

theorem create_order (hknown : H (.create request) []) :
    Operation.Triple ((order config H).setting fails (.create request))
      (fun st _ => st = ⟨[], [], false⟩) (Lifecycle.create config request)
      (fun _ => Unlocked) fun _ => Unlocked := by
  rw [Lifecycle.create]
  apply Operation.Triple.bind (Q := fun valid st _ => st = ⟨[], [], false⟩ ∧
    request.validate config.maxTargets = .ok valid)
  · apply Operation.Triple.ofExcept
    · exact fun valid hvalid st w h => ⟨h, hvalid⟩
    · intro _ _ st w heq
      rcases heq with rfl
      rfl
  · intro valid
    apply Operation.Triple.given
    intro hvalid
    apply Operation.Triple.detached (D := fun st _ => st = ⟨[], [], true⟩)
    · exact fun st w v h _ => h
    · apply Operation.Triple.bind (Q := fun u st _ =>
        ((st.locks = [] ∧ st.detached = true) ∧ st.drawn.head? = some u) ∧
          H (.create request) [u])
      · apply Operation.Triple.fresh
        · exact fun st w v h _ => h
        · intro st w heq _ hdrawn
          rcases heq with rfl
          exact ⟨⟨⟨rfl, rfl⟩, rfl⟩, hdrawn⟩
      · intro u
        apply Operation.Triple.given
        intro hdrawn
        exact locked_standing (f := fun drawn => drawn.head? = some u)
          (createWithId_named hdrawn hknown hvalid)
    · intro st w heq _
      rcases heq with rfl
      rfl

end Create
end TelemetryTriggers
