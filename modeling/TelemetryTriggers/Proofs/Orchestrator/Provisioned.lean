import TelemetryTriggers.Proofs.Orchestrator.Discipline
import TelemetryTriggers.Proofs.Services.Change
import TelemetryTriggers.Proofs.Services.Share

/-!
# The order that operations keep

A row with handles stands for a topic and a rule that exist, until its owner asks for
its deletion.  Every operation changes only what belongs to the trigger that it has
locked, writes handles only of what exists, and removes a topic or a rule only if no
row needs it any more.

Main definitions: `History`, who drew which identifiers; `World.Sound`, the invariant;
`Call.Permitted`, the calls that keep it; `order`, the discipline.  The main statement
is `lawful_order`.
-/

namespace TelemetryTriggers

/-!
# Who drew what
-/

abbrev History : Type :=
  Request -> List Uuid -> Prop

/-- The request is about the trigger.  A creation is about the trigger of the first
identifier that it drew. -/
def Request.Names (id : TriggerId) (drawn : List Uuid) : Request -> Prop
  | create _ => drawn.head? = some id.uuid
  | addTarget _ other _ => other = id
  | _ => False

namespace History

def Issued (H : History) (id : TriggerId) (u : Uuid) : Prop :=
  exists request drawn, H request drawn ∧ request.Names id drawn ∧ u ∈ drawn

def Distinct (H : History) : Prop :=
  forall u id other, H.Issued id u -> H.Issued other u -> id = other

/-- The owner of the trigger has asked for its deletion. -/
def Doomed (H : History) (t : Trigger) : Prop :=
  H (.delete t.user t.id) []

/-- The row is the one that a request for its creation asks for, and so is the
predicate. -/
def Ordered (config : Config) (H : History) (t : Trigger) (predicate : Predicate) : Prop :=
  exists request drawn valid, H (.create request) drawn ∧
    drawn.head? = some t.id.uuid ∧ request.validate config.maxTargets = .ok valid ∧
    t.user = request.user ∧ t.condition = valid.condition ∧ t.message = valid.message ∧
    t.condition.compile request.thingName t.message = .ok predicate

end History

/-!
# The invariant
-/

def ResourceNaming.handles (naming : ResourceNaming) (id : TriggerId) : Handles :=
  ⟨naming.topicHandle id, naming.ruleHandle id⟩

structure Target.BelongsTo (naming : ResourceNaming) (H : History) (id : TriggerId)
    (r : Target) : Prop where
  issued : H.Issued id r.id.uuid
  suffixed : exists u, r.subscription =
    Broker.subscriptionHandle (naming.topicHandle id) u

namespace World

/-- The topic and the rule of the row exist, and the rule does what was asked for. -/
structure Provides (config : Config) (H : History) (w : World) (t : Trigger) : Prop where
  topic : ⟨config.naming.topicName t.id, config.naming.topicHandle t.id⟩ ∈ w.broker.topics
  rule : exists rule, rule ∈ w.engine.rules ∧ rule.name = config.naming.ruleName t.id ∧
    rule.topic = config.naming.topicHandle t.id ∧ H.Ordered config t rule.predicate

structure Sound (config : Config) (H : History) (w : World) : Prop where
  integrity : w.Integrity
  handles : forall t, t ∈ w.store.triggers -> forall handles, t.handles = some handles ->
    handles = config.naming.handles t.id
  provided : forall t, t ∈ w.store.triggers -> t.isProvisioned = true -> ¬ H.Doomed t ->
    w.Provides config H t
  targets : forall r, r ∈ w.store.targets -> r.BelongsTo config.naming H r.trigger

theorem sound_ofThings (config : Config) (H : History) (things : List Thing)
    (ids : IdSource) : (World.ofThings things ids).Sound config H := by
  rcases rows_ofThings things ids with ⟨htriggers, htargets⟩
  constructor
  · exact integrity_ofThings things ids
  · intro t ht
    rw [show (World.ofThings things ids).store.triggers = [] from htriggers] at ht
    cases ht
  · intro t ht
    rw [show (World.ofThings things ids).store.triggers = [] from htriggers] at ht
    cases ht
  · intro r hr
    rw [show (World.ofThings things ids).store.targets = [] from htargets] at hr
    cases hr

theorem Integrity.same {w v : World} (h : w.Integrity) (hv : w.SameServices v) :
    v.Integrity := by
  have hlive : forall topic, v.broker.hasTopic topic = w.broker.hasTopic topic := by
    intro topic
    rw [Broker.hasTopic, hv.topics, Broker.hasTopic]
  constructor
  · rw [hv.store]
    exact h.store
  · constructor
    · rw [hv.topics]
      exact h.broker.named
    · rw [hv.topics]
      exact h.broker.topic_handles
    · rw [hv.subscriptions]
      exact h.broker.suffixed
    · rw [hv.subscriptions]
      exact h.broker.subscription_handles
    · intro s hs
      rw [hv.subscriptions] at hs
      rw [hlive]
      exact h.broker.live s hs
  · rw [hv.engine]
    exact h.engine

theorem Sound.same {config : Config} {H : History} {w v : World} (h : w.Sound config H)
    (hv : w.SameServices v) : v.Sound config H := by
  constructor
  · exact h.integrity.same hv
  · rw [hv.store]
    exact h.handles
  · intro t ht hprovisioned hdoomed
    rw [hv.store] at ht
    have hprovides := h.provided t ht hprovisioned hdoomed
    constructor
    · rw [hv.topics]
      exact hprovides.topic
    · rw [hv.engine]
      exact hprovides.rule
  · rw [hv.store]
    exact h.targets

end World

/-!
# Calls that keep the invariant
-/

def Call.OnTargets : Call -> Prop
  | insertTarget _ => True
  | deleteTarget _ => True
  | subscribe _ _ _ => True
  | unsubscribe _ => True
  | _ => False

def Call.Strips : Call -> Prop
  | deleteTopic _ => True
  | removeRule _ => True
  | _ => False

def Call.Fits (config : Config) (H : History) (w : World) : Call -> Prop
  | insertTrigger row => row.isProvisioned = false
  | setHandles id handles => handles = config.naming.handles id ∧
      forall t, t ∈ w.store.triggers -> t.id = id ->
        w.Provides config H { t with handles := some handles }
  | insertTarget row => row.BelongsTo config.naming H row.trigger
  | _ => True

/-- The operation of a request may make the call while it holds the lock of the
trigger. -/
structure Call.Permitted (config : Config) (H : History) (request : Request)
    (id : TriggerId) (w : World) (c : Call) : Prop where
  /-- If identifiers can repeat, a target may have come to another trigger. -/
  about : H.Distinct ∨ ¬ c.OnTargets -> c.About config.naming id w
  fits : c.Fits config H w
  /-- Only a deletion by the owner takes anything from a provisioned trigger, and a
  sweep does not touch one at all. -/
  spares : request = .recover ∨ c.Strips -> forall t, t ∈ w.store.triggers -> t.id = id ->
    t.isProvisioned = true -> request = .delete t.user t.id

namespace World

variable {config : Config} {H : History} {request : Request} {id : TriggerId} {c : Call}
  {w : World}

theorem Provides.perform {t : Trigger} (h : w.Provides config H t) (id : TriggerId)
    (hkept : c.Strips -> c.About config.naming id w ∧ t.id ≠ id) :
    (c.perform w).2.Provides config H t := by
  constructor
  · rcases c.topics_perform w with heq | ⟨name, rfl, heq⟩ | ⟨topic, rfl, heq⟩
    · rw [heq]
      exact h.topic
    · rw [heq]
      exact List.mem_append_left _ h.topic
    · rw [heq]
      refine List.mem_filter.mpr ⟨h.topic, ?_⟩
      rw [bne_iff_ne]
      intro heq
      rcases heq with rfl
      rcases hkept trivial with ⟨hid, hother⟩
      have hid : config.naming.triggerForHandle? (config.naming.topicHandle t.id) = some id :=
        hid
      rw [ResourceNaming.triggerForHandle?_topicHandle] at hid
      exact hother (Option.some.inj hid)
  · rcases h.rule with ⟨rule, hrule, hname, htopic⟩
    refine ⟨rule, ?_, hname, htopic⟩
    rcases c.rules_perform w with heq | ⟨name, predicate, topic, rfl, heq⟩ | ⟨handle, rfl, heq⟩
    · rw [heq]
      exact hrule
    · rw [heq]
      exact List.mem_append_left _ hrule
    · rw [heq]
      refine List.mem_filter.mpr ⟨hrule, ?_⟩
      rw [bne_iff_ne]
      intro hhandle
      rcases hkept trivial with ⟨habout, hother⟩
      have hid := habout rule hrule hhandle
      rw [hname, ResourceNaming.triggerForRule?_ruleName] at hid
      exact hother (Option.some.inj hid)

theorem mem_triggers_of_perform (hfits : c.Fits config H w) {t : Trigger}
    (ht : t ∈ (c.perform w).2.store.triggers) :
    t ∈ w.store.triggers ∨
      (¬ c.Strips ∧ forall handles, t.handles = some handles ->
        handles = config.naming.handles t.id ∧ w.Provides config H t) := by
  rcases c.triggers_perform w with heq | ⟨row, rfl, heq⟩ | ⟨id, written, rfl, heq⟩ |
    ⟨id, rfl, heq⟩
  · rw [heq] at ht
    exact Or.inl ht
  · rw [heq] at ht
    rcases List.mem_append.mp ht with hold | hnew
    · exact Or.inl hold
    · refine Or.inr ⟨nofun, ?_⟩
      intro handles hhandles
      have hdraft : row.handles.isSome = false := hfits
      rw [← List.mem_singleton.mp hnew, hhandles] at hdraft
      cases hdraft
  · rw [heq] at ht
    rcases List.mem_map.mp ht with ⟨old, hold, hwritten⟩
    by_cases hid : old.id = id
    · rw [if_pos hid] at hwritten
      refine Or.inr ⟨nofun, ?_⟩
      intro handles hhandles
      have hprovides := hfits.2 old hold hid
      rw [hwritten] at hprovides
      rw [← hwritten] at hhandles ⊢
      cases hhandles
      rw [hwritten]
      refine ⟨?_, hprovides⟩
      rw [hfits.1, ← hwritten, hid]
    · rw [if_neg hid] at hwritten
      rw [← hwritten]
      exact Or.inl hold
  · rw [heq] at ht
    exact Or.inl (List.mem_of_mem_filter ht)

theorem mem_targets_of_perform (hfits : c.Fits config H w) {r : Target}
    (hr : r ∈ (c.perform w).2.store.targets) :
    r ∈ w.store.targets ∨ r.BelongsTo config.naming H r.trigger := by
  rcases c.targets_perform w with heq | ⟨row, rfl, heq⟩ | ⟨id, rfl, heq⟩
  · rw [heq] at hr
    exact Or.inl hr
  · rw [heq] at hr
    rcases List.mem_append.mp hr with hold | hnew
    · exact Or.inl hold
    · rw [List.mem_singleton.mp hnew]
      exact Or.inr hfits
  · rw [heq] at hr
    exact Or.inl (List.mem_of_mem_filter hr)

theorem Sound.perform (h : w.Sound config H) (hc : c.Permitted config H request id w)
    (hknown : H request []) : (c.perform w).2.Sound config H := by
  constructor
  · exact c.integrity_perform h.integrity
  · intro t ht handles hhandles
    rcases mem_triggers_of_perform hc.fits ht with hold | ⟨_, hnew⟩
    · exact h.handles t hold handles hhandles
    · exact (hnew handles hhandles).1
  · intro t ht hprovisioned hdoomed
    rcases mem_triggers_of_perform hc.fits ht with hold | ⟨hkept, hnew⟩
    · -- only the owner's deletion may strip an old row, and then the row is doomed
      apply (h.provided t hold hprovisioned hdoomed).perform id
      intro hstrips
      constructor
      · apply hc.about
        cases c with
        | deleteTopic _ | removeRule _ => exact Or.inr fun honTargets => honTargets
        | _ => cases hstrips
      · intro hid
        have hrequest := hc.spares (Or.inr hstrips) t hold hid hprovisioned
        rw [hrequest] at hknown
        exact hdoomed hknown
    · rcases Option.isSome_iff_exists.mp hprovisioned with ⟨handles, hhandles⟩
      apply (hnew handles hhandles).2.perform id
      exact fun hstrips => absurd hstrips hkept
  · intro r hr
    rcases mem_targets_of_perform hc.fits hr with hold | hnew
    · exact h.targets r hold
    · exact hnew

end World

/-!
# What others can rely on
-/

def Item.IsCore : Item -> Prop
  | .target _ => False
  | .subscription _ => False
  | _ => True

namespace World

def SameCore (naming : ResourceNaming) (id : TriggerId) (w v : World) : Prop :=
  forall item : Item, item.IsCore -> item.owner? naming = some id ->
    (v.Holds item ↔ w.Holds item)

theorem SameServices.holds_iff {w v : World} (h : w.SameServices v) (item : Item) :
    v.Holds item ↔ w.Holds item := by
  cases item with
  | trigger row =>
      show row ∈ v.store.triggers ↔ row ∈ w.store.triggers
      rw [h.store]
  | target row =>
      show row ∈ v.store.targets ↔ row ∈ w.store.targets
      rw [h.store]
  | topic t =>
      show t ∈ v.broker.topics ↔ t ∈ w.broker.topics
      rw [h.topics]
  | subscription s =>
      show s ∈ v.broker.subscriptions ↔ s ∈ w.broker.subscriptions
      rw [h.subscriptions]
  | rule r =>
      show r ∈ v.engine.rules ↔ r ∈ w.engine.rules
      rw [h.engine]

variable {config : Config} {H : History} {request : Request} {id : TriggerId} {c : Call}
  {w : World}

theorem holds_perform_of_onTargets (h : c.OnTargets) {item : Item} (hcore : item.IsCore) :
    (c.perform w).2.Holds item ↔ w.Holds item := by
  cases item with
  | trigger row =>
      show row ∈ (c.perform w).2.store.triggers ↔ row ∈ w.store.triggers
      rcases c.triggers_perform w with heq | ⟨_, rfl, _⟩ | ⟨_, _, rfl, _⟩ | ⟨_, rfl, _⟩
      · rw [heq]
      · cases h
      · cases h
      · cases h
  | topic t =>
      show t ∈ (c.perform w).2.broker.topics ↔ t ∈ w.broker.topics
      rcases c.topics_perform w with heq | ⟨_, rfl, _⟩ | ⟨_, rfl, _⟩
      · rw [heq]
      · cases h
      · cases h
  | rule r =>
      show r ∈ (c.perform w).2.engine.rules ↔ r ∈ w.engine.rules
      rcases c.rules_perform w with heq | ⟨_, _, _, rfl, _⟩ | ⟨_, rfl, _⟩
      · rw [heq]
      · cases h
      · cases h
  | target row => cases hcore
  | subscription s => cases hcore

theorem sameCore_perform (hw : w.Integrity) (hc : c.Permitted config H request id w)
    {other : TriggerId} (hother : other ≠ id) :
    w.SameCore config.naming other (c.perform w).2 := by
  intro item hcore howner
  by_cases honTargets : c.OnTargets
  · exact holds_perform_of_onTargets honTargets hcore
  · have hshare : (c.perform w).2.share config.naming (· == some other) =
        w.share config.naming (· == some other) := by
      apply Call.share_perform _ hw (hc.about (Or.inr honTargets))
      simpa using Ne.symm hother
    have hmine : (item.owner? config.naming == some other) = true := by
      rw [howner, BEq.rfl]
    constructor
    · exact fun hitem => holds_of_share hshare hitem hmine
    · exact fun hitem => holds_of_share hshare.symm hitem hmine

end World

/-!
# The discipline
-/

/-- An operation may ask anything, and change what belongs to the trigger that it has
locked in a permitted way. -/
def order (config : Config) (H : History) : Discipline where
  inv := World.Sound config H
  between st w v := forall id, id ∈ st.locks -> w.SameCore config.naming id v
  allowed request st c w := H request [] ∧
    (c.Reads ∨ exists id, st.locks = [id] ∧ c.Permitted config H request id w)
  drawable := H

theorem lawful_order (config : Config) {H : History}
    (hH : forall {request drawn first}, H request drawn -> first <+: drawn ->
      H request first) :
    (order config H).Lawful where
  inv_same hv hw := World.Sound.same hw hv
  inv_perform := by
    intro request st c w hw h
    rcases h with ⟨hknown, hreads | ⟨id, _, hpermitted⟩⟩
    · rw [hreads.perform_eq]
      exact hw
    · exact hw.perform hpermitted hknown
  between_same hv _ _ item _ _ := hv.holds_iff item
  between_trans _ _ _ _ hv hu id hid item hcore howner :=
    (hu id hid item hcore howner).trans (hv id hid item hcore howner)
  between_perform := by
    intro request st rival c w hw h hapart other hother
    rcases h with ⟨_, hreads | ⟨id, hlocks, hpermitted⟩⟩
    · rw [hreads.perform_eq]
      exact fun item _ _ => Iff.rfl
    · apply World.sameCore_perform hw.integrity hpermitted
      intro heq
      rcases heq with rfl
      apply hapart other _ hother
      rw [hlocks]
      exact List.mem_singleton_self other
  earlier := hH

theorem Governed.reads_or_permitted {config : Config} {H : History}
    {fails : Call -> ServiceError -> Prop} {s : System} {place : Nat} {request : Request}
    {st : Standing} {c : Call}
    {next : Except ServiceError c.Reply -> Saga (Except TriggerError Answer)}
    (h : Governed (order config H) fails s)
    (hplace : s.threads[place]? = some ⟨request, st, some (.call c next)⟩) :
    c.Reads ∨ exists id, st.locks = [id] ∧ c.Permitted config H request id s.world := by
  have hnow : (order config H).between st s.world s.world := fun _ _ _ _ _ => Iff.rfl
  exact (h.meets place request st _ hplace s.world hnow h.inv).1.2

end TelemetryTriggers
