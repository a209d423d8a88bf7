import TelemetryTriggers.Proofs.Orchestrator.Names
import TelemetryTriggers.Proofs.Orchestrator.Provisioned
import TelemetryTriggers.Proofs.Saga.Calm
import TelemetryTriggers.Proofs.Saga.Undo

/-!
# What a deletion does

A deletion that runs alone removes the rule, the topic and the rows of the targets of
a trigger, and its row at last.  Where it fails it stops, so what it leaves is a part
of what there was, and the row is in place.  It fails only where a call fails: what is
already absent is passed over.

Main definitions: `World.Reduced`; `Lifecycle.Unfinished`, what a deletion leaves that
fails.  The main statement is `Lifecycle.delete_outcome`.
-/

namespace TelemetryTriggers

/-- The second world holds a part of the first one, with all rows of triggers. -/
structure World.Reduced (w v : World) : Prop where
  things : v.store.things = w.store.things
  triggers : v.store.triggers = w.store.triggers
  targets : v.store.targets.Sublist w.store.targets
  topics : v.broker.topics.Sublist w.broker.topics
  subscriptions : v.broker.subscriptions.Sublist w.broker.subscriptions
  rules : v.engine.rules.Sublist w.engine.rules
  deliveries : v.broker.deliveries = w.broker.deliveries
  locks : v.locks = w.locks

namespace World.Reduced

theorem refl (w : World) : w.Reduced w :=
  ⟨rfl, rfl, .refl _, .refl _, .refl _, .refl _, rfl, rfl⟩

theorem trans {w v u : World} (h : w.Reduced v) (h' : v.Reduced u) : w.Reduced u where
  things := h'.things.trans h.things
  triggers := h'.triggers.trans h.triggers
  targets := h'.targets.trans h.targets
  topics := h'.topics.trans h.topics
  subscriptions := h'.subscriptions.trans h.subscriptions
  rules := h'.rules.trans h.rules
  deliveries := h'.deliveries.trans h.deliveries
  locks := h'.locks.trans h.locks

theorem around {w v : World} (h : w.Reduced v) (faults : FaultPlan) :
    w.Reduced { v with faults } :=
  ⟨h.things, h.triggers, h.targets, h.topics, h.subscriptions, h.rules, h.deliveries,
    h.locks⟩

end World.Reduced

/-!
# Removals one after the other

In a setting that allows every call, all that matters of an assertion is that others do
not make it false.
-/

section Removals

variable {S : Setting} {E : TriggerError -> World -> Prop}

theorem Operation.Triple.question {c : Call} {P : World -> Prop} {Q : c.Reply -> World -> Prop}
    (hallowed : forall st w, S.allowed st c w) (value : World -> c.Reply)
    (hvalue : forall w, c.perform w = (.ok (value w), w)) (hP : S.Stable fun _ => P)
    (hE : forall e w, P w -> S.fails c e -> E (c.service.failure e) w)
    (hQ : forall w, P w -> S.inv w -> Q (value w) w) :
    Triple S (fun _ => P) (.ask c) (fun r _ => Q r) fun e _ => E e := by
  apply Triple.ask hP
  · exact fun st w _ _ => hallowed st w
  · exact fun _ w e h he => hE e w h he
  · intro _ w r v h hw hperform
    rw [hvalue w] at hperform
    cases hperform
    exact hQ w h hw
  · intro _ w e v _ _ hperform
    rw [hvalue w] at hperform
    cases hperform

theorem Operation.Triple.removal {c : Call} {P Q : World -> Prop}
    (hallowed : forall st c w, S.allowed st c w)
    (hfails : forall c e, S.fails c e -> e.isAbsence = false) (hP : S.Stable fun _ => P)
    (hE : forall e w, P w -> S.fails c e -> E (c.service.failure e) w)
    (hclears : forall w, P w -> S.inv w -> exists v, c.Clears w v ∧ Q v) :
    Triple S (fun _ => P) (.ensureGone c) (fun _ _ => Q) fun e _ => E e := by
  apply Triple.ensureGone hP
  · exact fun st w _ _ => hallowed st c w
  · intro _ w e h he
    rw [hfails c e he]
    exact hE e w h he
  · intro _ w r v h hw hperform
    rcases hclears w h hw with ⟨u, hcleared, hQ⟩
    rw [← hcleared.perform_eq, hperform] at hQ
    exact hQ
  · intro _ w e v h hw hperform
    rcases hclears w h hw with ⟨u, ⟨r, hr⟩ | ⟨e', habsence, he'⟩, hQ⟩
    · rw [hr] at hperform
      cases hperform
    · rw [he'] at hperform
      cases hperform
      rw [habsence]
      exact hQ

theorem Operation.Triple.removeAll {P : List Call -> World -> Prop}
    (hallowed : forall st c w, S.allowed st c w)
    (hfails : forall c e, S.fails c e -> e.isAbsence = false)
    (hP : forall cs, S.Stable fun _ => P cs)
    (hE : forall c cs e w, P (c :: cs) w -> S.fails c e -> E (c.service.failure e) w)
    (hclears : forall c cs w, P (c :: cs) w -> S.inv w -> exists v, c.Clears w v ∧ P cs v)
    (cs : List Call) :
    Triple S (fun _ => P cs) (Lifecycle.removeAll cs) (fun _ _ => P []) fun e _ => E e := by
  induction cs with
  | nil => exact Triple.pure fun _ _ h => h
  | cons c cs ih =>
      apply Triple.bind (Q := fun _ _ => P cs)
      · exact removal hallowed hfails (hP _) (fun e w => hE c cs e w) (hclears c cs)
      · exact fun _ => ih

end Removals

/-!
# Removals that run alone
-/

section Alone

variable {fails : Call -> ServiceError -> Prop} {E : TriggerError -> World -> Prop}

theorem Operation.Triple.readAlone {c : Call} {P : World -> Prop}
    {Q : c.Reply -> World -> Prop} (value : World -> c.Reply)
    (hvalue : forall w, c.perform w = (.ok (value w), w))
    (hP : forall w p, P w -> P { w with faults := p })
    (hE : forall e w, P w -> fails c e -> E (c.service.failure e) w)
    (hQ : forall w, P w -> w.Integrity -> Q (value w) w) :
    Triple (.alone fails fun _ => True) (fun _ => P) (.ask c) (fun r _ => Q r)
      fun e _ => E e :=
  question (fun _ _ => trivial) value hvalue (Setting.alone_stable fun _ w p h => hP w p h)
    hE hQ

theorem Operation.Triple.removalAlone {c : Call} {P Q : World -> Prop}
    (hfails : forall c e, fails c e -> e.isAbsence = false)
    (hP : forall w p, P w -> P { w with faults := p })
    (hE : forall e w, P w -> fails c e -> E (c.service.failure e) w)
    (hclears : forall w, P w -> w.Integrity -> exists v, c.Clears w v ∧ Q v) :
    Triple (.alone fails fun _ => True) (fun _ => P) (.ensureGone c) (fun _ _ => Q)
      fun e _ => E e :=
  removal (fun _ _ _ => trivial) hfails (Setting.alone_stable fun _ w p h => hP w p h) hE hclears

theorem Operation.Triple.removeAllAlone {P : List Call -> World -> Prop}
    (hfails : forall c e, fails c e -> e.isAbsence = false)
    (hP : forall cs w p, P cs w -> P cs { w with faults := p })
    (hE : forall c cs e w, P (c :: cs) w -> fails c e -> E (c.service.failure e) w)
    (hclears : forall c cs w, P (c :: cs) w -> w.Integrity ->
      exists v, c.Clears w v ∧ P cs v)
    (cs : List Call) :
    Triple (.alone fails fun _ => True) (fun _ => P cs) (Lifecycle.removeAll cs)
      (fun _ _ => P []) fun e _ => E e :=
  removeAll (fun _ _ _ => trivial) hfails
    (fun cs => Setting.alone_stable fun _ w p h => hP cs w p h) hE hclears cs

end Alone

theorem Lifecycle.removeAll_append (cs ds : List Call) :
    removeAll (cs ++ ds) = removeAll cs >>= fun _ => removeAll ds := by
  induction cs with
  | nil => simp only [List.nil_append, removeAll, pure_bind]
  | cons c cs ih => simp only [List.cons_append, removeAll, ih, bind_assoc]

/-!
# Resources
-/

section Resources

variable {naming : ResourceNaming} {id : TriggerId} {w v : World} {cs : List Call}

def CoversRules (naming : ResourceNaming) (id : TriggerId) (cs : List Call) (v : World) :
    Prop :=
  forall r, r ∈ v.engine.rules -> naming.triggerForRule? r.name = some id ->
    .removeRule r.handle ∈ cs

def CoversTopics (naming : ResourceNaming) (id : TriggerId) (cs : List Call) (v : World) :
    Prop :=
  forall t, t ∈ v.broker.topics -> naming.triggerForTopic? t.name = some id ->
    .deleteTopic t.handle ∈ cs

structure Stripping (w : World) (cs : List Call) (v : World) : Prop where
  reduced : w.Reduced v
  store : v.store = w.store
  strips : forall c, c ∈ cs -> c.Strips

theorem Stripping.around {p : FaultPlan} (h : Stripping w cs v) :
    Stripping w cs { v with faults := p } :=
  ⟨h.reduced.around p, h.store, h.strips⟩

theorem CoversRules.reduced {u : World} (h : CoversRules naming id cs v)
    (hu : v.Reduced u) : CoversRules naming id cs u :=
  fun r hr => h r (hu.rules.subset hr)

theorem CoversTopics.reduced {u : World} (h : CoversTopics naming id cs v)
    (hu : v.Reduced u) : CoversTopics naming id cs u :=
  fun t ht => h t (hu.topics.subset ht)

theorem Stripping.step {c : Call} (h : Stripping w (c :: cs) v) (hv : v.Integrity)
    (naming : ResourceNaming) (id : TriggerId) :
    exists u, c.Clears v u ∧ v.Reduced u ∧ Stripping w cs u ∧
      (CoversRules naming id (c :: cs) v -> CoversRules naming id cs u) ∧
      (CoversTopics naming id (c :: cs) v -> CoversTopics naming id cs u) := by
  have hrest : forall d, d ∈ cs -> d.Strips := fun d hd => h.strips d (List.mem_cons_of_mem c hd)
  cases c with
  | removeRule handle =>
      have hu : v.Reduced
          { v with engine := ⟨v.engine.rules.filter (·.handle != handle)⟩ } :=
        ⟨rfl, rfl, .refl _, .refl _, .refl _, List.filter_sublist, rfl, rfl⟩
      refine ⟨_, Call.clears_removeRule handle v, hu,
        ⟨h.reduced.trans hu, h.store, hrest⟩, ?_, ?_⟩
      · intro hcovers r hr howner
        rcases List.mem_filter.mp hr with ⟨hr, hother⟩
        rcases List.mem_cons.mp (hcovers r hr howner) with heq | hmem
        · cases heq
          simp at hother
        · exact hmem
      · intro hcovers t ht howner
        rcases List.mem_cons.mp (hcovers t ht howner) with heq | hmem
        · cases heq
        · exact hmem
  | deleteTopic topic =>
      have hu : v.Reduced { v with broker := { v.broker with
          topics := v.broker.topics.filter (·.handle != topic)
          subscriptions := v.broker.subscriptions.filter (·.topic != topic) } } :=
        ⟨rfl, rfl, .refl _, List.filter_sublist, List.filter_sublist, .refl _, rfl, rfl⟩
      refine ⟨_, Call.clears_deleteTopic hv.broker topic, hu,
        ⟨h.reduced.trans hu, h.store, hrest⟩, ?_, ?_⟩
      · intro hcovers r hr howner
        rcases List.mem_cons.mp (hcovers r hr howner) with heq | hmem
        · cases heq
        · exact hmem
      · intro hcovers t ht howner
        rcases List.mem_filter.mp ht with ⟨ht, hother⟩
        rcases List.mem_cons.mp (hcovers t ht howner) with heq | hmem
        · cases heq
          simp at hother
        · exact hmem
  | _ => exact (h.strips _ List.mem_cons_self).elim

abbrev handleRemovals (naming : ResourceNaming) (id : TriggerId) : List Call :=
  [.removeRule (naming.ruleHandle id), .deleteTopic (naming.topicHandle id)]

abbrev ruleRemovals (naming : ResourceNaming) (id : TriggerId) (rules : List RuleInfo) :
    List Call :=
  (rules.filter fun rule => naming.triggerForRule? rule.name == some id).map fun rule =>
    .removeRule rule.handle

abbrev topicRemovals (naming : ResourceNaming) (id : TriggerId) (topics : List Topic) :
    List Call :=
  (topics.filter fun topic => naming.triggerForTopic? topic.name == some id).map fun topic =>
    .deleteTopic topic.handle

theorem strips_handleRemovals {c : Call} (hc : c ∈ handleRemovals naming id) : c.Strips := by
  rcases List.mem_cons.mp hc with rfl | hc
  · trivial
  · rw [List.mem_singleton.mp hc]
    trivial

theorem strips_ruleRemovals {rules : List RuleInfo} {c : Call}
    (hc : c ∈ ruleRemovals naming id rules) : c.Strips := by
  rcases List.mem_map.mp hc with ⟨rule, _, rfl⟩
  trivial

theorem strips_topicRemovals {topics : List Topic} {c : Call}
    (hc : c ∈ topicRemovals naming id topics) : c.Strips := by
  rcases List.mem_map.mp hc with ⟨topic, _, rfl⟩
  trivial

theorem covers_ruleRemovals (naming : ResourceNaming) (id : TriggerId) (v : World) :
    CoversRules naming id (ruleRemovals naming id v.engine.rulesByName) v := by
  intro r hr howner
  apply List.mem_map.mpr
  refine ⟨RuleEngine.info r, List.mem_filter.mpr ⟨?_, ?_⟩, rfl⟩
  · exact RuleEngine.mem_rulesByName.mpr ⟨r, hr, rfl⟩
  · exact beq_iff_eq.mpr howner

theorem covers_topicRemovals (naming : ResourceNaming) (id : TriggerId) (v : World) :
    CoversTopics naming id (topicRemovals naming id v.broker.topicsByName) v := by
  intro t ht howner
  apply List.mem_map.mpr
  refine ⟨t, List.mem_filter.mpr ⟨Broker.mem_topicsByName.mpr ht, ?_⟩, rfl⟩
  exact beq_iff_eq.mpr howner

theorem covers_handles (hw : w.Integrity) (hnamed : w.Named naming) (id : TriggerId) :
    CoversRules naming id (handleRemovals naming id) w ∧
      CoversTopics naming id (handleRemovals naming id) w := by
  constructor
  · intro r hr howner
    rw [hnamed.rule_handle hw hr howner]
    exact List.mem_cons_self
  · intro t ht howner
    rw [hnamed.topic_handle hw ht howner]
    exact List.mem_cons_of_mem _ List.mem_cons_self

structure Stripped (naming : ResourceNaming) (id : TriggerId) (w v : World) : Prop where
  reduced : w.Reduced v
  rules : CoversRules naming id [] v
  topics : CoversTopics naming id [] v

theorem Stripped.around {p : FaultPlan} (h : Stripped naming id w v) :
    Stripped naming id w { v with faults := p } :=
  ⟨h.reduced.around p, h.rules, h.topics⟩

theorem Stripped.mono {u : World} (h : Stripped naming id w v) (hu : v.Reduced u) :
    Stripped naming id w u :=
  ⟨h.reduced.trans hu, h.rules.reduced hu, h.topics.reduced hu⟩

end Resources

namespace Lifecycle

/-- What a deletion leaves that fails.  If the rule of a provisioned trigger cannot be
removed, nothing has changed, and if its topic cannot be deleted, no row has. -/
structure Unfinished (provisioned : Bool) (w : World) (e : TriggerError) (v : World) :
    Prop where
  reduced : w.Reduced v
  rule : provisioned = true -> forall cause, e = .ruleEngine cause -> w.SameServices v
  topic : provisioned = true -> forall cause, e = .broker cause -> v.store = w.store

def Unchanged (w v : World) : Prop :=
  exists p, v = { w with faults := p }

theorem Unchanged.around {w v : World} {p : FaultPlan} (h : Unchanged w v) :
    Unchanged w { v with faults := p } := by
  rcases h with ⟨q, rfl⟩
  exact ⟨p, rfl⟩

theorem Unchanged.unfinished {w v : World} (h : Unchanged w v) (provisioned : Bool)
    (e : TriggerError) : Unfinished provisioned w e v := by
  rcases h with ⟨p, rfl⟩
  exact ⟨(World.Reduced.refl w).around p, fun _ _ _ => ⟨rfl, rfl, rfl, rfl⟩, fun _ _ _ => rfl⟩

theorem unfinished_of_store {provisioned : Bool} {w v : World} {cause : ServiceError}
    (h : w.Reduced v) : Unfinished provisioned w (.store cause) v :=
  ⟨h, fun _ _ heq => (nomatch heq), fun _ _ heq => (nomatch heq)⟩

theorem unfinished_of_draft {w v : World} {e : TriggerError} (h : w.Reduced v) :
    Unfinished false w e v :=
  ⟨h, fun hprovisioned => (nomatch hprovisioned), fun hprovisioned => (nomatch hprovisioned)⟩

section Outcome

variable {fails : Call -> ServiceError -> Prop} {naming : ResourceNaming} {id : TriggerId}
  {w : World}

def Stuck (fails : Call -> ServiceError -> Prop) (provisioned : Bool) (w : World)
    (e : TriggerError) (v : World) : Prop :=
  (exists c cause, fails c cause) ∧ Unfinished provisioned w e v

theorem removeResources_stripped (hfails : forall c e, fails c e -> e.isAbsence = false)
    (hw : w.Integrity) (hnamed : w.Named naming) :
    Operation.Triple (.alone fails fun _ => True) (fun _ => Unchanged w)
      (removeResources (naming.handles id))
      (fun _ _ v => Stripped naming id w v ∧ v.store = w.store)
      fun e _ => Stuck fails true w e := by
  rcases covers_handles hw hnamed id with ⟨hrules, htopics⟩
  apply Operation.Triple.bind (Q := fun _ _ v =>
    Stripping w [.deleteTopic (naming.topicHandle id)] v ∧
      CoversRules naming id [.deleteTopic (naming.topicHandle id)] v ∧
      CoversTopics naming id [.deleteTopic (naming.topicHandle id)] v)
  · apply Operation.Triple.removalAlone hfails
    · exact fun v p h => h.around
    · exact fun e v h he => ⟨⟨_, _, he⟩, h.unfinished true _⟩
    · intro v h hv
      rcases h with ⟨p, rfl⟩
      have hstart : Stripping w (handleRemovals naming id) { w with faults := p } :=
        ⟨(World.Reduced.refl w).around p, rfl, fun _ => strips_handleRemovals⟩
      rcases hstart.step hv naming id with ⟨u, hcleared, _, hu, hrules', htopics'⟩
      exact ⟨u, hcleared, hu, hrules' hrules, htopics' htopics⟩
  · intro _
    apply Operation.Triple.bind (Q := fun _ _ v => Stripped naming id w v ∧ v.store = w.store)
    · apply Operation.Triple.removalAlone hfails
      · exact fun v p h => ⟨h.1.around, h.2⟩
      · intro e v h he
        refine ⟨⟨_, _, he⟩, h.1.reduced, ?_, fun _ _ _ => h.1.store⟩
        exact fun _ _ heq => nomatch heq
      · intro v h hv
        rcases h.1.step hv naming id with ⟨u, hcleared, _, hu, hrules', htopics'⟩
        exact ⟨u, hcleared, ⟨hu.reduced, hrules' h.2.1, htopics' h.2.2⟩, hu.store⟩
    · exact fun _ => Operation.Triple.pure fun _ _ h => h

theorem removeLeftovers_stripped (hfails : forall c e, fails c e -> e.isAbsence = false) :
    Operation.Triple (.alone fails fun _ => True) (fun _ => Unchanged w)
      (removeLeftovers naming id)
      (fun _ _ v => Stripped naming id w v ∧ v.store = w.store)
      fun e _ => Stuck fails false w e := by
  rw [removeLeftovers]
  apply Operation.Triple.bind (Q := fun (rules : List RuleInfo) _ v =>
    Stripping w (ruleRemovals naming id rules) v ∧
      CoversRules naming id (ruleRemovals naming id rules) v)
  · apply Operation.Triple.readAlone (c := .listRules) (fun v => v.engine.rulesByName)
    · exact fun v => rfl
    · exact fun v p h => h.around
    · exact fun e v h he => ⟨⟨_, _, he⟩, h.unfinished false _⟩
    · intro v h _
      rcases h with ⟨p, rfl⟩
      refine ⟨⟨(World.Reduced.refl w).around p, rfl, fun _ => strips_ruleRemovals⟩, ?_⟩
      exact covers_ruleRemovals naming id w
  intro rules
  apply Operation.Triple.bind (Q := fun _ _ v => Stripping w [] v ∧ CoversRules naming id [] v)
  · apply Operation.Triple.removeAllAlone (P := fun cs v =>
      Stripping w cs v ∧ CoversRules naming id cs v) hfails
    · exact fun cs v p h => ⟨h.1.around, h.2⟩
    · exact fun c cs e v h he => ⟨⟨_, _, he⟩, unfinished_of_draft h.1.reduced⟩
    · intro c cs v h hv
      rcases h.1.step hv naming id with ⟨u, hcleared, _, hu, hrules', _⟩
      exact ⟨u, hcleared, hu, hrules' h.2⟩
  intro _
  apply Operation.Triple.bind (Q := fun (topics : List Topic) _ v =>
    (Stripping w (topicRemovals naming id topics) v ∧
      CoversTopics naming id (topicRemovals naming id topics) v) ∧ CoversRules naming id [] v)
  · apply Operation.Triple.readAlone (c := .listTopics) (fun v => v.broker.topicsByName)
    · exact fun v => rfl
    · exact fun v p h => ⟨h.1.around, h.2⟩
    · exact fun e v h he => ⟨⟨_, _, he⟩, unfinished_of_draft h.1.reduced⟩
    · intro v h _
      refine ⟨⟨⟨h.1.reduced, h.1.store, fun _ => strips_topicRemovals⟩, ?_⟩, h.2⟩
      exact covers_topicRemovals naming id v
  intro topics
  apply Operation.Triple.post (Q := fun _ _ v =>
    (Stripping w [] v ∧ CoversTopics naming id [] v) ∧ CoversRules naming id [] v)
  · apply Operation.Triple.removeAllAlone (P := fun cs v =>
      (Stripping w cs v ∧ CoversTopics naming id cs v) ∧ CoversRules naming id [] v) hfails
    · exact fun cs v p h => ⟨⟨h.1.1.around, h.1.2⟩, h.2⟩
    · exact fun c cs e v h he => ⟨⟨_, _, he⟩, unfinished_of_draft h.1.1.reduced⟩
    · intro c cs v h hv
      rcases h.1.1.step hv naming id with ⟨u, hcleared, hreduced, hu, _, htopics'⟩
      exact ⟨u, hcleared, ⟨hu, htopics' h.1.2⟩, h.2.reduced hreduced⟩
  · exact fun _ _ v h => ⟨⟨h.1.1.reduced, h.2, h.1.2⟩, h.1.1.store⟩

/-- The subscriptions of a draft's targets went with its topic, so it does not matter
what becomes of their removals. -/
theorem unsubscribeAll_stripped (targets : List Target) :
    Operation.Triple (.alone fails fun _ => True)
      (fun _ v => Stripped naming id w v ∧ v.store = w.store) (unsubscribeAll targets)
      (fun _ _ v => Stripped naming id w v ∧ v.store = w.store)
      fun e _ => Stuck fails false w e := by
  induction targets with
  | nil => exact Operation.Triple.pure fun _ _ h => h
  | cons target targets ih =>
      apply Operation.Triple.bind (Q := fun _ _ v => Stripped naming id w v ∧ v.store = w.store)
      · apply Operation.Triple.ofSaga
        intro st v h u hu _
        rcases hu with ⟨p, rfl⟩
        refine ⟨trivial, fun e _ => ⟨h.1.around, h.2⟩, ?_⟩
        show Stripped naming id w ((Call.unsubscribe target.subscription).perform _).2 ∧ _
        rw [(Call.clears_unsubscribe target.subscription _).perform_eq]
        refine ⟨(h.1.around (p := p)).mono ?_, h.2⟩
        exact ⟨rfl, rfl, .refl _, .refl _, List.filter_sublist, .refl _, rfl, rfl⟩
      · exact fun _ => ih

structure Clearing (naming : ResourceNaming) (id : TriggerId) (w : World) (cs : List Call)
    (v : World) : Prop where
  stripped : Stripped naming id w v
  deletes : forall c, c ∈ cs -> exists target, c = .deleteTarget target
  covers : forall r, r ∈ v.store.targets -> r.trigger = id -> .deleteTarget r.id ∈ cs

theorem Clearing.step {c : Call} {cs : List Call} {v : World}
    (h : Clearing naming id w (c :: cs) v) :
    exists u, c.Clears v u ∧ Clearing naming id w cs u := by
  rcases h.deletes c List.mem_cons_self with ⟨target, rfl⟩
  refine ⟨_, Call.clears_deleteTarget target v, h.stripped.mono ?_, ?_, ?_⟩
  · exact ⟨rfl, rfl, List.filter_sublist, .refl _, .refl _, .refl _, rfl, rfl⟩
  · exact fun d hd => h.deletes d (List.mem_cons_of_mem _ hd)
  · intro r hr htrigger
    rcases List.mem_filter.mp hr with ⟨hr, hother⟩
    rcases List.mem_cons.mp (h.covers r hr htrigger) with heq | hmem
    · cases heq
      simp at hother
    · exact hmem

theorem deleteRows_fresh (hfails : forall c e, fails c e -> e.isAbsence = false)
    (provisioned : Bool) :
    Operation.Triple (.alone fails fun _ => True)
      (fun _ v => Stripped naming id w v ∧ v.store = w.store)
      (deleteRows id (w.store.targetsOf id))
      (fun _ _ v => v.Fresh naming id ∧ v.locks = w.locks)
      fun e _ => Stuck fails provisioned w e := by
  rw [deleteRows, removeAll_append]
  apply Operation.Triple.bind (Q := fun _ _ => Clearing naming id w [])
  · apply Operation.Triple.pre
    · apply Operation.Triple.removeAllAlone (P := Clearing naming id w) hfails
      · exact fun cs v p h => ⟨h.stripped.around, h.deletes, h.covers⟩
      · intro c cs e v h he
        rcases h.deletes c List.mem_cons_self with ⟨target, rfl⟩
        exact ⟨⟨_, _, he⟩, unfinished_of_store h.stripped.reduced⟩
      · exact fun c cs v h _ => h.step
    · intro _ v h
      refine ⟨h.1, ?_, ?_⟩
      · intro c hc
        rcases List.mem_map.mp hc with ⟨r, _, rfl⟩
        exact ⟨r.id, rfl⟩
      · intro r hr htrigger
        rw [h.2] at hr
        exact List.mem_map.mpr ⟨r, Store.mem_targetsOf.mpr ⟨hr, htrigger⟩, rfl⟩
  · intro _
    apply Operation.Triple.bind (Q := fun _ _ v => v.Fresh naming id ∧ v.locks = w.locks)
    · apply Operation.Triple.removalAlone hfails
      · exact fun v p h => ⟨h.stripped.around, h.deletes, h.covers⟩
      · exact fun e v h he => ⟨⟨_, _, he⟩, unfinished_of_store h.stripped.reduced⟩
      · intro v h _
        have hnone : forall r, r ∈ v.store.targets -> r.trigger ≠ id :=
          fun r hr htrigger => nomatch h.covers r hr htrigger
        refine ⟨_, Call.clears_deleteTrigger hnone, ⟨?_, ?_, ?_⟩, h.stripped.reduced.locks⟩
        · exact fun t ht => by simpa using (List.mem_filter.mp ht).2
        · exact fun t ht howner => nomatch h.stripped.topics t ht howner
        · exact fun r hr howner => nomatch h.stripped.rules r hr howner
    · exact fun _ => Operation.Triple.pure fun _ _ h => h

theorem deleteOwned_fresh (hfails : forall c e, fails c e -> e.isAbsence = false)
    (hw : w.Integrity) (hnamed : w.Named naming) {t : Trigger} (ht : t ∈ w.store.triggers)
    (hhandles : forall handles, t.handles = some handles -> handles = naming.handles t.id) :
    Operation.Triple (.alone fails fun _ => True) (fun _ => Unchanged w)
      (deleteOwned naming t.user t.id)
      (fun _ _ v => v.Fresh naming t.id ∧ v.locks = w.locks)
      fun e _ => Stuck fails t.isProvisioned w e := by
  have hread : Operation.Triple (.alone fails fun _ => True) (fun _ => Unchanged w)
      (.ask (.getTrigger t.id)) (fun (row : Option Trigger) _ v =>
        Unchanged w v ∧ row = some t)
      fun e _ => Stuck fails t.isProvisioned w e := by
    apply Operation.Triple.readAlone (c := .getTrigger t.id) (fun v => v.store.trigger? t.id)
    · exact fun v => rfl
    · exact fun v p h => h.around
    · exact fun e v h he => ⟨⟨_, _, he⟩, h.unfinished _ _⟩
    · intro v h _
      refine ⟨h, ?_⟩
      rcases h with ⟨p, rfl⟩
      exact hw.store.trigger?_eq_some ht
  have htargets : Operation.Triple (.alone fails fun _ => True) (fun _ => Unchanged w)
      (.ask (.listTargets t.id)) (fun (targets : List Target) _ v =>
        Unchanged w v ∧ targets = w.store.targetsOf t.id)
      fun e _ => Stuck fails t.isProvisioned w e := by
    apply Operation.Triple.readAlone (c := .listTargets t.id) (fun v => v.store.targetsOf t.id)
    · exact fun v => rfl
    · exact fun v p h => h.around
    · exact fun e v h he => ⟨⟨_, _, he⟩, h.unfinished _ _⟩
    · intro v h _
      refine ⟨h, ?_⟩
      rcases h with ⟨p, rfl⟩
      rfl
  have hmine : Option.filter (fun row : Trigger => row.user == t.user) (some t) = some t := by
    simp [Option.filter]
  rw [deleteOwned]
  apply Operation.Triple.bind_given hread
  intro row hrow
  rw [hrow, hmine]
  apply Operation.Triple.bind_given htargets
  intro targets heq
  rcases heq with rfl
  cases hprovisioned : t.handles with
  | some handles =>
      have hsome : t.isProvisioned = true := by
        rw [Trigger.isProvisioned, hprovisioned]
        rfl
      rw [hsome, hhandles handles hprovisioned]
      apply Operation.Triple.bind (removeResources_stripped hfails hw hnamed)
      exact fun _ => deleteRows_fresh hfails true
  | none =>
      have hnone : t.isProvisioned = false := by
        rw [Trigger.isProvisioned, hprovisioned]
        rfl
      rw [hnone]
      apply Operation.Triple.bind (removeLeftovers_stripped hfails)
      intro _
      apply Operation.Triple.bind (unsubscribeAll_stripped _)
      exact fun _ => deleteRows_fresh hfails false

end Outcome

/-!
# Deletions that run alone
-/

theorem run_locked_of_free {α : Type} {op : Operation α} {id : TriggerId} {w u : World}
    {deadline : Nat} {r : Except TriggerError α} (hfree : w.locks.isHeld id = false)
    (hop : op.run.run deadline { w with locks := ⟨id :: w.locks.held⟩ } = (r, u)) :
    (Operation.locked id op).run.run deadline w =
      (r, { u with locks := u.locks.release id }) := by
  have hacquire : w.locks.acquire? id = some ⟨id :: w.locks.held⟩ := by
    rw [LockTable.acquire?, hfree]
    rfl
  show Saga.run deadline (.acquire id _) w = _
  simp only [Saga.run, hacquire, if_true]
  refine (Saga.run_bind deadline op.run _ _).trans ?_
  rw [hop]
  rfl

/-- A deletion by the owner of a trigger that nobody is working on leaves nothing of the
trigger, or a call fails and it is unfinished. -/
theorem delete_outcome {config : Config} {fails : Call -> ServiceError -> Prop} {w : World}
    (hfails : forall c e, fails c e -> e.isAbsence = false)
    (hplan : w.faults.Within fails config.callTimeout) (hw : w.Integrity)
    (hnamed : w.Named config.naming) {t : Trigger} (ht : t ∈ w.store.triggers)
    (hhandles : forall handles, t.handles = some handles ->
      handles = config.naming.handles t.id)
    (hfree : w.locks.isHeld t.id = false) :
    exists r v, (delete config t.user t.id).run.run config.callTimeout w = (r, v) ∧
      v.Integrity ∧
      ((r = .ok () ∧ v.Fresh config.naming t.id ∧ v.locks = w.locks) ∨
        exists e, r = .error e ∧ Stuck fails t.isProvisioned w e v) := by
  have hheld : World.Integrity { w with locks := ⟨t.id :: w.locks.held⟩ } :=
    ⟨hw.store, hw.broker, hw.engine⟩
  have hmeets := (deleteOwned_fresh (w := { w with locks := ⟨t.id :: w.locks.held⟩ }) hfails
    hheld ⟨hnamed.topics, hnamed.rules⟩ ht hhandles).meets ⟨[], [], false⟩ _ ⟨w.faults, rfl⟩
  rcases hmeets.run hheld hplan with ⟨hend, st, hpost⟩
  have hrelease := LockTable.release_cons hfree
  cases hop : (deleteOwned config.naming t.user t.id).run.run config.callTimeout
      { w with locks := ⟨t.id :: w.locks.held⟩ } with
  | mk r u =>
      rw [hop] at hend hpost
      refine ⟨r, _, run_locked_of_free hfree hop, ⟨hend.store, hend.broker, hend.engine⟩, ?_⟩
      cases r with
      | ok a =>
          rcases hpost with ⟨hfresh, hlocks⟩
          have hlocks : u.locks = ⟨t.id :: w.locks.held⟩ := hlocks
          refine Or.inl ⟨rfl, ⟨hfresh.row, hfresh.topic, hfresh.rule⟩, ?_⟩
          rw [hlocks]
          exact hrelease
      | error e =>
          rcases hpost with ⟨hfailed, hreduced, hrule, htopic⟩
          have hlocks : u.locks = ⟨t.id :: w.locks.held⟩ := hreduced.locks
          refine Or.inr ⟨e, rfl, hfailed, ?_, ?_, htopic⟩
          · refine ⟨hreduced.things, hreduced.triggers, hreduced.targets, hreduced.topics,
              hreduced.subscriptions, hreduced.rules, hreduced.deliveries, ?_⟩
            rw [hlocks]
            exact hrelease
          · intro hprovisioned cause heq
            have hsame := hrule hprovisioned cause heq
            exact ⟨hsame.store, hsame.topics, hsame.subscriptions, hsame.engine⟩

end Lifecycle
end TelemetryTriggers
