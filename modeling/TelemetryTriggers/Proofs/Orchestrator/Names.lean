import TelemetryTriggers.Proofs.Orchestrator.Discipline
import TelemetryTriggers.Proofs.Saga.Only
import TelemetryTriggers.Proofs.Services.Change

/-!
# Names of resources

Several names can stand for one trigger, since an identifier has several spellings.
An orchestrator creates topics and rules under one of them only, so it knows the
handles of everything that is named after a trigger.

Main definitions: `Call.WellNamed`; `World.Named`, the invariant.  The main statement
is `System.Reachable.named`.
-/

namespace TelemetryTriggers

def Call.WellNamed (naming : ResourceNaming) : Call -> Prop
  | createTopic name => exists id, name = naming.topicName id
  | installRule name _ _ => exists id, name = naming.ruleName id
  | _ => True

structure World.Named (naming : ResourceNaming) (w : World) : Prop where
  topics : forall t, t ∈ w.broker.topics -> exists id, t.name = naming.topicName id
  rules : forall r, r ∈ w.engine.rules -> exists id, r.name = naming.ruleName id

namespace World.Named

variable {naming : ResourceNaming} {w : World}

theorem perform {c : Call} (h : w.Named naming) (hc : c.WellNamed naming) :
    (c.perform w).2.Named naming := by
  constructor
  · intro t ht
    rcases Call.topic_origin ht with hold | ⟨name, rfl, rfl⟩
    · exact h.topics t hold
    · exact hc
  · intro r hr
    rcases Call.rule_origin hr with hold | ⟨name, predicate, topic, rfl, rfl⟩
    · exact h.rules r hold
    · exact hc

theorem topic_handle (h : w.Named naming) (hw : w.Integrity) {t : Topic}
    (ht : t ∈ w.broker.topics) {id : TriggerId}
    (howner : naming.triggerForTopic? t.name = some id) :
    t.handle = naming.topicHandle id := by
  rcases h.topics t ht with ⟨other, hname⟩
  rw [hname, ResourceNaming.triggerForTopic?_topicName] at howner
  rw [hw.broker.named t ht, hname, Option.some.inj howner]
  rfl

theorem rule_handle (h : w.Named naming) (hw : w.Integrity) {r : Rule}
    (hr : r ∈ w.engine.rules) {id : TriggerId}
    (howner : naming.triggerForRule? r.name = some id) :
    r.handle = naming.ruleHandle id := by
  rcases h.rules r hr with ⟨other, hname⟩
  rw [hname, ResourceNaming.triggerForRule?_ruleName] at howner
  rw [hw.engine.named r hr, hname, Option.some.inj howner]
  rfl

end World.Named

/-!
# Operations
-/

section Operations

variable {naming : ResourceNaming} {P : Call -> Prop}

theorem Undo.not_adds (undo : Undo) : ¬ undo.toCall.Adds := by
  cases undo with
  | _ => exact fun h => h

theorem Undo.not_founds (undo : Undo) : ¬ undo.toCall.Founds :=
  fun h => undo.not_adds h.adds

theorem Call.wellNamed_of_not_founds {c : Call} (h : ¬ c.Founds) : c.WellNamed naming := by
  cases c with
  | createTopic _ | installRule _ _ _ => exact absurd trivial h
  | _ => trivial

theorem visibleTrigger_only (hP : forall c, c.Reads -> P c) (user : UserId) (id : TriggerId) :
    Operation.Only P (Lifecycle.visibleTrigger user id) := by
  apply Operation.Only.bind
  · exact .ask (hP _ trivial)
  · exact fun _ => .orFail _ _

theorem getTarget_only (hP : forall c, c.Reads -> P c) (user : UserId) (id : TargetId) :
    Operation.Only P (Lifecycle.getTarget user id) := by
  rw [Lifecycle.getTarget]
  apply Operation.Only.bind
  · exact .ask (hP _ trivial)
  intro row
  apply Operation.Only.bind (.orFail _ _)
  intro target
  apply Operation.Only.bind ((visibleTrigger_only hP user _).adapt _)
  exact fun _ => .pure _

section Additions

variable (hP : forall c, ¬ c.Founds -> P c)

include hP

theorem subscribeTargets_only (id : TriggerId) (topic : TopicHandle)
    (targets : List ValidTarget) (undos : List Undo) :
    Operation.Only P
      (Lifecycle.subscribeTargets id topic targets undos) := by
  induction targets generalizing undos with
  | nil => exact .pure _
  | cons target targets ih =>
      rw [Lifecycle.subscribeTargets]
      apply Operation.Only.bind
      · apply Operation.Only.orUndo
        · exact .ask (hP _ fun h => h)
        · exact fun undo _ => hP _ undo.not_founds
      intro subscription
      apply Operation.Only.bind .fresh
      intro u
      apply Operation.Only.bind
      · apply Operation.Only.orUndo
        · exact .ask (hP _ fun h => h)
        · exact fun undo _ => hP _ undo.not_founds
      intro _
      exact (ih _).bind fun _ => .pure _

theorem addTarget_only (config : Config) (user : UserId) (id : TriggerId)
    (spec : TargetSpec) :
    Operation.Only P (Lifecycle.addTarget config user id spec) := by
  rw [Lifecycle.addTarget]
  apply Operation.Only.bind (.ofExcept _)
  intro target
  apply Operation.Only.detached
  apply Operation.Only.locked
  rw [Lifecycle.addTargetOwned]
  apply Operation.Only.bind (visibleTrigger_only (fun c hc => hP c hc.not_founds) user id)
  intro trigger
  apply Operation.Only.bind (.orFail _ _)
  intro handles
  apply Operation.Only.bind
  · exact .ask (hP _ fun h => h)
  intro targets
  split
  · exact .fail _
  · apply Operation.Only.bind
    · exact .ask (hP _ fun h => h)
    intro subscription
    apply Operation.Only.bind .fresh
    intro u
    apply Operation.Only.bind
    · apply Operation.Only.orUndo
      · exact .ask (hP _ fun h => h)
      · exact fun undo _ => hP _ undo.not_founds
    · exact fun _ => .pure _

end Additions

section Removals

variable (hP : forall c, ¬ c.Adds -> P c)

include hP

theorem removeAll_only {cs : List Call}
    (h : forall c, c ∈ cs -> exists undo : Undo, c = undo.toCall) :
    Operation.Only P (Lifecycle.removeAll cs) := by
  induction cs with
  | nil => exact .pure _
  | cons c cs ih =>
      rcases h c List.mem_cons_self with ⟨undo, rfl⟩
      apply Operation.Only.bind (.ensureGone (hP _ undo.not_adds))
      exact fun _ => ih fun other hother => h other (List.mem_cons_of_mem _ hother)

theorem unsubscribeAll_only (targets : List Target) :
    Operation.Only P (Lifecycle.unsubscribeAll targets) := by
  induction targets with
  | nil => exact .pure _
  | cons target targets ih =>
      apply Operation.Only.bind
      · exact Operation.Only.ofSaga ⟨hP _ fun h => h, fun _ => trivial⟩
      · exact fun _ => ih

theorem deleteRows_only (id : TriggerId) (targets : List Target) :
    Operation.Only P (Lifecycle.deleteRows id targets) := by
  apply removeAll_only hP
  intro c hc
  rcases List.mem_append.mp hc with hrow | hlast
  · rcases List.mem_map.mp hrow with ⟨target, _, rfl⟩
    exact ⟨.deleteTarget target.id, rfl⟩
  · rw [List.mem_singleton.mp hlast]
    exact ⟨.deleteTrigger id, rfl⟩

theorem removeLeftovers_only (id : TriggerId) :
    Operation.Only P (Lifecycle.removeLeftovers naming id) := by
  rw [Lifecycle.removeLeftovers]
  apply Operation.Only.bind
  · exact .ask (hP _ fun h => h)
  intro rules
  apply Operation.Only.bind
  · apply removeAll_only hP
    intro c hc
    rcases List.mem_map.mp hc with ⟨rule, _, rfl⟩
    exact ⟨.removeRule rule.handle, rfl⟩
  intro _
  apply Operation.Only.bind
  · exact .ask (hP _ fun h => h)
  intro topics
  apply removeAll_only hP
  intro c hc
  rcases List.mem_map.mp hc with ⟨topic, _, rfl⟩
  exact ⟨.deleteTopic topic.handle, rfl⟩

theorem delete_only (config : Config) (user : UserId) (id : TriggerId) :
    Operation.Only P (Lifecycle.delete config user id) := by
  apply Operation.Only.detached
  apply Operation.Only.locked
  rw [Lifecycle.deleteOwned]
  apply Operation.Only.bind
  · exact .ask (hP _ fun h => h)
  intro row
  apply Operation.Only.bind (.orFail _ _)
  intro trigger
  apply Operation.Only.bind
  · exact .ask (hP _ fun h => h)
  intro targets
  cases trigger.handles with
  | some handles =>
      apply Operation.Only.bind
      · apply removeAll_only hP
        intro c hc
        rcases List.mem_cons.mp hc with rfl | hc
        · exact ⟨.removeRule handles.rule, rfl⟩
        · rw [List.mem_singleton.mp hc]
          exact ⟨.deleteTopic handles.topic, rfl⟩
      · exact fun _ => deleteRows_only hP id targets
  | none =>
      apply Operation.Only.bind (removeLeftovers_only hP id)
      intro _
      apply Operation.Only.bind (unsubscribeAll_only hP targets)
      exact fun _ => deleteRows_only hP id targets

theorem removeTarget_only (user : UserId) (id : TargetId) :
    Operation.Only P (Lifecycle.removeTarget user id) := by
  rw [Lifecycle.removeTarget]
  apply Operation.Only.bind (getTarget_only (fun c hc => hP c hc.not_adds) user id)
  intro target
  apply Operation.Only.detached
  apply Operation.Only.locked
  rw [Lifecycle.removeTargetOwned]
  apply Operation.Only.bind
  · exact .ask (hP _ fun h => h)
  intro row
  apply Operation.Only.bind (.orFail _ _)
  intro target
  apply Operation.Only.bind (visibleTrigger_only (fun c hc => hP c hc.not_adds) user _)
  intro _
  apply Operation.Only.bind
  · exact .ensureGone (hP _ fun h => h)
  exact fun _ => .ensureGone (hP _ fun h => h)

theorem purgeTargets_only (targets : List Target) :
    Operation.Only P (purgeTargets targets) := by
  induction targets with
  | nil => exact .pure _
  | cons target targets ih =>
      rw [purgeTargets]
      apply Operation.Only.bind
      · exact .ensureGone (hP _ fun h => h)
      intro _
      apply Operation.Only.bind
      · exact .ensureGone (hP _ fun h => h)
      exact fun _ => ih

theorem sweep_only : Operation.Only P (sweep naming) := by
  rw [sweep]
  apply Operation.Only.bind
  · exact .ask (hP _ fun h => h)
  intro rows
  apply Operation.Only.bind
  · apply Operation.Only.ofSaga
    apply only_visitAll fun id => hP (.getTrigger id) fun h => h
    intro c hc
    rcases List.mem_filterMap.mp hc with ⟨row, _, hrow⟩
    unfold Candidate.ofRow? at hrow
    split at hrow
    · cases hrow
    · cases hrow
      apply Operation.Only.bind
      · exact .ask (hP _ fun h => h)
      intro targets
      apply Operation.Only.bind (purgeTargets_only hP targets)
      exact fun _ => .ensureGone (hP (.deleteTrigger row.id) fun h => h)
  intro drafts
  apply Operation.Only.bind
  · exact .ask (hP _ fun h => h)
  intro listedRules
  apply Operation.Only.bind
  · apply Operation.Only.ofSaga
    apply only_visitAll fun id => hP (.getTrigger id) fun h => h
    intro c hc
    rcases List.mem_filterMap.mp hc with ⟨rule, _, hrule⟩
    unfold Candidate.ofRule? at hrule
    split at hrule
    · cases hrule
    · split at hrule
      · cases hrule
      · cases hrule
        exact .ensureGone (hP _ fun h => h)
  intro rules
  apply Operation.Only.bind
  · exact .ask (hP _ fun h => h)
  intro listedTopics
  apply Operation.Only.bind
  · apply Operation.Only.ofSaga
    apply only_visitAll fun id => hP (.getTrigger id) fun h => h
    intro c hc
    rcases List.mem_filterMap.mp hc with ⟨topic, _, htopic⟩
    unfold Candidate.ofTopic? at htopic
    split at htopic
    · cases htopic
    · split at htopic
      · cases htopic
      · cases htopic
        exact .ensureGone (hP _ fun h => h)
  exact fun _ => .pure _

end Removals

/-!
# Calls that found something
-/

theorem provision_only (hP : forall c, ¬ c.Founds -> P c) (draft : Trigger)
    (htopic : P (.createTopic (naming.topicName draft.id)))
    (hrule : forall predicate topic,
      P (.installRule (naming.ruleName draft.id) predicate topic))
    (hhandles : forall handles, P (.setHandles draft.id handles)) (thing : Thing)
    (targets : List ValidTarget) (undos : List Undo) :
    Operation.Only P (Lifecycle.provision naming draft thing targets undos) := by
  rw [Lifecycle.provision]
  apply Operation.Only.bind
  · exact (Operation.Only.ask htopic).orUndo fun undo _ => hP _ undo.not_founds
  intro topic
  apply Operation.Only.bind (subscribeTargets_only hP _ _ _ _)
  intro made
  apply Operation.Only.bind
  · exact (Operation.Only.ofExcept _).orUndo fun undo _ => hP _ undo.not_founds
  intro predicate
  apply Operation.Only.bind
  · exact (Operation.Only.ask (hrule _ _)).orUndo fun undo _ => hP _ undo.not_founds
  intro rule
  apply Operation.Only.bind
  · exact (Operation.Only.ask (hhandles _)).orUndo fun undo _ => hP _ undo.not_founds
  exact fun _ => .pure _

theorem create_wellNamed (config : Config) (request : CreateRequest) :
    Operation.Only (Call.WellNamed config.naming) (Lifecycle.create config request) := by
  rw [Lifecycle.create]
  apply Operation.Only.bind (.ofExcept _)
  intro valid
  apply Operation.Only.detached
  apply Operation.Only.bind .fresh
  intro u
  apply Operation.Only.locked
  rw [Lifecycle.createWithId, Lifecycle.pairedThing]
  apply Operation.Only.bind
  · exact (Operation.Only.ask trivial).bind fun _ => .orFail _ _
  intro thing
  apply Operation.Only.bind (.ask trivial)
  intro _
  apply provision_only (fun _ => Call.wellNamed_of_not_founds)
  · exact ⟨_, rfl⟩
  · exact fun _ _ => ⟨_, rfl⟩
  · exact fun _ => trivial

end Operations

/-!
# Requests
-/

/-- What the request can lead to: questions ask, changes of what exists found nothing, and
a creation names what it founds. -/
def Request.Makes (naming : ResourceNaming) : Request -> Call -> Prop
  | create _, c => c.WellNamed naming
  | delete _ _, c => ¬ c.Founds
  | addTarget _ _ _, c => ¬ c.Founds
  | removeTarget _ _, c => ¬ c.Founds
  | recover, c => ¬ c.Founds
  | _, c => c.Reads

theorem Request.Makes.wellNamed {naming : ResourceNaming} {request : Request} {c : Call}
    (h : request.Makes naming c) : c.WellNamed naming := by
  cases request with
  | create _ => exact h
  | delete _ _ | addTarget _ _ _ | removeTarget _ _ | recover =>
      exact Call.wellNamed_of_not_founds h
  | _ => exact Call.wellNamed_of_not_founds h.not_founds

theorem operation_makes (config : Config) (request : Request) :
    Operation.Only (request.Makes config.naming) (request.operation config) := by
  cases request with
  | create request => exact (create_wellNamed config request).bind fun _ => .pure _
  | delete user id =>
      exact (delete_only (fun _ h hfounds => h (Call.Founds.adds hfounds)) config user id).bind
        fun _ => .pure _
  | addTarget user id spec =>
      exact (addTarget_only (fun _ h => h) config user id spec).bind fun _ => .pure _
  | removeTarget user id =>
      exact (removeTarget_only (fun _ h hfounds => h (Call.Founds.adds hfounds)) user id).bind
        fun _ => .pure _
  | getTrigger user id =>
      apply Operation.Only.bind _ fun _ => .pure _
      apply Operation.Only.bind (visibleTrigger_only (fun _ h => h) user id)
      exact fun _ => (Operation.Only.ask trivial).bind fun _ => .pure _
  | listTriggers user =>
      apply Operation.Only.bind _ fun _ => .pure _
      exact (Operation.Only.ask trivial).bind fun _ => .pure _
  | listTargets user id =>
      apply Operation.Only.bind _ fun _ => .pure _
      exact (visibleTrigger_only (fun _ h => h) user id).bind fun _ => .ask trivial
  | getTarget user id => exact (getTarget_only (fun _ h => h) user id).bind fun _ => .pure _
  | recover =>
      apply Operation.Only.bind _ fun _ => .pure _
      exact (sweep_only fun _ h hfounds => h (Call.Founds.adds hfounds)).detached

def Request.Adds : Request -> Prop
  | create _ => True
  | addTarget _ _ _ => True
  | _ => False

theorem operation_adds (config : Config) (request : Request) (h : ¬ request.Adds) :
    Operation.Only (¬ ·.Adds) (request.operation config) := by
  cases request with
  | create request => exact absurd trivial h
  | addTarget user id spec => exact absurd trivial h
  | delete user id => exact (delete_only (fun _ h => h) config user id).bind fun _ => .pure _
  | removeTarget user id =>
      exact (removeTarget_only (fun _ h => h) user id).bind fun _ => .pure _
  | recover => exact (sweep_only fun _ h => h).detached.bind fun _ => .pure _
  | _ =>
      constructor
      exact (operation_makes config _).run.mono fun c hc => Call.Reads.not_adds hc

/-!
# Systems
-/

theorem Saga.Only.step {α : Type} {P : Call -> Prop} {fails : Call -> ServiceError -> Prop}
    {s s' : Saga α} {st st' : Standing} {w v : World} (h : s.Only P)
    (hstep : s.Step fails st w st' v s') : s'.Only P := by
  cases hstep with
  | call c next => exact h.2 _
  | failure c next st w e he => exact h.2 _
  | acquire id next => exact h true
  | busy id next => exact h false
  | release id next => exact h
  | isHeld id next => exact h _
  | draw next => exact h _
  | detach next => exact h

namespace System

structure WellNamed (naming : ResourceNaming) (s : System) : Prop where
  world : s.world.Named naming
  rest : forall thread, thread ∈ s.threads -> forall work, thread.rest = some work ->
    work.Only (thread.request.Makes naming)

theorem WellNamed.step {config : Config} {fails : Call -> ServiceError -> Prop}
    {s t : System} (h : s.WellNamed config.naming) (hstep : Step config fails s t) :
    t.WellNamed config.naming := by
  cases hstep with
  | start request w threads =>
      refine ⟨h.world, ?_⟩
      intro thread hthread work hwork
      rcases List.mem_append.mp hthread with hold | hnew
      · exact h.rest thread hold work hwork
      · rcases List.mem_singleton.mp hnew with rfl
        cases hwork
        exact (operation_makes config request).run
  | move hmoves =>
      cases hmoves with
      | @move w v threads request st st' work work' hplace hstep =>
          have hwork := h.rest _ (List.mem_of_getElem? hplace) work rfl
          have hnamed : World.Named config.naming v := by
            cases hstep with
            | call c next st w => exact h.world.perform hwork.1.wellNamed
            | _ => exact ⟨h.world.topics, h.world.rules⟩
          refine ⟨hnamed, ?_⟩
          intro thread hthread work'' hrest
          rcases List.mem_or_eq_of_mem_set hthread with hold | rfl
          · exact h.rest thread hold work'' hrest
          · cases hrest
            exact hwork.step hstep
  | @abandon place w threads thread hplace hattached =>
      refine ⟨h.world, ?_⟩
      intro other hother work hwork
      rcases List.mem_or_eq_of_mem_set hother with hold | rfl
      · exact h.rest other hold work hwork
      · cases hwork
  | replan faults w threads => exact ⟨⟨h.world.topics, h.world.rules⟩, h.rest⟩
  | dispatch u w threads =>
      have htopics := (w.sameServices_dispatch u).topics
      refine ⟨⟨?_, h.world.rules⟩, h.rest⟩
      rw [htopics]
      exact h.world.topics
  | restart w threads =>
      refine ⟨⟨h.world.topics, h.world.rules⟩, ?_⟩
      intro thread hthread work hwork
      rcases List.mem_map.mp hthread with ⟨old, _, rfl⟩
      cases hwork

section Reachable

variable {config : Config} {fails : Call -> ServiceError -> Prop} {things : List Thing}
  {ids : IdSource} {s : System}

theorem Reachable.wellNamed (hs : Reachable config fails things ids s) :
    s.WellNamed config.naming := by
  induction hs with
  | start => exact ⟨⟨nofun, nofun⟩, nofun⟩
  | step _ hstep ih => exact ih.step hstep

/-- All that an orchestrator ever creates is named after triggers. -/
theorem Reachable.named (hs : Reachable config fails things ids s) :
    s.world.Named config.naming :=
  hs.wellNamed.world

end Reachable

end System
end TelemetryTriggers
