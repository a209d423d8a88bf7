import TelemetryTriggers.Proofs.Orchestrator.Confined
import TelemetryTriggers.Proofs.Orchestrator.Operations

/-!
# Work that keeps to one trigger

What an operation does under the lock of a trigger consists of confined calls, as long
as the answers are ones that services whose things have their triggers can give.

Main definition: `Saga.Confined`.  The lemmas after it are one for each way in which
operations are put together, and then one for each operation.
-/

namespace TelemetryTriggers

namespace Saga

/-- The calls of the saga are confined to the trigger and it uses no more of an answer
than what is about the trigger.  It can insert the targets that it owns and those that
it draws, each once, and draws only if it may. -/
def Confined {α : Type} (naming : ResourceNaming) (H : History) (id : TriggerId)
    (draws : Prop) (Q : α -> Prop) : List Uuid -> Saga α -> Prop
  | _, .done a => Q a
  | own, .call c next =>
      c.Confined naming H id own ∧
        (forall r, next (.ok (c.view naming id r)) = next (.ok r)) ∧
          forall w, w.Assigned naming H ->
            (next (c.perform w).1).Confined naming H id draws Q (c.spend own)
  | own, .draw next =>
      draws ∧ forall u, H.Issued id u -> (next u).Confined naming H id draws Q (u :: own)
  | _, _ => False

variable {α β : Type} {naming : ResourceNaming} {H : History} {id : TriggerId} {draws : Prop}
  {Q : α -> Prop} {R : β -> Prop} {own own' : List Uuid} {s : Saga α}

theorem Confined.mono (h : s.Confined naming H id draws Q own) (hown : own ⊆ own') :
    s.Confined naming H id draws Q own' := by
  induction s generalizing own own' with
  | done a => exact h
  | call c next ih =>
      refine ⟨h.1.mono hown, h.2.1, fun w hw => ?_⟩
      exact ih _ (h.2.2 w hw) (c.spend_mono hown)
  | draw next ih =>
      refine ⟨h.1, fun u hu => ?_⟩
      exact ih u (h.2 u hu) (List.cons_subset_cons u hown)
  | acquire id next | release id next | isHeld id next | detach next => exact h.elim

theorem Confined.bind {f : α -> Saga β} (h : s.Confined naming H id draws Q own)
    (hf : forall a, Q a -> (f a).Confined naming H id draws R []) :
    (s.bind f).Confined naming H id draws R own := by
  induction s generalizing own with
  | done a => exact (hf a h).mono (List.nil_subset own)
  | call c next ih =>
      refine ⟨h.1, fun r => congrArg (Saga.bind · f) (h.2.1 r), fun w hw => ?_⟩
      exact ih _ (h.2.2 w hw)
  | draw next ih => exact ⟨h.1, fun u hu => ih u (h.2 u hu)⟩
  | acquire id next | release id next | isHeld id next | detach next => exact h.elim

theorem Confined.post {R : α -> Prop} (h : s.Confined naming H id draws Q own)
    (hR : forall a, Q a -> R a) : s.Confined naming H id draws R own := by
  rw [← s.bind_done]
  exact h.bind hR

end Saga

/-!
# Operations
-/

namespace Operation

structure Confined {α : Type} (naming : ResourceNaming) (H : History) (id : TriggerId)
    (draws : Prop) (own : List Uuid) (Q : α -> Prop) (op : Operation α) : Prop where
  run : Saga.Confined naming H id draws (fun r => forall a, r = .ok a -> Q a) own op.run

namespace Confined

variable {α β : Type} {naming : ResourceNaming} {H : History} {id : TriggerId} {draws : Prop}
  {Q : α -> Prop} {R : β -> Prop} {own : List Uuid} {op : Operation α} {f : α -> Operation β}
  {c : Call}

theorem pure {a : α} (h : Q a) : Confined naming H id draws own Q (Pure.pure a) := by
  constructor
  intro b hb
  cases hb
  exact h

theorem fail (e : TriggerError) : Confined naming H id draws own Q (Operation.fail e) :=
  ⟨nofun⟩

theorem ofExcept {result : Except TriggerError α} (h : forall a, result = .ok a -> Q a) :
    Confined naming H id draws own Q (Operation.ofExcept result) :=
  ⟨h⟩

theorem orFail {value : Option α} (e : TriggerError) (h : forall a, value = some a -> Q a) :
    Confined naming H id draws own Q (Operation.orFail value e) := by
  cases value with
  | some a => exact pure (h a rfl)
  | none => exact fail e

theorem bind (h : Confined naming H id draws own Q op)
    (hf : forall a, Q a -> Confined naming H id draws [] R (f a)) :
    Confined naming H id draws own R (op >>= f) := by
  constructor
  apply h.run.bind
  intro r hr
  cases r with
  | ok a => exact (hf a (hr a rfl)).run
  | error e => exact nofun

theorem ask_bind {f : c.Reply -> Operation β} (hc : c.Confined naming H id own)
    (hview : forall r, f (c.view naming id r) = f r)
    (hf : forall w r, w.Assigned naming H -> (c.perform w).1 = .ok r ->
      Confined naming H id draws (c.spend own) R (f r)) :
    Confined naming H id draws own R (Operation.ask c >>= f) := by
  refine ⟨hc, fun r => congrArg ExceptT.run (hview r), fun w hw => ?_⟩
  cases hreply : (c.perform w).1 with
  | ok r => exact (hf w r hw hreply).run
  | error e => exact nofun

theorem ask {Q : c.Reply -> Prop} (hc : c.Confined naming H id own)
    (hview : forall r, c.view naming id r = r)
    (hQ : forall w r, w.Assigned naming H -> (c.perform w).1 = .ok r -> Q r) :
    Confined naming H id draws own Q (Operation.ask c) := by
  rw [← bind_pure (Operation.ask c)]
  apply ask_bind hc
  · exact fun r => congrArg Pure.pure (hview r)
  · exact fun w r hw hreply => pure (hQ w r hw hreply)

theorem call (c : Call) (hc : c.Confined naming H id own)
    (hview : forall r, c.view naming id r = r) :
    Confined naming H id draws own (fun _ => True) (Operation.ask c) :=
  ask hc hview fun _ _ _ _ => trivial

theorem ensureGone (c : Call) (hc : c.Confined naming H id own)
    (hview : forall r, c.view naming id r = r) :
    Confined naming H id draws own (fun _ => True) (Operation.ensureGone c) := by
  refine ⟨hc, fun r => by rw [hview r], fun w _ => ?_⟩
  cases (c.perform w).1 with
  | ok r => exact fun _ _ => trivial
  | error e =>
      cases hgone : e.isAbsence with
      | true => simp only [hgone, if_true, Saga.Confined, implies_true]
      | false => simp only [hgone, Bool.false_eq_true, if_false, Saga.Confined, implies_true]

theorem fresh_bind {f : Uuid -> Operation β} (hdraws : draws)
    (hf : forall u, H.Issued id u -> Confined naming H id draws (u :: own) R (f u)) :
    Confined naming H id draws own R (Operation.fresh >>= f) :=
  ⟨hdraws, fun u hu => (hf u hu).run⟩

theorem ofSaga {s : Saga α} (h : s.Confined naming H id draws Q own) :
    Confined naming H id draws own Q (Operation.ofSaga s) := by
  constructor
  apply h.bind
  intro a ha b hb
  cases hb
  exact ha

end Confined
end Operation

/-!
# Taking back
-/

section Undos

variable {α : Type} {naming : ResourceNaming} {H : History} {id : TriggerId} {draws : Prop}
  {own : List Uuid}

theorem Undo.view_toCall (undo : Undo) (r : undo.toCall.Reply) :
    undo.toCall.view naming id r = r := by
  cases undo with
  | _ => rfl

theorem confined_unwind {undos : List Undo}
    (h : forall undo, undo ∈ undos -> undo.toCall.Confined naming H id []) :
    (unwind undos).Confined naming H id draws (fun _ => True) [] := by
  induction undos with
  | nil => trivial
  | cons undo undos ih =>
      have hrest := ih fun other hother => h other (List.mem_cons_of_mem undo hother)
      refine ⟨h undo List.mem_cons_self, fun r => by rw [undo.view_toCall r], fun w _ => ?_⟩
      apply Saga.Confined.mono _ (List.nil_subset _)
      apply hrest.bind
      exact fun _ _ => trivial

theorem Operation.Confined.orUndo {Q : α -> Prop} {op : Operation α} {undos : List Undo}
    (hop : Confined naming H id draws own Q op)
    (hundos : forall undo, undo ∈ undos -> undo.toCall.Confined naming H id []) :
    Confined naming H id draws own Q (op.orUndo undos) := by
  constructor
  apply hop.run.bind
  intro r hr
  cases r with
  | ok a => exact hr
  | error e => exact (confined_unwind hundos).bind fun _ _ => nofun

theorem forall_cons_undo (undo : Undo) {undos : List Undo}
    (hundo : undo.toCall.Confined naming H id [])
    (h : forall undo, undo ∈ undos -> undo.toCall.Confined naming H id []) :
    forall other, other ∈ undo :: undos -> other.toCall.Confined naming H id [] := by
  intro other hother
  rcases List.mem_cons.mp hother with rfl | hold
  · exact hundo
  · exact h other hold

theorem removeAll_confined {cs : List Call}
    (h : forall c, c ∈ cs ->
      exists undo : Undo, c = undo.toCall ∧ undo.toCall.Confined naming H id []) :
    Operation.Confined naming H id draws [] (fun _ => True) (Lifecycle.removeAll cs) := by
  induction cs with
  | nil => exact .pure trivial
  | cons c cs ih =>
      rcases h c List.mem_cons_self with ⟨undo, rfl, hundo⟩
      apply Operation.Confined.bind (.ensureGone _ hundo undo.view_toCall)
      exact fun _ _ => ih fun other hother => h other (List.mem_cons_of_mem _ hother)

end Undos

/-!
# Reading under the lock
-/

section Reading

variable {naming : ResourceNaming} {H : History} {id : TriggerId} {draws : Prop}

theorem World.Assigned.found {w : World} (hw : w.Assigned naming H) {t : Trigger}
    (ht : w.store.trigger? id = some t) : t.Found naming id := by
  rcases Store.trigger?_eq_some ht with ⟨hmem, rfl⟩
  exact ⟨rfl, hw.handles t hmem⟩

theorem getTrigger_confined :
    Operation.Confined naming H id draws []
      (fun row : Option Trigger => forall t, row = some t -> t.Found naming id)
      (Operation.ask (.getTrigger id)) := by
  apply Operation.Confined.ask (c := .getTrigger id) rfl fun _ => rfl
  intro w row hw hrow t ht
  cases hrow
  exact hw.found ht

theorem listTargets_confined :
    Operation.Confined naming H id draws []
      (fun rows : List Target => forall r, r ∈ rows -> r.BelongsTo naming H id)
      (Operation.ask (.listTargets id)) := by
  apply Operation.Confined.ask (c := .listTargets id) rfl fun _ => rfl
  intro w rows hw hrows r hr
  cases hrows
  rcases Store.mem_targetsOf.mp hr with ⟨hmem, rfl⟩
  exact hw.targets r hmem

theorem getTarget_confined (hH : H.Distinct) {target : TargetId}
    (hissued : H.Issued id target.uuid) :
    Operation.Confined naming H id draws []
      (fun row : Option Target => forall r, row = some r ->
        r.trigger = id ∧ r.BelongsTo naming H id)
      (Operation.ask (.getTarget target)) := by
  apply Operation.Confined.ask (c := .getTarget target) hissued fun _ => rfl
  intro w row hw hrow r hr
  cases hrow
  rcases Store.target?_eq_some hr with ⟨hmem, rfl⟩
  have htrigger := hw.trigger_of_issued hH hmem hissued
  have hbelongs := hw.targets r hmem
  rw [htrigger] at hbelongs
  exact ⟨htrigger, hbelongs⟩

theorem visibleTrigger_confined (user : UserId) :
    Operation.Confined naming H id draws [] (·.Found naming id)
      (Lifecycle.visibleTrigger user id) := by
  rw [Lifecycle.visibleTrigger]
  apply Operation.Confined.bind getTrigger_confined
  intro row hrow
  apply Operation.Confined.orFail
  exact fun t ht => hrow t (Option.filter_eq_some_iff.mp ht).1

end Reading

/-!
# Creation
-/

section Create

variable {naming : ResourceNaming} {H : History} {id : TriggerId} {draws : Prop}
  {undos : List Undo}

theorem insertTarget_confined {u suffix : Uuid} (hu : H.Issued id u) (kind : TargetKind)
    (address : String)
    (hundos : forall undo, undo ∈ undos -> undo.toCall.Confined naming H id []) :
    Operation.Confined naming H id draws [u] (fun _ => True)
      ((Operation.ask (.insertTarget ⟨⟨u⟩, id, kind, address,
        Broker.subscriptionHandle (naming.topicHandle id) suffix⟩)).orUndo undos) := by
  apply Operation.Confined.orUndo _ hundos
  apply Operation.Confined.call _ _ fun _ => rfl
  exact ⟨rfl, ⟨hu, suffix, rfl⟩, List.mem_singleton_self u⟩

theorem subscribe_confined (protocol endpoint : String) :
    Operation.Confined naming H id draws []
      (fun handle => exists u,
        handle = Broker.subscriptionHandle (naming.topicHandle id) u)
      (Operation.ask (.subscribe (naming.topicHandle id) protocol endpoint)) := by
  apply Operation.Confined.ask (c := .subscribe (naming.topicHandle id) protocol endpoint) rfl
    fun _ => rfl
  intro w handle _ hreply
  rcases hperform : (Call.subscribe (naming.topicHandle id) protocol endpoint).perform w with
    ⟨reply, v⟩
  rw [hperform] at hreply
  cases hreply
  exact ⟨_, (Call.subscribe_ok hperform).2.1⟩

theorem subscribeTargets_confined (hdraws : draws) (targets : List ValidTarget)
    (hundos : forall undo, undo ∈ undos -> undo.toCall.Confined naming H id []) :
    Operation.Confined naming H id draws []
      (fun made : List Target × List Undo =>
        forall undo, undo ∈ made.2 -> undo.toCall.Confined naming H id [])
      (Lifecycle.subscribeTargets id (naming.topicHandle id) targets undos) := by
  induction targets generalizing undos with
  | nil => exact .pure hundos
  | cons target targets ih =>
      rw [Lifecycle.subscribeTargets]
      apply Operation.Confined.bind ((subscribe_confined _ _).orUndo hundos)
      rintro handle ⟨suffix, rfl⟩
      have hgrown := forall_cons_undo (.unsubscribe
        (Broker.subscriptionHandle (naming.topicHandle id) suffix)) ⟨suffix, rfl⟩ hundos
      apply Operation.Confined.fresh_bind hdraws
      intro u hu
      apply Operation.Confined.bind (insertTarget_confined hu target.kind target.address hgrown)
      intro _ _
      apply Operation.Confined.bind (ih (forall_cons_undo (.deleteTarget ⟨u⟩) hu hgrown))
      exact fun made hmade => .pure hmade

theorem provision_confined (hdraws : draws) {draft : Trigger} (hid : draft.id = id)
    (thing : Thing) (targets : List ValidTarget)
    (hundos : forall undo, undo ∈ undos -> undo.toCall.Confined naming H id []) :
    Operation.Confined naming H id draws [] (fun _ => True)
      (Lifecycle.provision naming draft thing targets undos) := by
  rw [Lifecycle.provision, hid]
  apply Operation.Confined.bind (Q := fun topic => topic = naming.topicHandle id)
  · apply Operation.Confined.orUndo _ hundos
    apply Operation.Confined.ask (c := .createTopic (naming.topicName id)) rfl fun _ => rfl
    intro w topic _ hreply
    cases hreply
    rfl
  rintro topic rfl
  have hgrown := forall_cons_undo (.deleteTopic (naming.topicHandle id)) rfl hundos
  apply Operation.Confined.bind (subscribeTargets_confined hdraws targets hgrown)
  intro made hmade
  apply Operation.Confined.bind (Q := fun _ => True)
  · exact (Operation.Confined.ofExcept fun _ _ => trivial).orUndo hmade
  intro predicate _
  apply Operation.Confined.bind (Q := fun rule => rule = naming.ruleHandle id)
  · apply Operation.Confined.orUndo _ hmade
    apply Operation.Confined.ask
      (c := .installRule (naming.ruleName id) predicate (naming.topicHandle id)) rfl fun _ => rfl
    intro w rule _ hreply
    rcases hperform : (Call.installRule (naming.ruleName id) predicate
      (naming.topicHandle id)).perform w with ⟨reply, v⟩
    rw [hperform] at hreply
    cases hreply
    exact (Call.installRule_ok hperform).2.1
  rintro rule rfl
  apply Operation.Confined.bind (Q := fun _ => True)
  · apply Operation.Confined.orUndo
    · exact .call (.setHandles id (naming.handles id)) ⟨rfl, rfl⟩ fun _ => rfl
    · exact forall_cons_undo (.removeRule (naming.ruleHandle id)) rfl hmade
  · exact fun _ _ => .pure trivial

theorem createWithId_confined (id : TriggerId) (hdraws : draws) (user : UserId)
    (request : ValidRequest) :
    Operation.Confined naming H id draws [] (fun _ => True)
      (Lifecycle.createWithId naming user request id) := by
  rw [Lifecycle.createWithId, Lifecycle.pairedThing]
  apply Operation.Confined.bind (Q := fun _ => True)
  · apply Operation.Confined.bind (Q := fun _ => True)
    · exact .call (.thingNamed request.thingName) trivial fun _ => rfl
    · exact fun _ _ => .orFail _ fun _ _ => trivial
  intro thing _
  apply Operation.Confined.bind (Q := fun _ => True)
  · exact .call (.insertTrigger ⟨id, user, thing.id, request.condition, request.message, none⟩)
      ⟨rfl, rfl⟩ fun _ => rfl
  intro _ _
  apply provision_confined hdraws
  · rfl
  · exact forall_cons_undo (.deleteTrigger id) rfl (List.forall_mem_nil _)

end Create

/-!
# Deletion
-/

section Delete

variable {naming : ResourceNaming} {H : History} {id : TriggerId} {draws : Prop}

theorem removeResources_confined :
    Operation.Confined naming H id draws [] (fun _ => True)
      (Lifecycle.removeResources (naming.handles id)) := by
  apply removeAll_confined
  intro c hc
  rcases List.mem_cons.mp hc with rfl | hc
  · exact ⟨.removeRule (naming.ruleHandle id), rfl, rfl⟩
  · rw [List.mem_singleton.mp hc]
    exact ⟨.deleteTopic (naming.topicHandle id), rfl, rfl⟩

theorem removeLeftovers_confined :
    Operation.Confined naming H id draws [] (fun _ => True)
      (Lifecycle.removeLeftovers naming id) := by
  rw [Lifecycle.removeLeftovers]
  apply Operation.Confined.ask_bind (c := .listRules) trivial
  · intro rules
    simp only [Call.view, List.filter_filter, Bool.and_self]
  intro w rules hw hrules
  cases hrules
  apply Operation.Confined.bind (Q := fun _ => True)
  · apply removeAll_confined
    intro c hc
    rcases List.mem_map.mp hc with ⟨info, hinfo, rfl⟩
    rcases List.mem_filter.mp hinfo with ⟨hmem, howner⟩
    rcases RuleEngine.mem_rulesByName.mp hmem with ⟨rule, hrule, rfl⟩
    exact ⟨.removeRule rule.handle, rfl,
      hw.named.rule_handle hw.integrity hrule (beq_iff_eq.mp howner)⟩
  intro _ _
  apply Operation.Confined.ask_bind (c := .listTopics) trivial
  · intro topics
    simp only [Call.view, List.filter_filter, Bool.and_self]
  intro w topics hw htopics
  cases htopics
  apply removeAll_confined
  intro c hc
  rcases List.mem_map.mp hc with ⟨t, ht, rfl⟩
  rcases List.mem_filter.mp ht with ⟨hmem, howner⟩
  exact ⟨.deleteTopic t.handle, rfl, hw.named.topic_handle hw.integrity
    (Broker.mem_topicsByName.mp hmem) (beq_iff_eq.mp howner)⟩

theorem unsubscribeAll_confined {targets : List Target}
    (htargets : forall r, r ∈ targets -> r.BelongsTo naming H id) :
    Operation.Confined naming H id draws [] (fun _ => True)
      (Lifecycle.unsubscribeAll targets) := by
  induction targets with
  | nil => exact .pure trivial
  | cons target targets ih =>
      rw [Lifecycle.unsubscribeAll]
      apply Operation.Confined.bind (Q := fun _ => True)
      · apply Operation.Confined.ofSaga
        refine ⟨(htargets target List.mem_cons_self).suffixed, fun _ => rfl, fun _ _ => trivial⟩
      · exact fun _ _ => ih fun r hr => htargets r (List.mem_cons_of_mem _ hr)

theorem deleteRows_confined {targets : List Target}
    (htargets : forall r, r ∈ targets -> r.BelongsTo naming H id) :
    Operation.Confined naming H id draws [] (fun _ => True)
      (Lifecycle.deleteRows id targets) := by
  apply removeAll_confined
  intro c hc
  rcases List.mem_append.mp hc with hrow | hlast
  · rcases List.mem_map.mp hrow with ⟨r, hr, rfl⟩
    exact ⟨.deleteTarget r.id, rfl, (htargets r hr).issued⟩
  · rw [List.mem_singleton.mp hlast]
    exact ⟨.deleteTrigger id, rfl, rfl⟩

theorem deleteOwned_confined (user : UserId) :
    Operation.Confined naming H id draws [] (fun _ => True)
      (Lifecycle.deleteOwned naming user id) := by
  rw [Lifecycle.deleteOwned]
  apply Operation.Confined.bind getTrigger_confined
  intro row hrow
  apply Operation.Confined.bind (Q := (·.Found naming id))
  · apply Operation.Confined.orFail
    exact fun t ht => hrow t (Option.filter_eq_some_iff.mp ht).1
  intro t hfound
  apply Operation.Confined.bind listTargets_confined
  intro targets htargets
  cases hhandles : t.handles with
  | some handles =>
      cases hfound.handles handles hhandles
      apply Operation.Confined.bind removeResources_confined
      exact fun _ _ => deleteRows_confined htargets
  | none =>
      apply Operation.Confined.bind removeLeftovers_confined
      intro _ _
      apply Operation.Confined.bind (unsubscribeAll_confined htargets)
      exact fun _ _ => deleteRows_confined htargets

end Delete

/-!
# Changes of targets
-/

section Targets

variable {naming : ResourceNaming} {H : History} {id : TriggerId} {draws : Prop}

theorem addTargetOwned_confined (id : TriggerId) (hdraws : draws) (maxTargets : Nat)
    (user : UserId) (target : ValidTarget) :
    Operation.Confined naming H id draws [] (fun _ => True)
      (Lifecycle.addTargetOwned maxTargets user id target) := by
  rw [Lifecycle.addTargetOwned]
  apply Operation.Confined.bind (visibleTrigger_confined user)
  intro t hfound
  apply Operation.Confined.bind (Q := fun handles => handles = naming.handles id)
  · exact .orFail _ hfound.handles
  rintro handles rfl
  apply Operation.Confined.bind listTargets_confined
  intro targets _
  split
  · exact .fail _
  · apply Operation.Confined.bind (subscribe_confined _ _)
    rintro handle ⟨suffix, rfl⟩
    apply Operation.Confined.fresh_bind hdraws
    intro u hu
    apply Operation.Confined.bind (insertTarget_confined hu target.kind target.address _)
    · exact fun _ _ => .pure trivial
    · exact forall_cons_undo (.unsubscribe _) ⟨suffix, rfl⟩ (List.forall_mem_nil _)

theorem removeTargetOwned_confined (hH : H.Distinct) (user : UserId) {target : TargetId}
    (hissued : H.Issued id target.uuid) :
    Operation.Confined naming H id draws [] (fun _ => True)
      (Lifecycle.removeTargetOwned user target) := by
  rw [Lifecycle.removeTargetOwned]
  apply Operation.Confined.bind (getTarget_confined hH hissued)
  intro row hrow
  apply Operation.Confined.bind (Q := fun r : Target =>
    r.trigger = id ∧ r.BelongsTo naming H id)
  · exact .orFail _ hrow
  rintro r ⟨rfl, hbelongs⟩
  apply Operation.Confined.bind (visibleTrigger_confined user)
  intro _ _
  apply Operation.Confined.bind
    (.ensureGone (.unsubscribe r.subscription) hbelongs.suffixed fun _ => rfl)
  exact fun _ _ => .ensureGone (.deleteTarget target) hissued fun _ => rfl

end Targets
end TelemetryTriggers
