import TelemetryTriggers.Proofs.Registry.Refinement

/-!
# Identifiers that requests draw

Whether the identifiers repeat that the registry would draw for a request can be told from
those that the services did draw for it: as long as no identifier is drawn twice no step is
refused, and so the services draw all of them.

The main statements are `Registry.Mirrors.unrepeated_create` and
`Registry.Mirrors.unrepeated_addTarget`.
-/

namespace TelemetryTriggers

section Precedes

variable {α β : Type} {w : World}

theorem Call.precedes_attempt (deadline : Nat) (c : Call) (w : World) :
    w.ids.Precedes (c.attempt (some deadline) w).2.ids := by
  rcases c.attempt_cases (some deadline) w with ⟨e, heq⟩ | heq
  · rw [heq]
    exact .refl w.ids
  · rw [heq]
    exact c.ids_precedes (c.start w).2

theorem Saga.precedes_run (deadline : Nat) (s : Saga α) (w : World) :
    w.ids.Precedes (s.run deadline w).2.ids := by
  induction s generalizing w with
  | done a => exact .refl w.ids
  | call c next ih => exact (c.precedes_attempt deadline w).trans (ih _ _)
  | acquire id next ih =>
      simp only [run]
      cases w.locks.acquire? id with
      | none => exact ih false w
      | some locks => exact ih true { w with locks }
  | release id next ih => exact ih { w with locks := w.locks.release id }
  | isHeld id next ih => exact ih _ w
  | draw next ih => exact w.ids.precedes_next.trans (ih _ { w with ids := w.ids.next.2 })
  | detach next ih => exact ih w

theorem Saga.precedes_play (s : Saga α) (w : World) : w.ids.Precedes (s.play w).2.ids := by
  have hrun := s.precedes_run 0 { w with faults := .empty }
  rcases s.run_of_harmless (w := { w with faults := .empty })
    (FaultPlan.within_of_calm rfl 0) with ⟨p, _, heq⟩
  rw [heq, s.play_withFaults] at hrun
  exact hrun

namespace Operation

theorem precedes_play_bind (op : Operation α) (f : α -> Operation β) (w : World) :
    (op.run.play w).2.ids.Precedes ((op >>= f).run.play w).2.ids := by
  have hbind := Saga.play_bind op.run (ExceptT.bindCont f) w
  exact hbind ▸ Saga.precedes_play _ _

theorem precedes_play_orUndo (op : Operation α) (undos : List Undo) (w : World) :
    (op.run.play w).2.ids.Precedes ((op.orUndo undos).run.play w).2.ids := by
  unfold orUndo
  rw [ExceptT.run_mk, Saga.play_bind]
  exact Saga.precedes_play _ _

theorem unrepeated_first {op : Operation α} {f : α -> Operation β} {w : World}
    (h : ((op >>= f).run.play w).2.ids.Unrepeated) : (op.run.play w).2.ids.Unrepeated :=
  (precedes_play_bind op f w).unrepeated h

theorem unrepeated_rest {op : Operation α} {f : α -> Operation β} {a : α} {w v : World}
    (hplay : op.run.play w = (.ok a, v))
    (h : ((op >>= f).run.play w).2.ids.Unrepeated) : ((f a).run.play v).2.ids.Unrepeated := by
  rw [play_bind_of_ok hplay] at h
  exact h

theorem precedes_play_ask (c : Call) (w : World) :
    (c.perform w).2.ids.Precedes ((ask c).run.play w).2.ids :=
  Saga.precedes_play _ _

theorem ids_play_locked {id : TriggerId} {op : Operation α} {w : World}
    (hfree : w.locks.isHeld id = false) :
    ((locked id op).run.play w).2.ids =
      (op.run.play { w with locks := ⟨id :: w.locks.held⟩ }).2.ids := by
  rw [play_locked_of_free hfree rfl]

end Operation
end Precedes

/-!
# Rows of targets
-/

section Targets

variable {naming : ResourceNaming} {w : World} {id : TriggerId}

/-- A subscription takes an identifier also if another one has it already. -/
theorem ids_subscribe (hlive : w.broker.hasTopic (naming.topicHandle id) = true)
    (kind : TargetKind) (address : String) :
    ((Call.subscribe (naming.topicHandle id) kind.protocol address).perform w).2.ids =
      w.ids.next.2 := by
  have hknown : Broker.protocols.contains kind.protocol = true := by
    cases kind with
    | email => decide
    | sms => decide
  simp only [Call.perform, Broker.subscribe, hknown, hlive]
  rfl

theorem unrepeated_subscribeTargets (targets : List ValidTarget) (undos : List Undo)
    (h : w.Ready naming id)
    (hids : ((Lifecycle.subscribeTargets id (naming.topicHandle id) targets undos).run.play
      w).2.ids.Unrepeated) :
    (Registry.enlistAll targets w.ids).2.Unrepeated := by
  induction targets generalizing w undos with
  | nil => exact hids
  | cons target targets ih =>
      rw [Lifecycle.subscribeTargets] at hids
      have hfirst : w.ids.next.2.Unrepeated := by
        rw [← ids_subscribe h.live target.kind target.address]
        exact ((Operation.precedes_play_ask _ w).trans
          (Operation.precedes_play_orUndo _ undos w)).unrepeated (Operation.unrepeated_first hids)
      have hsubscribe := h.subscribe hfirst target.kind target.address
      have hids := Operation.unrepeated_rest
        (Operation.play_orUndo_of_ok (Operation.play_ask_of_ok hsubscribe) undos) hids
      have hsecond : w.ids.next.2.next.2.Unrepeated := Operation.unrepeated_first hids
      have hinsert := h.insertTarget hsecond target { w.broker with
        subscriptions := w.broker.subscriptions ++
          [Lifecycle.subscriptionOf naming ((Registry.enlist target w.ids).1.row naming id)] }
      have hids := Operation.unrepeated_rest (Operation.play_fresh _) hids
      have hids := Operation.unrepeated_rest
        (Operation.play_orUndo_of_ok (Operation.play_ask_of_ok hinsert) _) hids
      exact ih _ (h.withTarget target) (Operation.unrepeated_first hids)

theorem unrepeated_provision {e : Entry} {targets : List ValidTarget} (h : w.Vacant naming e)
    (undos : List Undo)
    (hids : ((Lifecycle.provision naming e.draft e.thing targets undos).run.play
      (w.withDraft e)).2.ids.Unrepeated) :
    (Registry.enlistAll targets w.ids).2.Unrepeated := by
  rw [Lifecycle.provision] at hids
  have hids := Operation.unrepeated_rest
    (Operation.play_orUndo_of_ok (Operation.play_ask_of_ok h.createTopic) undos) hids
  have hready : ((w.withDraft e).withTopic naming e).Ready naming e.draft.id := h.ready
  have hlisted := unrepeated_subscribeTargets targets _ hready (Operation.unrepeated_first hids)
  exact hlisted

theorem unrepeated_createWithId (e : Entry) (request : ValidRequest) (h : w.Vacant naming e)
    (hthing : (w.store.things.find? (·.name == request.thingName)).filter
      (·.owner == e.user) = some e.thing)
    (hcondition : request.condition = e.condition) (hmessage : request.message = e.message)
    (hids : ((Lifecycle.createWithId naming e.user request e.id).run.play w).2.ids.Unrepeated) :
    (Registry.enlistAll request.targets w.ids).2.Unrepeated := by
  have hpaired := Lifecycle.play_pairedThing e.user request.thingName w
  rw [hthing] at hpaired
  rw [Lifecycle.createWithId, hcondition, hmessage] at hids
  have hids := Operation.unrepeated_rest hpaired hids
  have hdraft : (Call.insertTrigger e.draft).perform w = (.ok (), w.withDraft e) :=
    Call.insertTrigger_of_fresh h.row
  have hids := Operation.unrepeated_rest (Operation.play_ask_of_ok hdraft) hids
  exact unrepeated_provision h _ hids

end Targets

/-!
# Requests
-/

namespace Registry.Mirrors

variable {config : Config} {things : List Thing} {r : Registry} {w : World}

theorem unrepeated_create (h : r.Mirrors config.naming things w) (hlocks : w.locks = .empty)
    (request : CreateRequest)
    (hids : ((Lifecycle.create config request).run.play w).2.ids.Unrepeated) :
    (create config things request r).2.ids.Unrepeated := by
  have hids' : r.ids.Unrepeated := by
    rw [← h.shows.ids]
    exact (Saga.precedes_play _ w).unrepeated hids
  rw [create]
  rw [Lifecycle.create] at hids
  cases hvalid : request.validate config.maxTargets with
  | error e => exact hids'
  | ok valid =>
      rw [hvalid] at hids
      have hids := Operation.unrepeated_rest (a := valid) (v := w) rfl hids
      have hfirst : w.ids.next.2.Unrepeated := Operation.unrepeated_first (w := w) hids
      have hids := Operation.unrepeated_rest (Operation.play_fresh w) hids
      have hfree : w.locks.isHeld ⟨w.ids.next.1⟩ = false := by
        rw [hlocks]
        rfl
      rw [Operation.ids_play_locked (w := { w with ids := w.ids.next.2 }) hfree] at hids
      rw [h.shows.ids] at hids hfirst
      simp only [createValid]
      cases hthing : (things.find? (·.name == valid.thingName)).filter
          (·.owner == request.user) with
      | none => exact hfirst
      | some thing =>
          have hpaired : (w.store.things.find? (·.name == valid.thingName)).filter
              (·.owner == request.user) = some thing := by
            rw [h.shows.things]
            exact hthing
          exact unrepeated_createWithId (newEntry request.user valid thing r.ids) valid
            (h.vacant hfirst rfl _) hpaired rfl rfl hids

theorem unrepeated_addTargetOwned {naming : ResourceNaming} (h : r.Mirrors naming things w)
    {maxTargets : Nat} (target : ValidTarget) {e : Entry} (he : e ∈ r.entries)
    (hroom : ¬ maxTargets ≤ e.targets.length)
    (hids : ((Lifecycle.addTargetOwned maxTargets e.user e.id target).run.play
      w).2.ids.Unrepeated) :
    (enlist target r.ids).2.Unrepeated := by
  have hvisible := h.play_visibleTrigger e.user e.id
  rw [h.entry?_of_mem he] at hvisible
  have hready := h.ready he
  have hlength : ¬ maxTargets ≤ (w.store.targetsOf e.id).length := by
    rw [h.shows.targets e he, Entry.rows, List.length_map]
    exact hroom
  rw [Lifecycle.addTargetOwned] at hids
  have hids := Operation.unrepeated_rest hvisible hids
  have hids := Operation.unrepeated_rest (a := naming.handles e.id) (v := w) rfl hids
  have hids := Operation.unrepeated_rest (Operation.play_ask_of_ok rfl) hids
  rw [if_neg hlength] at hids
  have hfirst : w.ids.next.2.Unrepeated := by
    rw [← ids_subscribe hready.live target.kind target.address]
    exact (Operation.precedes_play_ask _ w).unrepeated (Operation.unrepeated_first hids)
  have hsubscribe := hready.subscribe hfirst target.kind target.address
  have hids := Operation.unrepeated_rest (Operation.play_ask_of_ok hsubscribe) hids
  have hsecond : w.ids.next.2.next.2.Unrepeated := Operation.unrepeated_first hids
  rw [← h.shows.ids]
  exact hsecond

theorem unrepeated_addTarget (h : r.Mirrors config.naming things w) (hlocks : w.locks = .empty)
    (user : UserId) (id : TriggerId) (spec : TargetSpec)
    (hids : ((Lifecycle.addTarget config user id spec).run.play w).2.ids.Unrepeated) :
    (addTarget config user id spec r).2.ids.Unrepeated := by
  have hids' : r.ids.Unrepeated := by
    rw [← h.shows.ids]
    exact (Saga.precedes_play _ w).unrepeated hids
  rw [addTarget]
  rw [Lifecycle.addTarget] at hids
  cases hvalid : spec.validate with
  | error e => exact hids'
  | ok target =>
      rw [hvalid] at hids
      have hids := Operation.unrepeated_rest (a := target) (v := w) rfl hids
      have hfree : w.locks.isHeld id = false := by
        rw [hlocks]
        rfl
      have hids : ((Operation.locked id (Lifecycle.addTargetOwned config.maxTargets user id
        target)).run.play w).2.ids.Unrepeated := hids
      rw [Operation.ids_play_locked hfree] at hids
      simp only
      cases hentry : r.entry? user id with
      | none => exact hids'
      | some e =>
          rcases entry?_eq_some hentry with ⟨he, rfl, rfl⟩
          simp only
          split
          · exact hids'
          · rename_i hroom
            exact (h.around w.faults ⟨e.id :: w.locks.held⟩).unrepeated_addTargetOwned target he
              hroom hids

end Registry.Mirrors

end TelemetryTriggers
