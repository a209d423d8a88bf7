import TelemetryTriggers.Proofs.Registry.Draws
import TelemetryTriggers.Proofs.Registry.Size
import TelemetryTriggers.Proofs.Scenario.History
import TelemetryTriggers.Proofs.Services.Deliveries
import TelemetryTriggers.Proofs.Services.Fanout

/-!
# What a step adds and takes away

As long as no call is going to fail the services show a plain registry between any two steps
of a scenario.  A step that succeeds makes or takes away a trigger or targets or makes
deliveries; a step that fails does none of it.

Main definitions: `Scene.Steady`, what holds between two steps; `Scene.Event.Booked`, what a
step adds and takes away.  The main statements are `Scene.Steady.books` and
`Scene.Event.Booked.neutral`, for steps that fail.
-/

namespace TelemetryTriggers

/-!
# Between two steps
-/

/-- The services show a registry, apart from what was delivered so far.  Nothing is locked,
and no call is going to fail. -/
structure Scene.Steady (config : Config) (things : List Thing) (r : Registry)
    (scene : Scene) : Prop where
  configured : scene.config = config
  mirrors : r.Mirrors config.naming things (scene.world.withDeliveries [])
  locks : scene.world.locks = .empty
  faults : scene.world.faults.Within noFault config.callTimeout

structure Scene.Calm (config : Config) (things : List Thing) (r : Registry)
    (scene scene' : Scene) : Prop where
  steady : scene'.Steady config things r
  deliveries : scene'.world.broker.deliveries = scene.world.broker.deliveries

namespace Scene

variable {config : Config} {things : List Thing} {r r' : Registry} {scene : Scene} {α : Type}

theorem Steady.calm (h : scene.Steady config things r) : scene.Calm config things r scene :=
  ⟨h, rfl⟩

theorem Calm.trans {scene' scene'' : Scene} (h : scene.Calm config things r scene')
    (h' : scene'.Calm config things r' scene'') : scene.Calm config things r' scene'' :=
  ⟨h'.steady, h'.deliveries.trans h.deliveries⟩

theorem Calm.withNames {scene' : Scene} (h : scene.Calm config things r scene')
    (names : List (String × TriggerId)) :
    scene.Calm config things r { scene' with names } :=
  ⟨⟨h.steady.configured, h.steady.mirrors, h.steady.locks, h.steady.faults⟩, h.deliveries⟩

theorem Steady.run_eq (h : scene.Steady config things r) (work : Operation α) :
    exists p, p.Within noFault config.callTimeout ∧
      scene.run work =
        ((work.run.play (scene.world.withDeliveries [])).1.mapError CommandError.ofTrigger,
          { scene with
            world := { ((work.run.play (scene.world.withDeliveries [])).2.withDeliveries
              scene.world.broker.deliveries) with faults := p } }) := by
  rcases Saga.run_of_harmless h.faults work.run with ⟨p, hp, hrun⟩
  have hplay := work.run.play_withDeliveries (scene.world.withDeliveries [])
    scene.world.broker.deliveries
  refine ⟨p, hp, ?_⟩
  rw [← h.configured] at hrun
  unfold Scene.run
  rw [hrun]
  have hsame : (scene.world.withDeliveries []).withDeliveries scene.world.broker.deliveries =
      scene.world := rfl
  rw [hsame] at hplay
  rw [hplay]

theorem Steady.run (h : scene.Steady config things r) {work : Operation α}
    {served : Except TriggerError α × Registry}
    (hfollows : Registry.Follows config.naming things work (scene.world.withDeliveries [])
      served) :
    exists scene', scene.Calm config things served.2 scene' ∧
      ((exists a, served.1 = .ok a ∧ scene.run work = (.ok a, scene')) ∨
        exists e, served.1 = .error e ∧ scene.run work = (.error (.ofTrigger e), scene')) := by
  rcases hfollows with ⟨v, hplay, hmirrors, hlocks⟩
  rcases h.run_eq work with ⟨p, hp, hrun⟩
  have hbare : v.withDeliveries [] = v := by
    unfold World.withDeliveries
    rw [← hmirrors.shows.deliveries]
  have haround := hmirrors.around p v.locks
  rw [← hbare] at haround
  rw [hplay] at hrun
  refine ⟨{ scene with
    world := { v.withDeliveries scene.world.broker.deliveries with faults := p } },
    ⟨⟨h.configured, haround, hlocks, hp⟩, rfl⟩, ?_⟩
  cases hserved : served.1 with
  | ok a =>
      rw [hserved] at hrun
      exact Or.inl ⟨a, rfl, hrun⟩
  | error e =>
      rw [hserved] at hrun
      exact Or.inr ⟨e, rfl, hrun⟩

theorem Steady.ids_run (h : scene.Steady config things r) (work : Operation α) :
    (scene.run work).2.world.ids = (work.run.play (scene.world.withDeliveries [])).2.ids := by
  rcases h.run_eq work with ⟨p, _, hrun⟩
  rw [hrun]
  rfl

theorem Steady.counts_eq (h : scene.Steady config things r) :
    scene.world.counts = ⟨r.entries.length, r.listings.length, r.entries.length,
      r.listings.length, r.entries.length, scene.world.broker.deliveries.length⟩ := by
  have hcounts : scene.world.counts = { (scene.world.withDeliveries []).counts with
    deliveries := scene.world.broker.deliveries.length } := rfl
  rw [hcounts, h.mirrors.counts_eq]

end Scene

/-!
# What events add and take away
-/

namespace Scene.Event

def triggersMade (e : Event) : Nat :=
  match e.step, e.result with
  | .create _ _, .ok _ => 1
  | _, _ => 0

def triggersLost (e : Event) : Nat :=
  match e.step, e.result with
  | .delete _ _, .ok _ => 1
  | _, _ => 0

def targetsMade (e : Event) : Nat :=
  match e.step, e.result with
  | .create _ request, .ok _ => request.targets.length
  | .addTarget _ _ _, .ok _ => 1
  | _, _ => 0

def targetsLost (e : Event) : Nat :=
  match e.step, e.result with
  | .delete name _, .ok _ =>
      (e.before.trigger? name).elim 0 fun id => (e.before.world.store.targetsOf id).length
  | .removeTarget _ _ _, .ok _ => 1
  | _, _ => 0

def isIngestion (e : Event) : Bool :=
  match e.step, e.result with
  | .ingest _ _, .ok _ => true
  | _, _ => false

def delivered (made : Nat) : String :=
  toString made ++ " notification(s) delivered"

/-- The event leaves a registry that differs by what it is booked with from the one before,
and as many more deliveries as it reports. -/
structure Booked (config : Config) (things : List Thing) (r r' : Registry) (e : Event) :
    Prop where
  steady : e.after.Steady config things r'
  grows : r.Grows r' e.triggersMade e.triggersLost e.targetsMade e.targetsLost
  deliveries : exists made,
    e.after.world.broker.deliveries.length = e.before.world.broker.deliveries.length + made ∧
      if e.isIngestion then e.outcome.detail = delivered made else made = 0
  recovery : e.step = .recover ->
    e.outcome.ok = true ∧ e.outcome.recovery = some ⟨0, 0, 0, 0, 0⟩

variable {config : Config} {things : List Thing} {r r' : Registry} {before after : Scene}
  {step : Step}

theorem Booked.of_calm {result : Except CommandError Success}
    (h : before.Calm config things r' after)
    (hgrows : r.Grows r' (triggersMade ⟨before, step, result, after⟩)
      (triggersLost ⟨before, step, result, after⟩) (targetsMade ⟨before, step, result, after⟩)
      (targetsLost ⟨before, step, result, after⟩))
    (hingestion : isIngestion ⟨before, step, result, after⟩ = false) (hstep : step ≠ .recover) :
    Booked config things r r' ⟨before, step, result, after⟩ where
  steady := h.steady
  grows := hgrows
  deliveries := ⟨0, congrArg List.length h.deliveries, by rw [hingestion]; rfl⟩
  recovery := fun hrecover => absurd hrecover hstep

theorem Booked.of_error (h : before.Calm config things r' after) (e : CommandError)
    (hentries : r'.entries = r.entries) (hstep : step ≠ .recover) :
    Booked config things r r' ⟨before, step, .error e, after⟩ := by
  refine Booked.of_calm h ?_ ?_ hstep
  · cases step with
    | _ => exact .same hentries
  · cases step with
    | _ => rfl

theorem nothing_of_failed {e : Event} (h : e.outcome.ok = false) :
    e.triggersMade = 0 ∧ e.triggersLost = 0 ∧ e.targetsMade = 0 ∧ e.targetsLost = 0 ∧
      e.isIngestion = false := by
  rcases e with ⟨before, step, result, after⟩
  rw [outcome_ok] at h
  cases result with
  | ok s => cases h
  | error error =>
      cases step with
      | _ => exact ⟨rfl, rfl, rfl, rfl, rfl⟩

theorem Booked.neutral {e : Event} (h : e.Booked config things r r')
    (hbefore : e.before.Steady config things r) (hfailed : e.outcome.ok = false) :
    e.after.world.counts = e.before.world.counts := by
  rcases nothing_of_failed hfailed with ⟨hmade, hlost, htargetsMade, htargetsLost, hingestion⟩
  rcases h.deliveries with ⟨made, hlength, hdelivered⟩
  rw [hingestion] at hdelivered
  have hnone : made = 0 := hdelivered
  have hentries := h.grows.entries
  have hlistings := h.grows.listings
  rw [hmade, hlost] at hentries
  rw [htargetsMade, htargetsLost] at hlistings
  rw [h.steady.counts_eq, hbefore.counts_eq, hlength, Nat.add_right_cancel hentries,
    Nat.add_right_cancel hlistings, hnone]
  rfl

end Scene.Event

/-!
# One step
-/

namespace Scene

theorem event_eq {scene scene' : Scene} {step : Step} {result : Except CommandError Success}
    (h : scene.perform step = (result, scene')) :
    scene.event step = ⟨scene, step, result, scene'⟩ := by
  rw [event, h]

namespace Steady

variable {config : Config} {things : List Thing} {r r' : Registry} {scene : Scene} {α : Type}

theorem reporting (h : scene.Steady config things r) {work : Operation α}
    {served : Except TriggerError α × Registry}
    (hfollows : Registry.Follows config.naming things work (scene.world.withDeliveries [])
      served) (detail : α -> String) :
    exists scene', scene.Calm config things served.2 scene' ∧
      ((exists a, served.1 = .ok a ∧
        scene.reporting work detail = (success (detail a), scene')) ∨
        exists e, served.1 = .error e ∧
          scene.reporting work detail = (.error (.ofTrigger e), scene')) := by
  rcases h.run hfollows with ⟨scene', hcalm, ⟨a, hok, hrun⟩ | ⟨e, herror, hrun⟩⟩
  · exact ⟨scene', hcalm, Or.inl ⟨a, hok, by rw [Scene.reporting, hrun]⟩⟩
  · exact ⟨scene', hcalm, Or.inr ⟨e, herror, by rw [Scene.reporting, hrun]⟩⟩

theorem books_unknown (h : scene.Steady config things r) {step : Step} {name : String}
    (habout : step.about? = some name) (hnone : scene.trigger? name = none) :
    (scene.event step).Booked config things r r := by
  rw [event_eq (perform_of_unknown habout hnone)]
  refine Event.Booked.of_error h.calm _ rfl ?_
  rintro rfl
  cases habout

theorem books_create (h : scene.Steady config things r) (name : String)
    (request : CreateRequest)
    (hids : (scene.perform (.create name request)).2.world.ids.Unrepeated) :
    exists r', (scene.event (.create name request)).Booked config things r r' := by
  cases htaken : scene.trigger? name with
  | some id =>
      have hperform : scene.perform (.create name request) =
          (.error (.scenario (.nameTaken name)), scene) := by
        simp only [perform, create, htaken, Option.isSome_some, if_true]
      rw [event_eq hperform]
      exact ⟨r, .of_error h.calm _ rfl (by simp)⟩
  | none =>
      have hdrawn : (scene.run (Lifecycle.create config request)).2.world.ids.Unrepeated := by
        rw [← h.configured, ← scene.world_create htaken]
        exact hids
      rw [h.ids_run] at hdrawn
      rcases h.run (h.mirrors.follows_create config h.locks request
        (h.mirrors.unrepeated_create h.locks request hdrawn)) with
        ⟨scene', hcalm, ⟨details, hok, hrun⟩ | ⟨e, herror, hrun⟩⟩
      · have hperform : scene.perform (.create name request) =
            (success (name ++ " created as " ++ details.trigger.id.text ++ " with " ++
              toString details.targets.length ++ " target(s)"),
              { scene' with names := (name, details.trigger.id) :: scene'.names }) := by
          simp only [perform, create, htaken, Option.isSome_none, Bool.false_eq_true, if_false,
            h.configured, hrun]
        rw [event_eq hperform]
        exact ⟨_, .of_calm (hcalm.withNames _) (Registry.grows_create hok) rfl (by simp)⟩
      · have hperform : scene.perform (.create name request) =
            (.error (.ofTrigger e), scene') := by
          simp only [perform, create, htaken, Option.isSome_none, Bool.false_eq_true, if_false,
            h.configured, hrun]
        rw [event_eq hperform]
        exact ⟨_, .of_error hcalm _ (Registry.entries_create_of_error herror) (by simp)⟩

theorem books_delete (h : scene.Steady config things r) (name : String) (user : UserId) :
    exists r', (scene.event (.delete name user)).Booked config things r r' := by
  cases hname : scene.trigger? name with
  | none => exact ⟨r, h.books_unknown rfl hname⟩
  | some id =>
      have hperform : scene.perform (.delete name user) =
          scene.reporting (Lifecycle.delete config user id) fun _ => name ++ " deleted" := by
        rw [perform, onTrigger, hname, h.configured]
      rcases h.reporting (h.mirrors.follows_delete config h.locks user id) _ with
        ⟨scene', hcalm, ⟨_, hok, hreport⟩ | ⟨e, herror, hreport⟩⟩
      · rw [event_eq (hperform.trans hreport)]
        refine ⟨_, .of_calm hcalm ?_ rfl (by simp)⟩
        show Registry.Grows r _ 0 1 0 ((scene.trigger? name).elim 0 _)
        rw [hname]
        exact h.mirrors.grows_delete hok
      · rw [event_eq (hperform.trans hreport)]
        exact ⟨_, .of_error hcalm _ (Registry.entries_delete_of_error herror) (by simp)⟩

theorem books_addTarget (h : scene.Steady config things r) (name : String) (user : UserId)
    (spec : TargetSpec)
    (hids : (scene.perform (.addTarget name user spec)).2.world.ids.Unrepeated) :
    exists r', (scene.event (.addTarget name user spec)).Booked config things r r' := by
  cases hname : scene.trigger? name with
  | none => exact ⟨r, h.books_unknown rfl hname⟩
  | some id =>
      have hperform : scene.perform (.addTarget name user spec) =
          scene.reporting (Lifecycle.addTarget config user id spec) fun added =>
            added.kind.protocol ++ " " ++ added.address ++ " added to " ++ name := by
        rw [perform, onTrigger, hname, h.configured]
      have hdrawn := hids
      rw [hperform, reporting_snd, h.ids_run] at hdrawn
      rcases h.reporting (h.mirrors.follows_addTarget config h.locks user id spec
        (h.mirrors.unrepeated_addTarget h.locks user id spec hdrawn)) _ with
        ⟨scene', hcalm, ⟨row, hok, hreport⟩ | ⟨e, herror, hreport⟩⟩
      · rw [event_eq (hperform.trans hreport)]
        exact ⟨_, .of_calm hcalm (h.mirrors.grows_addTarget hok) rfl (by simp)⟩
      · rw [event_eq (hperform.trans hreport)]
        exact ⟨_, .of_error hcalm _ (Registry.entries_addTarget_of_error herror) (by simp)⟩

theorem books_removeTarget (h : scene.Steady config things r) (name : String) (user : UserId)
    (address : String) :
    exists r', (scene.event (.removeTarget name user address)).Booked config things r r' := by
  cases hname : scene.trigger? name with
  | none => exact ⟨r, h.books_unknown rfl hname⟩
  | some id =>
      have hperform : scene.perform (.removeTarget name user address) =
          scene.removeAddress name user address id := by
        rw [perform, onTrigger, hname]
      have hsame : (Registry.read (Entry.rows config.naming) user id r).2 = r := by
        rw [Registry.read]
        cases r.entry? user id with
        | none => rfl
        | some e => rfl
      rcases h.run (h.mirrors.follows_listTargets h.locks user id) with
        ⟨listed, hlisted, ⟨targets, _, hrun⟩ | ⟨e, _, hrun⟩⟩
      · rw [hsame] at hlisted
        cases htarget : targets.find? (·.address == address) with
        | none =>
            have hremove : scene.removeAddress name user address id =
                (.error (.scenario (.noSuchAddress address name)), listed) := by
              simp only [removeAddress, hrun, htarget]
            rw [event_eq (hperform.trans hremove)]
            exact ⟨r, .of_error hlisted _ rfl (by simp)⟩
        | some target =>
            have hremove : scene.removeAddress name user address id =
                listed.reporting (Lifecycle.removeTarget user target.id) fun _ =>
                  address ++ " removed from " ++ name := by
              simp only [removeAddress, hrun, htarget]
            have hsteady := hlisted.steady
            rcases hsteady.reporting (hsteady.mirrors.follows_removeTarget hsteady.locks user
              target.id) _ with ⟨scene', hcalm, ⟨_, hok, hreport⟩ | ⟨e, herror, hreport⟩⟩
            · rw [event_eq (hperform.trans (hremove.trans hreport))]
              exact ⟨_, .of_calm (hlisted.trans hcalm) (hsteady.mirrors.grows_removeTarget hok) rfl
                (by simp)⟩
            · rw [event_eq (hperform.trans (hremove.trans hreport))]
              exact ⟨_, .of_error (hlisted.trans hcalm) _
                (Registry.entries_removeTarget_of_error herror) (by simp)⟩
      · have hremove : scene.removeAddress name user address id =
            (.error (.ofTrigger e), listed) := by
          simp only [removeAddress, hrun]
        rw [event_eq (hperform.trans hremove)]
        rw [hsame] at hlisted
        exact ⟨r, .of_error hlisted _ rfl (by simp)⟩

theorem books_ingest (h : scene.Steady config things r) (thing : String) (document : Json) :
    (scene.event (.ingest thing document)).Booked config things r r := by
  have hperform : scene.perform (.ingest thing document) = scene.ingest thing document := rfl
  unfold ingest at hperform
  cases hupdate : ShadowUpdate.ofDocument thing document with
  | error e =>
      rw [hupdate] at hperform
      rw [event_eq hperform]
      exact .of_error h.calm _ rfl (by simp)
  | ok u =>
      rw [hupdate] at hperform
      have hlog := scene.world.dispatch_log u
      rw [event_eq hperform]
      constructor
      case steady =>
        refine ⟨h.configured, ?_, ?_, ?_⟩
        · show Registry.Mirrors _ _ _ ((scene.world.dispatch u).2.withDeliveries [])
          rw [hlog]
          exact h.mirrors
        · show (scene.world.dispatch u).2.locks = _
          rw [hlog]
          exact h.locks
        · show FaultPlan.Within _ _ (scene.world.dispatch u).2.faults
          rw [hlog]
          exact h.faults
      case grows => exact .same rfl
      case deliveries =>
        refine ⟨(scene.world.dispatch u).1.length, ?_, rfl⟩
        show (scene.world.dispatch u).2.broker.deliveries.length = _
        rw [hlog]
        exact List.length_append
      case recovery => exact fun hrecover => by cases hrecover

theorem books_recover (h : scene.Steady config things r) :
    (scene.event .recover).Booked config things r r := by
  rcases h.run (h.mirrors.follows_recover config h.locks) with
    ⟨scene', hcalm, ⟨report, hok, hrun⟩ | ⟨e, herror, _⟩⟩
  · cases hok
    have hperform : scene.perform .recover =
        (.ok ⟨sweepDetail ⟨0, 0, 0, 0, 0⟩, some ⟨0, 0, 0, 0, 0⟩⟩, scene') := by
      simp only [perform, h.configured, hrun]
    rw [event_eq hperform]
    exact ⟨hcalm.steady, .same rfl, ⟨0, congrArg List.length hcalm.deliveries, rfl⟩,
      fun _ => ⟨rfl, rfl⟩⟩
  · cases herror

end Steady
end Scene

def Step.plansFault : Step -> Bool
  | .fail _ _ _ _ _ => true
  | .delay _ _ => true
  | _ => false

theorem Scene.Steady.books {config : Config} {things : List Thing} {r : Registry}
    {scene : Scene} (h : scene.Steady config things r) {step : Step}
    (hstep : step.plansFault = false)
    (hids : (scene.perform step).2.world.ids.Unrepeated) :
    exists r', (scene.event step).Booked config things r r' := by
  cases step with
  | create name request => exact h.books_create name request hids
  | delete name user => exact h.books_delete name user
  | addTarget name user spec => exact h.books_addTarget name user spec hids
  | removeTarget name user address => exact h.books_removeTarget name user address
  | ingest thing document => exact ⟨r, h.books_ingest thing document⟩
  | fail operation kind reason times after => cases hstep
  | delay operation millis => cases hstep
  | clearFaults =>
      have hsteady : Steady config things r (scene.withFaults FaultPlan.clearAll) :=
        ⟨h.configured, h.mirrors.around _ _, h.locks, FaultPlan.within_of_calm rfl _⟩
      exact ⟨r, .of_calm ⟨hsteady, rfl⟩ (.same rfl) rfl (by simp)⟩
  | recover => exact ⟨r, h.books_recover⟩

end TelemetryTriggers
