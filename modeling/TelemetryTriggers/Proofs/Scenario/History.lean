import TelemetryTriggers.Scenario.Runner

/-!
# Histories of scenarios

The steps of a scenario make a history, with each step what there was before it and after
it.  The outcomes of a run are those of its history, and the names that it gives are those
of the creations that succeeded.

Main definitions: `Scene.Event`; `Scene.history`; `Event.binds?`, the name that an event
gives.  The main statement is `Scene.unbound_fails`.
-/

namespace TelemetryTriggers

def Scenario.start (scenario : Scenario) (config : Config) (ids : IdSource) : Scene :=
  ⟨config, World.ofThings scenario.things ids, []⟩

namespace Scene

structure Event where
  before : Scene
  step : Step
  result : Except CommandError Success
  after : Scene

namespace Event

def outcome (e : Event) : Outcome :=
  Scene.outcome e.step e.result

def binds? (e : Event) : Option String :=
  match e.step, e.result with
  | .create name _, .ok _ => some name
  | _, _ => none

theorem outcome_ok (e : Event) : e.outcome.ok = e.result.isOk := by
  rw [outcome]
  cases e.result with
  | ok s => rfl
  | error e => rfl

theorem outcome_word (e : Event) : e.outcome.word = e.step.word := by
  rw [outcome]
  cases e.result with
  | ok s => rfl
  | error e => rfl

end Event

def event (scene : Scene) (step : Step) : Event :=
  ⟨scene, step, (scene.perform step).1, (scene.perform step).2⟩

def history (scene : Scene) : List Step -> List Event
  | [] => []
  | step :: steps => scene.event step :: (scene.perform step).2.history steps

theorem outcomes_performAll (scene : Scene) (steps : List Step) :
    (scene.performAll steps).1 = (scene.history steps).map Event.outcome := by
  induction steps generalizing scene with
  | nil => rfl
  | cons step steps ih => exact congrArg (_ :: ·) (ih _)

theorem steps_history (scene : Scene) (steps : List Step) :
    (scene.history steps).map Event.step = steps := by
  induction steps generalizing scene with
  | nil => rfl
  | cons step steps ih => exact congrArg (step :: ·) (ih _)

/-!
# What steps keep
-/

structure Kept (p : Scene -> Prop) : Prop where
  run : forall {α : Type} (scene : Scene) (operation : Operation α),
    p scene -> p (scene.run operation).2
  faults : forall (scene : Scene) (f : FaultPlan -> FaultPlan),
    p scene -> p (scene.withFaults f)
  update : forall (scene : Scene) (u : ShadowUpdate),
    p scene -> p { scene with world := (scene.world.dispatch u).2 }

theorem reporting_snd {α : Type} (scene : Scene) (operation : Operation α)
    (detail : α -> String) : (scene.reporting operation detail).2 = (scene.run operation).2 := by
  unfold reporting
  rcases scene.run operation with ⟨result, scene'⟩
  cases result with
  | ok a => rfl
  | error e => rfl

namespace Kept

variable {p : Scene -> Prop} {scene : Scene}

theorem reporting (hp : Kept p) (h : p scene) {α : Type} (operation : Operation α)
    (detail : α -> String) : p (scene.reporting operation detail).2 := by
  rw [reporting_snd]
  exact hp.run scene operation h

theorem onTrigger (h : p scene) (name : String)
    {f : TriggerId -> Except CommandError Success × Scene} (hf : forall id, p (f id).2) :
    p (scene.onTrigger name f).2 := by
  unfold Scene.onTrigger
  cases scene.trigger? name with
  | none => exact h
  | some id => exact hf id

theorem removeAddress (hp : Kept p) (h : p scene) (name : String) (user : UserId)
    (address : String) (id : TriggerId) :
    p (scene.removeAddress name user address id).2 := by
  unfold Scene.removeAddress
  have hlisted := hp.run scene (Lifecycle.listTargets user id) h
  rcases heq : scene.run (Lifecycle.listTargets user id) with ⟨result, scene'⟩
  rw [heq] at hlisted
  cases result with
  | error e => exact hlisted
  | ok targets =>
      simp only
      split
      · exact hlisted
      · exact hp.reporting hlisted _ _

theorem ingest (hp : Kept p) (h : p scene) (thing : String) (document : Json) :
    p (scene.ingest thing document).2 := by
  unfold Scene.ingest
  split
  · exact h
  · exact hp.update scene _ h

theorem planFault (hp : Kept p) (h : p scene) (operation : String) (error : ServiceError)
    (times after : Option Nat) : p (scene.planFault operation error times after).2 := by
  unfold Scene.planFault
  split
  · exact h
  · exact hp.faults scene (·.set operation _) h

theorem recover (hp : Kept p) (h : p scene) : p (scene.perform .recover).2 := by
  have hrun := hp.run scene (TelemetryTriggers.recover scene.config) h
  unfold Scene.perform
  rcases heq : scene.run (TelemetryTriggers.recover scene.config) with ⟨result, scene'⟩
  rw [heq] at hrun
  cases result with
  | error e => exact hrun
  | ok report => exact hrun

theorem perform (hp : Kept p) (h : p scene) (step : Step)
    (hcreate : forall name request, step = .create name request ->
      p (scene.create name request).2) : p (scene.perform step).2 := by
  cases step with
  | create name request => exact hcreate name request rfl
  | delete name user => exact onTrigger h name fun _ => hp.reporting h _ _
  | addTarget name user spec => exact onTrigger h name fun _ => hp.reporting h _ _
  | removeTarget name user address => exact onTrigger h name (hp.removeAddress h name user address)
  | ingest thing document => exact hp.ingest h thing document
  | fail operation kind reason times after => exact hp.planFault h operation _ times after
  | delay operation millis => exact hp.faults scene (·.set operation (.delay millis)) h
  | clearFaults => exact hp.faults scene FaultPlan.clearAll h
  | recover => exact hp.recover h

end Kept

/-!
# Names
-/

theorem world_create (scene : Scene) {name : String} (hfree : scene.trigger? name = none)
    (request : CreateRequest) : (scene.create name request).2.world =
      (scene.run (Lifecycle.create scene.config request)).2.world := by
  unfold create
  rw [hfree, if_neg (by decide)]
  rcases scene.run (Lifecycle.create scene.config request) with ⟨result, scene'⟩
  cases result with
  | ok details => rfl
  | error e => rfl

theorem names_create (scene : Scene) (name : String) (request : CreateRequest) :
    (exists id detail, (scene.create name request).1 = success detail ∧
      (scene.create name request).2.names = (name, id) :: scene.names) ∨
    (scene.create name request).2.names = scene.names := by
  unfold create
  split
  · exact Or.inr rfl
  · have hnames : (scene.run (Lifecycle.create scene.config request)).2.names = scene.names := rfl
    rcases hrun : scene.run (Lifecycle.create scene.config request) with ⟨result, scene'⟩
    rw [hrun] at hnames
    cases result with
    | error e => exact Or.inr hnames
    | ok details => exact Or.inl ⟨details.trigger.id, _, rfl, congrArg (_ :: ·) hnames⟩

theorem trigger?_perform (scene : Scene) (step : Step) {name : String}
    (h : (scene.event step).binds? ≠ some name) :
    (scene.perform step).2.trigger? name = scene.trigger? name := by
  have hkept : Kept fun scene' => scene'.trigger? name = scene.trigger? name :=
    ⟨fun _ _ h => h, fun _ _ h => h, fun _ _ h => h⟩
  apply hkept.perform rfl
  rintro other request rfl
  rcases scene.names_create other request with ⟨id, detail, hok, hnames⟩ | hnames
  · have hne : (name == other) = false := by
      rw [beq_eq_false_iff_ne]
      rintro rfl
      apply h
      show Event.binds? ⟨_, _, (scene.create name request).1, _⟩ = _
      rw [hok]
      rfl
    rw [trigger?, hnames, List.lookup_cons, hne]
    rfl
  · exact congrArg (List.lookup name) hnames

theorem trigger?_before (scene : Scene) (steps : List Step) {earlier later : List Event}
    {e : Event} (h : scene.history steps = earlier ++ e :: later) {name : String}
    (hnames : forall d, d ∈ earlier -> d.binds? ≠ some name) :
    e.before.trigger? name = scene.trigger? name ∧ e = e.before.event e.step := by
  induction steps generalizing scene earlier with
  | nil => simp [history] at h
  | cons step steps ih =>
      cases earlier with
      | nil =>
          rcases List.cons.inj h with ⟨rfl, _⟩
          exact ⟨rfl, rfl⟩
      | cons first earlier =>
          rcases List.cons.inj h with ⟨rfl, hrest⟩
          rcases ih _ hrest fun d hd => hnames d (List.mem_cons_of_mem _ hd) with
            ⟨hbefore, hevent⟩
          exact ⟨hbefore.trans (scene.trigger?_perform step (hnames _ List.mem_cons_self)), hevent⟩

end Scene

def Step.about? : Step -> Option String
  | .delete name _ => some name
  | .addTarget name _ _ => some name
  | .removeTarget name _ _ => some name
  | _ => none

namespace Scene

theorem perform_of_unknown {scene : Scene} {step : Step} {name : String}
    (habout : step.about? = some name) (hnone : scene.trigger? name = none) :
    scene.perform step = (.error (.scenario (.unknownName name)), scene) := by
  cases step with
  | delete other user =>
      cases habout
      simp only [perform, onTrigger, hnone]
  | addTarget other user target =>
      cases habout
      simp only [perform, onTrigger, hnone]
  | removeTarget other user address =>
      cases habout
      simp only [perform, onTrigger, hnone]
  | _ => cases habout

/-- Where a scenario starts without names, a step about a name that no earlier event gave
fails and changes nothing. -/
theorem unbound_fails {scene : Scene} (hscene : scene.names = []) {steps : List Step}
    {earlier later : List Event} {e : Event} (h : scene.history steps = earlier ++ e :: later)
    {name : String} (habout : e.step.about? = some name)
    (hnames : forall d, d ∈ earlier -> d.binds? ≠ some name) :
    e.outcome.ok = false ∧ e.after = e.before := by
  rcases scene.trigger?_before steps h hnames with ⟨hbefore, hevent⟩
  have hnone : e.before.trigger? name = none := by
    rw [hbefore, trigger?, hscene]
    rfl
  have hperform := perform_of_unknown habout hnone
  rw [hevent, Event.outcome_ok]
  exact ⟨congrArg (fun performed => performed.1.isOk) hperform, congrArg Prod.snd hperform⟩

end Scene
end TelemetryTriggers
