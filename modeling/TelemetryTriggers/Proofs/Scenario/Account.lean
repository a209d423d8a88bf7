import TelemetryTriggers.Proofs.Scenario.Books

/-!
# Reports give a true account

A scenario that plans no faults reports how many triggers and targets its steps made, less
those that its steps took away, and as many deliveries as its steps reported.

Main definition: `ScenarioReport.Accounts`, what a report says about a history.  The main
statements are `Scene.Steady.balance`, for steps that are done one after the other, and
`Scenario.run_accounts`.
-/

namespace TelemetryTriggers

/-!
# Identifiers
-/

namespace Scene

theorem kept_ids (ids : IdSource) : Kept fun scene => ids.Precedes scene.world.ids where
  run := fun scene operation h =>
    h.trans (Saga.precedes_run scene.config.callTimeout operation.run scene.world)
  faults := fun _ _ h => h
  update := fun _ _ h => h

theorem precedes_perform (scene : Scene) (step : Step) :
    scene.world.ids.Precedes (scene.perform step).2.world.ids := by
  have hkept := kept_ids scene.world.ids
  apply hkept.perform (.refl _)
  rintro name request rfl
  cases hname : scene.trigger? name with
  | none =>
      have hrun := hkept.run scene (Lifecycle.create scene.config request) (.refl _)
      rw [← scene.world_create hname] at hrun
      exact hrun
  | some id =>
      simp only [create, hname, Option.isSome_some, if_true]
      exact .refl _

theorem precedes_performAll (scene : Scene) (steps : List Step) :
    scene.world.ids.Precedes (scene.performAll steps).2.world.ids := by
  induction steps generalizing scene with
  | nil => exact .refl _
  | cons step steps ih => exact (scene.precedes_perform step).trans (ih _)

/-!
# Steps that are done one after the other
-/

/-- What a list of events comes to: a registry that differs by what the events made and took
away, and as many more deliveries as they reported. -/
structure Balance (config : Config) (things : List Thing) (r r' : Registry)
    (events : List Event) (scene scene' : Scene) : Prop where
  steady : scene'.Steady config things r'
  grows : r.Grows r' (events.map Event.triggersMade).sum (events.map Event.triggersLost).sum
    (events.map Event.targetsMade).sum (events.map Event.targetsLost).sum
  deliveries : exists counts : List Nat,
    (events.filter Event.isIngestion).map (·.outcome.detail) = counts.map Event.delivered ∧
      scene'.world.broker.deliveries.length =
        scene.world.broker.deliveries.length + counts.sum
  recoveries : forall e, e ∈ events -> e.step = .recover ->
    e.outcome.ok = true ∧ e.outcome.recovery = some ⟨0, 0, 0, 0, 0⟩
  neutral : forall e, e ∈ events -> e.outcome.ok = false ->
    e.after.world.counts = e.before.world.counts

variable {config : Config} {things : List Thing} {r r' r'' : Registry} {scene : Scene}

theorem Balance.nil (h : scene.Steady config things r) :
    Balance config things r r [] scene scene where
  steady := h
  grows := .same rfl
  deliveries := ⟨[], rfl, rfl⟩
  recoveries := fun _ he => absurd he List.not_mem_nil
  neutral := fun _ he => absurd he List.not_mem_nil

theorem Balance.cons {e : Event} {events : List Event} {scene' : Scene}
    (hbefore : e.before.Steady config things r) (h : e.Booked config things r r')
    (hrest : Balance config things r' r'' events e.after scene') :
    Balance config things r r'' (e :: events) e.before scene' where
  steady := hrest.steady
  grows := h.grows.trans hrest.grows
  deliveries := by
    rcases h.deliveries with ⟨made, hlength, hmade⟩
    rcases hrest.deliveries with ⟨counts, hcounts, hrestLength⟩
    cases hingestion : e.isIngestion with
    | false =>
        rw [hingestion] at hmade
        refine ⟨counts, ?_, ?_⟩
        · rw [List.filter_cons, hingestion, if_neg Bool.false_ne_true, hcounts]
        · rw [hrestLength, hlength, hmade]
          rfl
    | true =>
        rw [hingestion, if_pos rfl] at hmade
        refine ⟨made :: counts, ?_, ?_⟩
        · rw [List.filter_cons, hingestion, if_pos rfl, List.map_cons, hcounts, hmade,
            List.map_cons]
        · rw [hrestLength, hlength, List.sum_cons, Nat.add_assoc]
  recoveries := List.forall_mem_cons.mpr ⟨h.recovery, hrest.recoveries⟩
  neutral := List.forall_mem_cons.mpr ⟨h.neutral hbefore, hrest.neutral⟩

theorem Steady.balance (h : scene.Steady config things r) {steps : List Step}
    (hsteps : forall step, step ∈ steps -> step.plansFault = false)
    (hids : (scene.performAll steps).2.world.ids.Unrepeated) :
    exists r', Balance config things r r' (scene.history steps) scene
      (scene.performAll steps).2 := by
  induction steps generalizing scene r with
  | nil => exact ⟨r, .nil h⟩
  | cons step steps ih =>
      have hlater : (scene.performAll (step :: steps)).2 =
          ((scene.perform step).2.performAll steps).2 := rfl
      rw [hlater] at hids ⊢
      have hdrawn := ((scene.perform step).2.precedes_performAll steps).unrepeated hids
      rcases h.books (hsteps step List.mem_cons_self) hdrawn with ⟨r', hbooked⟩
      rcases ih hbooked.steady (fun s hs => hsteps s (List.mem_cons_of_mem _ hs)) hids with
        ⟨r'', hrest⟩
      exact ⟨r'', .cons (e := scene.event step) h hbooked hrest⟩

end Scene

/-!
# Reports
-/

/-- What a report says about the events of a run.  Sums are kept without subtraction: what
is there in the end and what was taken away is what was made. -/
structure ScenarioReport.Accounts (steps : List Step) (events : List Scene.Event)
    (report : ScenarioReport) : Prop where
  done : events.map Scene.Event.step = steps
  outcomes : report.steps = events.map Scene.Event.outcome
  numbered : report.numbered (fun index outcome => (index, outcome.word)) =
    steps.zipIdx.map fun (step, i) => (i + 1, step.word)
  triggers : report.resources.triggers + (events.map Scene.Event.triggersLost).sum =
    (events.map Scene.Event.triggersMade).sum
  topics : report.resources.topics = report.resources.triggers
  rules : report.resources.rules = report.resources.triggers
  targets : report.resources.targets + (events.map Scene.Event.targetsLost).sum =
    (events.map Scene.Event.targetsMade).sum
  subscriptions : report.resources.subscriptions = report.resources.targets
  deliveries : exists counts : List Nat,
    (events.filter Scene.Event.isIngestion).map (·.outcome.detail) =
      counts.map Scene.Event.delivered ∧
    report.resources.deliveries = counts.sum
  recoveries : forall e, e ∈ events -> e.step = .recover ->
    e.outcome.ok = true ∧ e.outcome.recovery = some ⟨0, 0, 0, 0, 0⟩
  neutral : forall e, e ∈ events -> e.outcome.ok = false ->
    e.after.world.counts = e.before.world.counts
  unbound : forall earlier e later, events = earlier ++ e :: later ->
    forall name, e.step.about? = some name ->
      (forall d, d ∈ earlier -> d.binds? ≠ some name) ->
        e.outcome.ok = false ∧ e.after = e.before

theorem Scene.Event.numbered (events : List Scene.Event) :
    ((events.map outcome).zipIdx.map fun (outcome, i) => (i + 1, outcome.word)) =
      (events.map step).zipIdx.map fun (step, i) => (i + 1, step.word) := by
  rw [List.zipIdx_map, List.zipIdx_map, List.map_map, List.map_map]
  apply List.map_congr_left
  rintro ⟨e, i⟩ _
  exact congrArg (Prod.mk (i + 1)) e.outcome_word

theorem Scenario.steady_start (scenario : Scenario) (config : Config) (ids : IdSource) :
    (scenario.start config ids).Steady config
      (World.ofThings scenario.things ids).store.things ⟨[], ids⟩ where
  configured := rfl
  mirrors := Registry.mirrors_ofThings config.naming scenario.things ids
  locks := rfl
  faults := FaultPlan.within_of_calm rfl _

/-- A scenario without planned faults gets a report, and the report gives a true account of
its steps.  The identifiers that are drawn must not repeat themselves. -/
theorem Scenario.run_accounts (scenario : Scenario) (config : Config) (ids : IdSource)
    (hvalid : config.validate = .ok ())
    (hsteps : forall step, step ∈ scenario.steps -> step.plansFault = false)
    (hids : ((scenario.start config ids).performAll scenario.steps).2.world.ids.Unrepeated) :
    exists report, scenario.run config ids = .ok report ∧
      report.Accounts scenario.steps ((scenario.start config ids).history scenario.steps) := by
  rcases (scenario.steady_start config ids).balance hsteps hids with ⟨r, hbalance⟩
  have hdone := (scenario.start config ids).steps_history scenario.steps
  have houtcomes := (scenario.start config ids).outcomes_performAll scenario.steps
  have hcounts := hbalance.steady.counts_eq
  have hrun : scenario.run config ids =
      .ok ⟨((scenario.start config ids).performAll scenario.steps).1,
        ((scenario.start config ids).performAll scenario.steps).2.world.counts⟩ := by
    rw [Scenario.run, hvalid]
    rfl
  refine ⟨_, hrun, ?_⟩
  constructor
  case done => exact hdone
  case outcomes => exact houtcomes
  case numbered =>
    have hnumbered := Scene.Event.numbered ((scenario.start config ids).history scenario.steps)
    rw [hdone, ← houtcomes] at hnumbered
    exact hnumbered
  case triggers =>
    simpa [hcounts, Registry.listings] using hbalance.grows.entries
  case topics => rw [hcounts]
  case rules => rw [hcounts]
  case targets =>
    simpa [hcounts, Registry.listings] using hbalance.grows.listings
  case subscriptions => rw [hcounts]
  case deliveries =>
    rcases hbalance.deliveries with ⟨counts, hreported, hlength⟩
    refine ⟨counts, hreported, ?_⟩
    rw [hcounts]
    exact hlength.trans (Nat.zero_add _)
  case recoveries => exact hbalance.recoveries
  case neutral => exact hbalance.neutral
  case unbound =>
    intro earlier e later hevents name habout hnames
    exact Scene.unbound_fails rfl hevents habout hnames

/-- An alarm gets a second target, loses its first one and is deleted, while another one
stays and fires.  In between a name is given again and a name is asked for that was never
given. -/
def heatwave : Scenario where
  things := [⟨⟨1⟩, "thermostat", ⟨7⟩⟩]
  steps := [.create "hot" Lifecycle.heatAlarm, .addTarget "hot" ⟨7⟩ ⟨"sms", "+4912345678"⟩,
    .create "hot" Lifecycle.heatAlarm, .delete "cold" ⟨7⟩,
    .removeTarget "hot" ⟨7⟩ "me@example.com", .recover, .create "too hot" Lifecycle.heatAlarm,
    .clearFaults, .delete "hot" ⟨7⟩,
    .ingest "thermostat" (.record [("state", .record [("reported", .record
      [("currTemp", .nat 31), ("prevTemp", .nat 29)])])])]

theorem heatwave_accounted :
    Config.validate .standard = .ok () ∧
    heatwave.steps.all (fun step => !step.plansFault) = true ∧
    exists report, heatwave.run .standard ⟨Uuid.ofNat, 0⟩ = .ok report ∧
      report.Accounts heatwave.steps
        ((heatwave.start .standard ⟨Uuid.ofNat, 0⟩).history heatwave.steps) ∧
      report.steps.map (·.ok) =
        [true, true, false, false, true, true, true, true, true, true] ∧
      report.resources.triggers = 1 ∧ report.resources.targets = 1 := by
  have hvalid : Config.validate .standard = .ok () := by decide +kernel
  have hsteps : heatwave.steps.all (fun step => !step.plansFault) = true := by decide +kernel
  have hreport : ((heatwave.run .standard ⟨Uuid.ofNat, 0⟩).toOption.map fun report =>
      (report.steps.map (·.ok), report.resources.triggers, report.resources.targets)) =
        some ([true, true, false, false, true, true, true, true, true, true], 1, 1) := by
    decide +kernel
  have hdrawn : ((heatwave.start .standard ⟨Uuid.ofNat, 0⟩).performAll
      heatwave.steps).2.world.ids.drawn ≤ 2 ^ 128 := by
    decide +kernel
  have hids := ((heatwave.start .standard ⟨Uuid.ofNat, 0⟩).precedes_performAll
    heatwave.steps).unrepeated_of_counted rfl hdrawn
  have hplans : forall step, step ∈ heatwave.steps -> step.plansFault = false :=
    fun step hstep => by simpa using List.all_eq_true.mp hsteps step hstep
  rcases heatwave.run_accounts .standard ⟨Uuid.ofNat, 0⟩ hvalid hplans hids with
    ⟨report, hrun, haccounts⟩
  rw [hrun] at hreport
  rcases Prod.mk.inj (Option.some.inj hreport) with ⟨hoks, hresources⟩
  rcases Prod.mk.inj hresources with ⟨htriggers, htargets⟩
  exact ⟨hvalid, hsteps, report, hrun, haccounts, hoks, htriggers, htargets⟩

end TelemetryTriggers
