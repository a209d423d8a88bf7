import TelemetryTriggers.Lifecycle.Create
import TelemetryTriggers.Lifecycle.Delete
import TelemetryTriggers.Lifecycle.Targets
import TelemetryTriggers.Saga.Run
import TelemetryTriggers.Scenario.Report
import TelemetryTriggers.Scenario.Step

/-!
# Running scenarios

Steps are done one after the other, on services that hold nothing but the devices
of the scenario.  A step that fails does not stop the run.

Main definitions: `Scene`, the services with the names given so far; `Scene.perform`,
one step; `Scenario.run`.
-/

namespace TelemetryTriggers

structure Scene where
  config : Config
  world : World
  names : List (String × TriggerId)

namespace Scene

def trigger? (scene : Scene) (name : String) : Option TriggerId :=
  scene.names.lookup name

def run {α : Type} (scene : Scene) (operation : Operation α) :
    Except CommandError α × Scene :=
  let (result, world) := operation.run.run scene.config.callTimeout scene.world
  (result.mapError CommandError.ofTrigger, { scene with world })

def withFaults (scene : Scene) (f : FaultPlan → FaultPlan) : Scene :=
  { scene with world := { scene.world with faults := f scene.world.faults } }

structure Success where
  detail : String
  recovery : Option RecoveryReport

def success (detail : String) : Except CommandError Success :=
  .ok ⟨detail, none⟩

def create (scene : Scene) (name : String) (request : CreateRequest) :
    Except CommandError Success × Scene :=
  if (scene.trigger? name).isSome then
    (.error (.scenario (.nameTaken name)), scene)
  else
    match scene.run (Lifecycle.create scene.config request) with
    | (.error e, scene) => (.error e, scene)
    | (.ok details, scene) =>
        (success (name ++ " created as " ++ details.trigger.id.text ++ " with " ++
            toString details.targets.length ++ " target(s)"),
          { scene with names := (name, details.trigger.id) :: scene.names })

def onTrigger (scene : Scene) (name : String)
    (f : TriggerId → Except CommandError Success × Scene) :
    Except CommandError Success × Scene :=
  match scene.trigger? name with
  | none => (.error (.scenario (.unknownName name)), scene)
  | some id => f id

def reporting {α : Type} (scene : Scene) (operation : Operation α) (detail : α → String) :
    Except CommandError Success × Scene :=
  match scene.run operation with
  | (.error e, scene) => (.error e, scene)
  | (.ok a, scene) => (success (detail a), scene)

def removeAddress (scene : Scene) (name : String) (user : UserId) (address : String)
    (id : TriggerId) : Except CommandError Success × Scene :=
  match scene.run (Lifecycle.listTargets user id) with
  | (.error e, scene) => (.error e, scene)
  | (.ok targets, scene) =>
      match targets.find? (·.address == address) with
      | none => (.error (.scenario (.noSuchAddress address name)), scene)
      | some target =>
          scene.reporting (Lifecycle.removeTarget user target.id) fun _ =>
            address ++ " removed from " ++ name

def ingest (scene : Scene) (thing : String) (document : Json) :
    Except CommandError Success × Scene :=
  match ShadowUpdate.ofDocument thing document with
  | .error e => (.error (.ofTrigger e), scene)
  | .ok u =>
      let (made, world) := scene.world.dispatch u
      (success (toString made.length ++ " notification(s) delivered"),
        { scene with world })

def standardReason : String :=
  "injected"

def planFault (scene : Scene) (operation : String) (error : ServiceError) :
    Option Nat → Option Nat → Except CommandError Success × Scene
  | some _, some _ => (.error (.scenario .timesAndAfter), scene)
  | times, after =>
      let fault := match times, after with
        | some n, _ => Fault.times error n
        | none, some n => Fault.after error n
        | none, none => Fault.always error
      (success (operation ++ " will fail"), scene.withFaults (·.set operation fault))

def sweepDetail (r : RecoveryReport) : String :=
  "purged " ++ toString r.draftsPurged ++ " draft(s), removed " ++
    toString r.rulesRemoved ++ " rule(s) and " ++ toString r.topicsRemoved ++
    " topic(s), " ++ toString r.failures ++ " failure(s)"

def perform (scene : Scene) : Step → Except CommandError Success × Scene
  | .create name request => scene.create name request
  | .delete name user =>
      scene.onTrigger name fun id =>
        scene.reporting (Lifecycle.delete scene.config user id) fun _ => name ++ " deleted"
  | .addTarget name user target =>
      scene.onTrigger name fun id =>
        scene.reporting (Lifecycle.addTarget scene.config user id target) fun added =>
          added.kind.protocol ++ " " ++ added.address ++ " added to " ++ name
  | .removeTarget name user address =>
      scene.onTrigger name (scene.removeAddress name user address)
  | .ingest thing document => scene.ingest thing document
  | .fail operation kind reason times after =>
      scene.planFault operation (kind.error (reason.getD standardReason)) times after
  | .delay operation millis =>
      (success (operation ++ " delayed by " ++ toString millis ++ "ms"),
        scene.withFaults (·.set operation (.delay millis)))
  | .clearFaults => (success "faults cleared", scene.withFaults FaultPlan.clearAll)
  | .recover =>
      match scene.run (TelemetryTriggers.recover scene.config) with
      | (.error e, scene) => (.error e, scene)
      | (.ok r, scene) => (.ok ⟨sweepDetail r, some r⟩, scene)

def outcome (step : Step) : Except CommandError Success → Outcome
  | .ok s => ⟨step.word, true, s.detail, s.recovery⟩
  | .error e => ⟨step.word, false, e.message, none⟩

def performAll (scene : Scene) : List Step → List Outcome × Scene
  | [] => ([], scene)
  | step :: steps =>
      let (result, scene) := scene.perform step
      let (outcomes, scene) := scene.performAll steps
      (outcome step result :: outcomes, scene)

end Scene

def Scenario.run (scenario : Scenario) (config : Config) (ids : IdSource) :
    Except CommandError ScenarioReport :=
  match config.validate with
  | .error e => .error (.ofTrigger e)
  | .ok () =>
      let scene : Scene := ⟨config, World.ofThings scenario.things ids, []⟩
      let (outcomes, scene) := scene.performAll scenario.steps
      .ok ⟨outcomes, scene.world.counts⟩

end TelemetryTriggers
