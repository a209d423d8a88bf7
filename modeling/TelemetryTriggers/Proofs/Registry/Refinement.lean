import TelemetryTriggers.Proofs.Registry.Growth
import TelemetryTriggers.Proofs.Registry.Removal

/-!
# An orchestrator is a plain registry

Without faults, requests that are served one after the other are answered as the plain
registry answers them, and after each one the services show what the registry is then.

Main definition: `World.serve`.  The main statements are
`Registry.Mirrors.follows_step`, for one request, and `World.serve_refines`, for any
number of them.
-/

namespace TelemetryTriggers

def World.serve (config : Config) :
    List Request -> World -> List (Except TriggerError Answer × World)
  | [], _ => []
  | request :: requests, w =>
      let served := (request.operation config).run.run config.callTimeout w
      served :: serve config requests served.2

namespace Registry

variable {config : Config} {things : List Thing} {r : Registry} {w : World}

theorem Mirrors.follows_step (h : r.Mirrors config.naming things w)
    (hlocks : w.locks = .empty) (request : Request)
    (hids : (step config things request r).2.ids.Unrepeated) :
    Follows config.naming things (request.operation config) w
      (step config things request r) := by
  cases request with
  | create request =>
      rw [step, answered_snd] at hids
      exact (h.follows_create config hlocks request hids).answered .created
  | delete user id =>
      exact (h.follows_delete config hlocks user id).answered fun _ => .deleted
  | addTarget user id spec =>
      rw [step, answered_snd] at hids
      exact (h.follows_addTarget config hlocks user id spec hids).answered .added
  | removeTarget user target =>
      exact (h.follows_removeTarget hlocks user target).answered fun _ => .removed
  | getTrigger user id => exact (h.follows_getTrigger hlocks user id).answered .trigger
  | listTriggers user => exact (h.follows_listTriggers config hlocks user).answered .triggers
  | listTargets user id => exact (h.follows_listTargets hlocks user id).answered .targets
  | getTarget user target => exact (h.follows_getTarget config hlocks user target).answered .target
  | recover => exact (h.follows_recover config hlocks).answered .recovered

theorem mirrors_ofThings (naming : ResourceNaming) (things : List Thing) (ids : IdSource) :
    Mirrors naming (World.ofThings things ids).store.things ⟨[], ids⟩
      (World.ofThings things ids) := by
  rcases World.rows_ofThings things ids with ⟨htriggers, htargets⟩
  constructor
  case integrity => exact World.integrity_ofThings things ids
  case drawn => exact fun e he => absurd he List.not_mem_nil
  case shows =>
    constructor
    case things => rfl
    case triggers => exact htriggers
    case targets => exact fun e he => absurd he List.not_mem_nil
    case owned =>
      intro q hq
      rw [htargets] at hq
      exact absurd hq List.not_mem_nil
    case topics => rfl
    case subscriptions =>
      rw [htargets]
      rfl
    case rules => rfl
    case deliveries => rfl
    case ids => rfl

structure Agrees (naming : ResourceNaming) (things : List Thing)
    (got : Except TriggerError Answer × World) (due : Except TriggerError Answer × Registry) :
    Prop where
  answer : got.1 = due.1
  shows : due.2.Shows naming things got.2
  locks : got.2.locks = .empty

theorem Mirrors.serve_agrees (requests : List Request) (h : r.Mirrors config.naming things w)
    (hlocks : w.locks = .empty) (hfaults : w.faults.Within noFault config.callTimeout)
    (hids : forall due, due ∈ serve config things requests r -> due.2.ids.Unrepeated) :
    List.Forall₂ (Agrees config.naming things) (w.serve config requests)
      (serve config things requests r) := by
  induction requests generalizing r w with
  | nil => exact .nil
  | cons request requests ih =>
      rcases h.follows_step hlocks request (hids _ List.mem_cons_self) with
        ⟨v, hplay, hmirrors, hfree⟩
      rcases Saga.run_of_harmless hfaults (request.operation config).run with ⟨p, hp, hrun⟩
      rw [hplay] at hrun
      rw [World.serve, hrun]
      have hafter := hmirrors.around p v.locks
      refine .cons ⟨rfl, hafter.shows, hfree⟩ (ih hafter hfree hp ?_)
      exact fun due hdue => hids due (List.mem_cons_of_mem _ hdue)

end Registry

/-!
# The whole run
-/

namespace Registry

variable (config : Config) (things : List Thing)

theorem precedes_step (request : Request) (r : Registry) :
    r.ids.Precedes (step config things request r).2.ids := by
  have hread : forall {α : Type} (f : Entry -> α) user id,
      (read f user id r).2.ids = r.ids := by
    intro α f user id
    rw [read]
    split <;> rfl
  cases request with
  | create request =>
      rw [step, answered_snd, create]
      split
      · exact .refl _
      · rw [createValid]
        split
        · exact r.ids.precedes_next
        · exact r.ids.precedes_next.trans (precedes_enlistAll _ _)
  | delete user id =>
      rw [step, answered_snd, delete]
      split
      · exact .refl _
      · exact .refl _
  | addTarget user id spec =>
      rw [step, answered_snd, addTarget]
      split
      · exact .refl _
      · split
        · exact .refl _
        · split
          · exact .refl _
          · rename_i target _ _ _ _ _
            exact precedes_enlist target r.ids
  | removeTarget user target =>
      rw [step, answered_snd, removeTarget]
      split
      · exact .refl _
      · exact .refl _
  | getTrigger user id =>
      rw [step, answered_snd, hread]
      exact .refl _
  | listTriggers user => exact .refl _
  | listTargets user id =>
      rw [step, answered_snd, hread]
      exact .refl _
  | getTarget user target =>
      rw [step, answered_snd, getTarget]
      split
      · exact .refl _
      · exact .refl _
  | recover => exact .refl _

theorem precedes_serve (requests : List Request) (r : Registry)
    (due : Except TriggerError Answer × Registry)
    (hdue : due ∈ serve config things requests r) : r.ids.Precedes due.2.ids := by
  induction requests generalizing r with
  | nil => exact absurd hdue List.not_mem_nil
  | cons request requests ih =>
      have hstep := precedes_step config things request r
      rcases List.mem_cons.mp hdue with rfl | hlater
      · exact hstep
      · exact hstep.trans (ih _ hlater)

end Registry

/-- From services that hold nothing but devices on, every answer is the one of the
registry, and after every request the services show the registry and nothing else.  The
identifiers that are drawn must not repeat themselves. -/
theorem World.serve_refines (config : Config) (things : List Thing) (ids : IdSource)
    {faults : FaultPlan} (hfaults : faults.Within noFault config.callTimeout)
    (requests : List Request)
    (hids : forall due,
      due ∈ Registry.serve config (ofThings things ids).store.things requests ⟨[], ids⟩ ->
        due.2.ids.Unrepeated) :
    List.Forall₂ (Registry.Agrees config.naming (ofThings things ids).store.things)
      (serve config requests { ofThings things ids with faults })
      (Registry.serve config (ofThings things ids).store.things requests ⟨[], ids⟩) := by
  have hstart := Registry.mirrors_ofThings config.naming things ids
  exact (hstart.around faults _).serve_agrees requests rfl hfaults hids

/-- An alarm is created, gets a second target and loses the first one, and is deleted by
its owner after somebody else has tried. -/
def visits : List Request :=
  [.create Lifecycle.heatAlarm, .addTarget ⟨7⟩ ⟨Uuid.ofNat 0⟩ ⟨"sms", "+4912345678"⟩, .recover,
    .removeTarget ⟨7⟩ ⟨Uuid.ofNat 2⟩, .delete ⟨8⟩ ⟨Uuid.ofNat 0⟩, .getTrigger ⟨7⟩ ⟨Uuid.ofNat 0⟩,
    .delete ⟨7⟩ ⟨Uuid.ofNat 0⟩]

theorem visits_refined :
    ((Registry.serve .standard [⟨⟨1⟩, "thermostat", ⟨7⟩⟩] visits
      ⟨[], ⟨Uuid.ofNat, 0⟩⟩).map fun due => (due.1.isOk, due.2.entries.length)) =
        [(true, 1), (true, 1), (true, 1), (true, 1), (false, 1), (true, 1), (true, 0)] ∧
    List.Forall₂ (Registry.Agrees Config.standard.naming [⟨⟨1⟩, "thermostat", ⟨7⟩⟩])
      (World.serve .standard visits (.ofThings [⟨⟨1⟩, "thermostat", ⟨7⟩⟩] ⟨Uuid.ofNat, 0⟩))
      (Registry.serve .standard [⟨⟨1⟩, "thermostat", ⟨7⟩⟩] visits
        ⟨[], ⟨Uuid.ofNat, 0⟩⟩) := by
  refine ⟨by decide +kernel, ?_⟩
  apply World.serve_refines .standard [⟨⟨1⟩, "thermostat", ⟨7⟩⟩] ⟨Uuid.ofNat, 0⟩
    (FaultPlan.within_of_calm rfl _)
  intro due hdue i j hi hj
  have hdrawn : ((Registry.serve .standard [⟨⟨1⟩, "thermostat", ⟨7⟩⟩] visits
      ⟨[], ⟨Uuid.ofNat, 0⟩⟩).all fun due => due.2.ids.drawn ≤ 5) = true := by
    decide +kernel
  have hbound : due.2.ids.drawn ≤ 5 := by simpa using List.all_eq_true.mp hdrawn due hdue
  have hsequence := (Registry.precedes_serve _ _ visits _ due hdue).sequence
  have hdistinct : forall i, i < 5 -> forall j, j < 5 ->
      Uuid.ofNat i = Uuid.ofNat j -> i = j := by
    decide +kernel
  rw [hsequence]
  exact hdistinct i (Nat.lt_of_lt_of_le hi hbound) j (Nat.lt_of_lt_of_le hj hbound)

end TelemetryTriggers
