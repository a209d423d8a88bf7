import TelemetryTriggers.Proofs.Orchestrator.System
import TelemetryTriggers.Proofs.Saga.Alone

/-!
# Schedules

A schedule says who is next.  An operation that runs alone does one, so what holds of
all reachable systems holds of its run.

Main definitions: `System.play`, a schedule in which calls do their work;
`System.Reaches`, a reachable system with one thread apart.  Main statements:
`System.Reachable.play` and `System.Reachable.run`.
-/

namespace TelemetryTriggers

/-!
# Schedules without faults
-/

def Saga.next? {α : Type} : Saga α -> Standing -> World -> Option (Standing × World × Saga α)
  | .done _, _, _ => none
  | .call c next, st, w => some (st, (c.perform w).2, next (c.perform w).1)
  | .acquire id next, st, w =>
      match w.locks.acquire? id with
      | some locks => some ({ st with locks := id :: st.locks }, { w with locks }, next true)
      | none => some (st, w, next false)
  | .release id next, st, w =>
      some ({ st with locks := st.locks.filter (· != id) },
        { w with locks := w.locks.release id }, next)
  | .isHeld id next, st, w => some (st, w, next (w.locks.isHeld id))
  | .draw next, st, w =>
      some ({ st with drawn := st.drawn ++ [w.ids.next.1] }, { w with ids := w.ids.next.2 },
        next w.ids.next.1)
  | .detach next, st, w => some ({ st with detached := true }, w, next)

theorem Saga.step_of_next? {α : Type} {fails : Call -> ServiceError -> Prop} {s s' : Saga α}
    {st st' : Standing} {w v : World} (h : s.next? st w = some (st', v, s')) :
    s.Step fails st w st' v s' := by
  cases s with
  | done a => cases h
  | call c next =>
      cases h
      exact .call c next st w
  | acquire id next =>
      simp only [next?] at h
      cases hlocks : w.locks.acquire? id with
      | none =>
          rw [hlocks] at h
          cases h
          exact .busy id next st w hlocks
      | some locks =>
          rw [hlocks] at h
          cases h
          exact .acquire id next st w locks hlocks
  | release id next =>
      cases h
      exact .release id s' st w
  | isHeld id next =>
      cases h
      exact .isHeld id next st w
  | draw next =>
      cases h
      exact .draw next st w
  | detach next =>
      cases h
      exact .detach s' st w

inductive Turn
  | start (request : Request)
  | go (place : Nat)
  | restart

namespace System

def go? (place : Nat) (s : System) : Option System :=
  match s.threads[place]? with
  | some ⟨request, st, some work⟩ =>
      (work.next? st s.world).map fun (st', world, work') =>
        ⟨world, s.threads.set place ⟨request, st', some work'⟩⟩
  | _ => none

def turn (config : Config) (s : System) : Turn -> System
  | .start request => { s with threads := s.threads ++ [.start config request] }
  | .go place => (s.go? place).getD s
  | .restart => ⟨{ s.world with locks := .empty }, s.threads.map Thread.dropped⟩

def play (config : Config) (s : System) (turns : List Turn) : System :=
  turns.foldl (turn config) s

variable {config : Config} {fails : Call -> ServiceError -> Prop} {things : List Thing}
  {ids : IdSource} {s t : System} {w : World} {threads : List Thread} {place : Nat}

theorem play_starts (config : Config) (s : System) (requests : List Request) :
    s.play config (requests.map .start) =
      ⟨s.world, s.threads ++ requests.map (Thread.start config)⟩ := by
  induction requests generalizing s with
  | nil => rw [List.map_nil, List.map_nil, List.append_nil, play, List.foldl_nil]
  | cons request requests ih =>
      rw [List.map_cons, List.map_cons, List.append_cons]
      exact ih (s.turn config (.start request))

theorem moves_of_go? (h : s.go? place = some t) : Moves fails place s t := by
  simp only [go?] at h
  split at h
  · rename_i request st work hplace
    rcases Option.map_eq_some_iff.mp h with ⟨⟨st', v, work'⟩, hnext, rfl⟩
    exact .move hplace (Saga.step_of_next? hnext)
  · cases h

theorem moves_turn (h : (s.go? place).isSome = true) :
    Moves fails place s (s.turn config (.go place)) := by
  rcases Option.isSome_iff_exists.mp h with ⟨t, hgo⟩
  show Moves fails place s ((s.go? place).getD s)
  rw [hgo]
  exact moves_of_go? hgo

theorem step_restart (config : Config) (s : System) :
    Step config fails s (s.turn config .restart) :=
  .restart s.world s.threads

theorem ids_restart (config : Config) (s : System) :
    (s.turn config .restart).world.ids = s.world.ids :=
  rfl

theorem Reachable.turn (hs : Reachable config fails things ids s) (turn : Turn) :
    Reachable config fails things ids (s.turn config turn) := by
  cases turn with
  | start request => exact hs.step (.start request s.world s.threads)
  | go place =>
      show Reachable config fails things ids ((s.go? place).getD s)
      cases hgo : s.go? place with
      | none => exact hs
      | some t => exact hs.step (.move (moves_of_go? hgo))
  | restart => exact hs.step (step_restart config s)

theorem Reachable.play (hs : Reachable config fails things ids s) (turns : List Turn) :
    Reachable config fails things ids (s.play config turns) := by
  induction turns generalizing s with
  | nil => exact hs
  | cons turn turns ih => exact ih (hs.turn turn)

end System

/-!
# One operation at a time
-/

theorem Operation.run_answer {α : Type} (op : Operation α) (answer : α -> Answer)
    (deadline : Nat) (w : World) :
    ((op >>= fun a => pure (answer a)).run.run deadline w).2 = (op.run.run deadline w).2 := by
  have hbind : (op >>= fun a => pure (answer a)).run =
      op.run.bind (ExceptT.bindCont fun a => pure (answer a)) := rfl
  rw [hbind, Saga.run_bind]
  cases (op.run.run deadline w).1 with
  | ok a => rfl
  | error e => rfl

abbrev anyFault : Call -> ServiceError -> Prop :=
  fun _ _ => True

namespace System

structure Reaches (config : Config) (things : List Thing) (ids : IdSource)
    (others : List Thread) (place : Nat) (thread : Thread) (w : World) : Prop where
  inside : place < others.length
  reachable : Reachable config anyFault things ids ⟨w, others.set place thread⟩

namespace Reaches

variable {config : Config} {things : List Thing} {ids : IdSource} {others : List Thread}
  {place : Nat} {request : Request} {st st' : Standing} {w v : World}
  {work work' : Saga (Except TriggerError Answer)}

theorem step (h : Reaches config things ids others place ⟨request, st, some work⟩ w)
    (hstep : work.Step anyFault st w st' v work') :
    Reaches config things ids others place ⟨request, st', some work'⟩ v where
  inside := h.inside
  reachable := by
    have hplace : (others.set place ⟨request, st, some work⟩)[place]? =
        some ⟨request, st, some work⟩ := List.getElem?_set_self h.inside
    have hnext := h.reachable.step (.move (.move hplace hstep))
    rw [List.set_set] at hnext
    exact hnext

theorem replan {thread : Thread} (h : Reaches config things ids others place thread w)
    (faults : FaultPlan) :
    Reaches config things ids others place thread { w with faults } where
  inside := h.inside
  reachable := h.reachable.step (.replan faults w _)

variable {c : Call} {next : Except ServiceError c.Reply -> Saga (Except TriggerError Answer)}

theorem attempt (h : Reaches config things ids others place
      ⟨request, st, some (.call c next)⟩ w) (deadline : Nat) :
    Reaches config things ids others place
      ⟨request, st, some (next (c.attempt (some deadline) w).1)⟩
      (c.attempt (some deadline) w).2 := by
  have hstart := h.replan (w.faults.check c.operation).2
  rcases c.attempt_cases (some deadline) w with ⟨e, heq⟩ | heq
  · rw [heq]
    exact hstart.step (.failure c next st _ e trivial)
  · rw [heq]
    exact hstart.step (.call c next st _)

theorem run (h : Reaches config things ids others place ⟨request, st, some work⟩ w)
    (deadline : Nat) :
    exists st', Reaches config things ids others place
      ⟨request, st', some (.done (work.run deadline w).1)⟩ (work.run deadline w).2 := by
  induction work generalizing st w with
  | done a => exact ⟨st, h⟩
  | call c next ih => exact ih _ (h.attempt deadline)
  | acquire id next ih =>
      simp only [Saga.run]
      cases hlocks : w.locks.acquire? id with
      | none => exact ih false (h.step (.busy id next st w hlocks))
      | some locks => exact ih true (h.step (.acquire id next st w locks hlocks))
  | release id next ih => exact ih (h.step (.release id next st w))
  | isHeld id next ih => exact ih _ (h.step (.isHeld id next st w))
  | draw next ih => exact ih _ (h.step (.draw next st w))
  | detach next ih => exact ih (h.step (.detach next st w))

end Reaches

variable {config : Config} {things : List Thing} {ids : IdSource} {s : System}

/-- Running the operation of a request on a reachable system leaves a reachable one, in which
the operation has ended. -/
theorem Reachable.run (hs : Reachable config anyFault things ids s) (request : Request)
    (deadline : Nat) :
    exists st, Reachable config anyFault things ids
      ⟨((request.operation config).run.run deadline s.world).2, s.threads ++
        [⟨request, st, some (.done ((request.operation config).run.run deadline s.world).1)⟩]⟩ := by
  have hset : forall thread,
      (s.threads ++ [Thread.start config request]).set s.threads.length thread =
        s.threads ++ [thread] := by simp
  have hstart : Reaches config things ids (s.threads ++ [.start config request])
      s.threads.length (.start config request) s.world := by
    constructor
    · simp
    · rw [hset]
      exact hs.step (.start request s.world s.threads)
  rcases hstart.run deadline with ⟨st, hend⟩
  refine ⟨st, ?_⟩
  rw [← hset]
  exact hend.reachable

end System
end TelemetryTriggers
