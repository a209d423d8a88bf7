import TelemetryTriggers.Saga.Program

/-!
# Running one saga

A saga that runs alone does its steps one after another.  Every call has the same
deadline.

Main definition: `Saga.run`.  The main statement is `run_bind`: running a sequence
of sagas is running them in sequence.
-/

namespace TelemetryTriggers
namespace Saga

def run {α : Type} (deadline : Nat) : Saga α → World → α × World
  | .done result, w => (result, w)
  | .call c next, w =>
      let (reply, w) := c.attempt (some deadline) w
      (next reply).run deadline w
  | .acquire id next, w =>
      match w.locks.acquire? id with
      | some locks => (next true).run deadline { w with locks }
      | none => (next false).run deadline w
  | .release id next, w => next.run deadline { w with locks := w.locks.release id }
  | .isHeld id next, w => (next (w.locks.isHeld id)).run deadline w
  | .draw next, w =>
      let (u, ids) := w.ids.next
      (next u).run deadline { w with ids }
  | .detach next, w => next.run deadline w

theorem run_bind {α β : Type} (deadline : Nat) (s : Saga α) (f : α → Saga β)
    (w : World) :
    (s.bind f).run deadline w =
      (f (s.run deadline w).1).run deadline (s.run deadline w).2 := by
  induction s generalizing w with
  | done => rfl
  | call c next ih => simp only [Saga.bind, run, ih]
  | acquire id next ih =>
      simp only [Saga.bind, run]
      cases w.locks.acquire? id with
      | none => simp only [ih]
      | some locks => simp only [ih]
  | release id next ih => simp only [Saga.bind, run, ih]
  | isHeld id next ih => simp only [Saga.bind, run, ih]
  | draw next ih => simp only [Saga.bind, run, ih]
  | detach next ih => simp only [Saga.bind, run, ih]

end Saga
end TelemetryTriggers
