import TelemetryTriggers.Proofs.Services.Change
import TelemetryTriggers.Saga.Run
import TelemetryTriggers.Saga.Timeline

/-!
# Callers who stop waiting

A caller can stop waiting for a saga whenever a call of it is on its way.  What the saga has
done so far stays, and it does no more, unless it is detached: then it goes on to its end.

Main definitions: `Saga.Abandoned`, what a saga can leave behind if its caller stops waiting;
`Saga.ReadsFirst`, for sagas that change nothing before they are detached.  The main
statements are `Timeline.run_abandoned`, which finds what the clock leaves behind among it,
and `Saga.ReadsFirst.all_or_nothing`.
-/

namespace TelemetryTriggers
namespace Saga

/-- A saga that runs alone can leave this behind, if its caller waits for a while or to the
end.  A caller who stops waiting during a call does so before the call is put before the
fault plan, before its work is done or after it. -/
def Abandoned {α : Type} (deadline : Nat) : Saga α -> World -> World -> Prop
  | .done _, w, v => v = w
  | .call c next, w, v =>
      v = w ∨ v = (c.start w).2 ∨ v = (c.attempt (some deadline) w).2 ∨
        (next (c.attempt (some deadline) w).1).Abandoned deadline
          (c.attempt (some deadline) w).2 v
  | .acquire id next, w, v =>
      match w.locks.acquire? id with
      | some locks => (next true).Abandoned deadline { w with locks } v
      | none => (next false).Abandoned deadline w v
  | .release id next, w, v =>
      next.Abandoned deadline { w with locks := w.locks.release id } v
  | .isHeld id next, w, v => (next (w.locks.isHeld id)).Abandoned deadline w v
  | .draw next, w, v => (next w.ids.next.1).Abandoned deadline { w with ids := w.ids.next.2 } v
  | .detach next, w, v => v = (next.run deadline w).2

theorem abandoned_run {α : Type} (deadline : Nat) (s : Saga α) (w : World) :
    s.Abandoned deadline w (s.run deadline w).2 := by
  induction s generalizing w with
  | done a => rfl
  | call c next ih => exact Or.inr (Or.inr (Or.inr (ih _ _)))
  | acquire id next ih =>
      simp only [Abandoned, run]
      cases w.locks.acquire? id with
      | none => exact ih false w
      | some locks => exact ih true _
  | release id next ih => exact ih _
  | isHeld id next ih => exact ih _ w
  | draw next ih => exact ih _ _
  | detach next ih => rfl

end Saga

/-!
# One task on the clock
-/

namespace Timeline

variable {α : Type} {deadline : Nat}

theorem run_ended (result : Option α) (w : World) :
    run deadline ⟨[.ended result]⟩ w = ([result], w) := by
  rw [run]
  rfl

theorem run_waiting (start : Nat) (limit : Option Nat) (work : Saga α) (w : World) :
    run deadline ⟨[.waiting start limit work]⟩ w =
      run deadline ⟨[(Task.advance deadline start limit false work w).1]⟩
        (Task.advance deadline start limit false work w).2 := by
  rw [run]
  simp [wake?, Task.wake?, fire?, Task.fire?]

theorem run_pending (limit : Option Nat) (detached : Bool) (held : Pending α) (w : World) :
    run deadline ⟨[.pending limit detached held]⟩ w =
      run deadline
        ⟨[(Task.advance deadline held.wake limit detached
          (held.next (Task.finish deadline held w).1) (Task.finish deadline held w).2).1]⟩
        (Task.advance deadline held.wake limit detached
          (held.next (Task.finish deadline held w).1) (Task.finish deadline held w).2).2 := by
  rw [run]
  simp [wake?, Task.wake?, fire?, Task.fire?]

/-- What a saga that has come to an instant leaves behind in the end. -/
def remains (deadline now : Nat) (limit : Option Nat) (detached : Bool) (s : Saga α)
    (w : World) : World :=
  (run deadline ⟨[(Task.advance deadline now limit detached s w).1]⟩
    (Task.advance deadline now limit detached s w).2).2

theorem remains_call (now : Nat) (limit : Option Nat) (detached : Bool) (c : Call)
    (next : Except ServiceError c.Reply -> Saga α) (w : World) :
    (exists later, remains deadline now limit detached (.call c next) w =
      remains deadline later limit detached (next (c.attempt (some deadline) w).1)
        (c.attempt (some deadline) w).2) ∨
    (detached = false ∧ limit ≠ none ∧
      remains deadline now limit detached (.call c next) w = (c.start w).2) := by
  unfold remains
  simp only [Task.advance, Call.attempt]
  rcases c.start w with ⟨verdict, v⟩
  cases verdict with
  | refuse e => exact Or.inl ⟨now, rfl⟩
  | pass => exact Or.inl ⟨now, rfl⟩
  | pause millis =>
      simp only
      split
      · rename_i hdropped
        rw [Bool.and_eq_true, Bool.not_eq_true'] at hdropped
        refine Or.inr ⟨hdropped.1, ?_, by rw [run_ended]⟩
        rintro rfl
        cases hdropped.2
      · refine Or.inl ⟨now + min millis deadline, ?_⟩
        simp only [run_pending, Task.finish, decide_eq_true_eq]

theorem remains_of_kept {limit : Option Nat} {detached : Bool}
    (h : detached = true ∨ limit = none) (now : Nat) (s : Saga α) (w : World) :
    remains deadline now limit detached s w = (s.run deadline w).2 := by
  induction s generalizing now detached w with
  | done a =>
      unfold remains
      rw [Task.advance, run_ended]
      rfl
  | call c next ih =>
      rcases remains_call now limit detached c next w with
        ⟨later, heq⟩ | ⟨hattached, hlimit, _⟩
      · rw [heq, ih _ h]
        rfl
      · rcases h with hdetached | hnone
        · rw [hattached] at hdetached
          cases hdetached
        · exact absurd hnone hlimit
  | acquire id next ih =>
      unfold remains Task.advance Saga.run
      cases w.locks.acquire? id with
      | none => exact ih false h now w
      | some locks => exact ih true h now _
  | release id next ih => exact ih h now _
  | isHeld id next ih => exact ih _ h now w
  | draw next ih => exact ih _ h now _
  | detach next ih => exact ih (Or.inl rfl) now w

theorem remains_abandoned (limit : Option Nat) (now : Nat) (s : Saga α) (w : World) :
    s.Abandoned deadline w (remains deadline now limit false s w) := by
  induction s generalizing now w with
  | done a =>
      unfold remains
      rw [Task.advance, run_ended]
      rfl
  | call c next ih =>
      rcases remains_call now limit false c next w with ⟨later, heq⟩ | ⟨_, _, heq⟩
      · rw [heq]
        exact Or.inr (Or.inr (Or.inr (ih _ later _)))
      · exact Or.inr (Or.inl heq)
  | acquire id next ih =>
      unfold remains Task.advance Saga.Abandoned
      cases w.locks.acquire? id with
      | none => exact ih false now w
      | some locks => exact ih true now _
  | release id next ih => exact ih now _
  | isHeld id next ih => exact ih _ now w
  | draw next ih => exact ih _ now _
  | detach next ih => exact remains_of_kept (Or.inl rfl) now next w

theorem runBranches_single (b : Branch α) (w : World) :
    (runBranches deadline [b] w).2 =
      remains deadline b.start (b.patience.map (b.start + ·)) false b.work w := by
  unfold runBranches
  rw [List.map_singleton, Task.ofBranch, run_waiting]
  rfl

/-- Whenever the caller of a branch on a clock of its own stops waiting, the branch leaves
behind what an abandoned saga can. -/
theorem run_abandoned (b : Branch α) (w : World) :
    b.work.Abandoned deadline w (runBranches deadline [b] w).2 := by
  rw [runBranches_single]
  exact remains_abandoned _ _ _ _

theorem run_awaited (start : Nat) (work : Saga α) (w : World) :
    (runBranches deadline [⟨start, none, work⟩] w).2 = (work.run deadline w).2 := by
  rw [runBranches_single]
  exact remains_of_kept (Or.inr rfl) _ _ _

end Timeline

/-!
# Sagas that read until they are detached
-/

theorem Call.Reads.attempt_eq {c : Call} (h : c.Reads) (deadline : Option Nat) (w : World) :
    exists faults, (c.attempt deadline w).2 = { w with faults } := by
  have hstart : (c.start w).2 = { w with faults := (c.start w).2.faults } := rfl
  rcases c.attempt_cases deadline w with ⟨e, heq⟩ | heq
  · rw [heq]
    exact ⟨_, hstart⟩
  · rw [heq, h.perform_eq]
    exact ⟨_, hstart⟩

namespace Saga

def ReadsFirst {α : Type} : Saga α -> Prop
  | .done _ => True
  | .call c next => c.Reads ∧ forall reply, (next reply).ReadsFirst
  | .detach _ => True
  | _ => False

theorem ReadsFirst.bind {α β : Type} {s : Saga α} {f : α -> Saga β} (hs : s.ReadsFirst)
    (hf : forall a, (f a).ReadsFirst) : (s.bind f).ReadsFirst := by
  induction s with
  | done a => exact hf a
  | call c next ih => exact ⟨hs.1, fun reply => ih reply (hs.2 reply)⟩
  | detach next => trivial
  | _ => exact hs.elim

/-- A saga that is abandoned has done everything, or nothing but leave a trace in the fault
plan. -/
theorem ReadsFirst.all_or_nothing {α : Type} {deadline : Nat} {s : Saga α} {w v : World}
    (hs : s.ReadsFirst) (h : s.Abandoned deadline w v) :
    v = (s.run deadline w).2 ∨ exists faults, v = { w with faults } := by
  induction s generalizing w with
  | done a => exact Or.inl h
  | call c next ih =>
      have hread := hs.1.attempt_eq (some deadline) w
      rcases h with rfl | rfl | rfl | h
      · exact Or.inr ⟨v.faults, rfl⟩
      · exact Or.inr ⟨_, rfl⟩
      · exact Or.inr hread
      · rcases ih _ (hs.2 _) h with heq | ⟨faults, heq⟩
        · exact Or.inl heq
        · rcases hread with ⟨_, hread⟩
          rw [hread] at heq
          exact Or.inr ⟨faults, heq⟩
  | detach next => exact Or.inl h
  | _ => exact hs.elim

end Saga

namespace Operation

structure ReadsFirst {α : Type} (op : Operation α) : Prop where
  run : Saga.ReadsFirst op.run

namespace ReadsFirst

variable {α β : Type}

theorem bind {op : Operation α} {f : α -> Operation β} (h : ReadsFirst op)
    (hf : forall a, ReadsFirst (f a)) : ReadsFirst (op >>= f) := by
  constructor
  apply h.run.bind
  intro r
  cases r with
  | ok a => exact (hf a).run
  | error e => trivial

theorem pure (a : α) : ReadsFirst (Pure.pure a) :=
  ⟨trivial⟩

theorem ofExcept (result : Except TriggerError α) : ReadsFirst (Operation.ofExcept result) :=
  ⟨trivial⟩

theorem orFail (value : Option α) (e : TriggerError) : ReadsFirst (Operation.orFail value e) := by
  cases value with
  | some a => exact pure a
  | none => exact ⟨trivial⟩

theorem adapt {op : Operation α} (h : ReadsFirst op) (f : TriggerError -> TriggerError) :
    ReadsFirst (op.adapt f) := by
  constructor
  apply h.run.bind
  intro r
  cases r with
  | ok a => trivial
  | error e => trivial

theorem ask {c : Call} (h : c.Reads) : ReadsFirst (Operation.ask c) := by
  refine ⟨h, fun reply => ?_⟩
  cases reply with
  | ok r => trivial
  | error e => trivial

theorem detached (op : Operation α) : ReadsFirst (Operation.detached op) :=
  ⟨trivial⟩

end ReadsFirst
end Operation
end TelemetryTriggers
