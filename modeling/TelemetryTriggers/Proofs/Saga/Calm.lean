import TelemetryTriggers.Proofs.Saga.Alone
import TelemetryTriggers.Saga.Undo

/-!
# Sagas that meet no fault

When no planned fault makes a call fail, every call does its work, so the run of a
saga does not depend on the plan or on the deadline.

Main definition: `Saga.play`, such a run.  The main statement is
`Saga.run_of_harmless`; the lemmas below it are one for each way in which operations
are put together.
-/

namespace TelemetryTriggers
namespace Saga

/-- The result of a saga all of whose calls do their work. -/
def play {α : Type} : Saga α -> World -> α × World
  | .done a, w => (a, w)
  | .call c next, w => (next (c.perform w).1).play (c.perform w).2
  | .acquire id next, w =>
      match w.locks.acquire? id with
      | some locks => (next true).play { w with locks }
      | none => (next false).play w
  | .release id next, w => next.play { w with locks := w.locks.release id }
  | .isHeld id next, w => (next (w.locks.isHeld id)).play w
  | .draw next, w => (next w.ids.next.1).play { w with ids := w.ids.next.2 }
  | .detach next, w => next.play w

variable {α β : Type}

theorem play_bind (s : Saga α) (f : α -> Saga β) (w : World) :
    (s.bind f).play w = (f (s.play w).1).play (s.play w).2 := by
  induction s generalizing w with
  | done a => rfl
  | call c next ih => exact ih _ _
  | acquire id next ih =>
      simp only [Saga.bind, play]
      cases w.locks.acquire? id with
      | none => exact ih _ _
      | some locks => exact ih _ _
  | release id next ih => exact ih _
  | isHeld id next ih => exact ih _ _
  | draw next ih => exact ih _ _
  | detach next ih => exact ih _

theorem play_withFaults (s : Saga α) (w : World) (p : FaultPlan) :
    s.play { w with faults := p } = ((s.play w).1, { (s.play w).2 with faults := p }) := by
  induction s generalizing w with
  | done a => rfl
  | call c next ih =>
      rw [play, play, c.perform_withFaults]
      exact ih _ _
  | acquire id next ih =>
      simp only [play]
      cases w.locks.acquire? id with
      | none => exact ih _ _
      | some locks => exact ih _ { w with locks }
  | release id next ih => exact ih { w with locks := w.locks.release id }
  | isHeld id next ih => exact ih _ _
  | draw next ih => exact ih _ { w with ids := w.ids.next.2 }
  | detach next ih => exact ih _

theorem play_call {c : Call} {next : Except ServiceError c.Reply -> Saga α} {w v : World}
    {r : Except ServiceError c.Reply} (h : c.perform w = (r, v)) :
    (Saga.call c next).play w = (next r).play v := by
  rw [play, h]

theorem integrity_play (s : Saga α) {w : World} (h : w.Integrity) :
    (s.play w).2.Integrity := by
  induction s generalizing w with
  | done a => exact h
  | call c next ih => exact ih _ (c.integrity_perform h)
  | acquire id next ih =>
      simp only [play]
      cases w.locks.acquire? id with
      | none => exact ih _ h
      | some locks => exact ih _ ⟨h.store, h.broker, h.engine⟩
  | release id next ih => exact ih ⟨h.store, h.broker, h.engine⟩
  | isHeld id next ih => exact ih _ h
  | draw next ih => exact ih _ ⟨h.store, h.broker, h.engine⟩
  | detach next ih => exact ih h

end Saga

/-!
# Harmless fault plans
-/

abbrev noFault : Call -> ServiceError -> Prop :=
  fun _ _ => False

theorem FaultPlan.within_of_calm {fails : Call -> ServiceError -> Prop} {p : FaultPlan}
    (h : p.planned = []) (deadline : Nat) : p.Within fails deadline := by
  intro c fault hfault
  rw [fault?, h] at hfault
  cases hfault

theorem Call.attempt_of_harmless {deadline : Nat} {w : World}
    (h : w.faults.Within noFault deadline) (c : Call) :
    exists p, p.Within noFault deadline ∧
      c.attempt (some deadline) w = ((c.perform w).1, { (c.perform w).2 with faults := p }) := by
  refine ⟨(w.faults.check c.operation).2, h.check c.operation, ?_⟩
  rcases c.attempt_within h with ⟨_, hfails, _⟩ | heq
  · exact hfails.elim
  · rw [heq]
    exact c.perform_withFaults w _

theorem Saga.run_of_harmless {α : Type} {deadline : Nat} {w : World}
    (h : w.faults.Within noFault deadline) (s : Saga α) :
    exists p, p.Within noFault deadline ∧
      s.run deadline w = ((s.play w).1, { (s.play w).2 with faults := p }) := by
  induction s generalizing w with
  | done a => exact ⟨w.faults, h, rfl⟩
  | call c next ih =>
      rcases c.attempt_of_harmless h with ⟨p, hp, hattempt⟩
      rcases ih (c.perform w).1 (w := { (c.perform w).2 with faults := p }) hp with
        ⟨q, hq, hrun⟩
      refine ⟨q, hq, ?_⟩
      simp only [run, hattempt, hrun, play, play_withFaults]
  | acquire id next ih =>
      simp only [run, play]
      cases w.locks.acquire? id with
      | none => exact ih false h
      | some locks => exact ih true (w := { w with locks }) h
  | release id next ih => exact ih (w := { w with locks := w.locks.release id }) h
  | isHeld id next ih => exact ih _ h
  | draw next ih => exact ih _ (w := { w with ids := w.ids.next.2 }) h
  | detach next ih => exact ih h

/-!
# Runs that meet no fault

A plan can hold faults for calls that a run never makes, or that come too late for it.
-/

def Call.Works (deadline : Nat) (c : Call) (w : World) : Prop :=
  match (w.faults.check c.operation).1 with
  | .refuse _ => False
  | .pass => True
  | .pause millis => millis ≤ deadline

theorem Call.attempt_of_works {deadline : Nat} {c : Call} {w : World}
    (h : c.Works deadline w) :
    c.attempt (some deadline) w =
      ((c.perform w).1,
        { (c.perform w).2 with faults := (w.faults.check c.operation).2 }) := by
  rw [← c.perform_withFaults]
  unfold Call.Works at h
  unfold Call.attempt
  cases hverdict : (w.faults.check c.operation).1 with
  | refuse e =>
      rw [hverdict] at h
      exact h.elim
  | pass => simp only [Call.start, hverdict]
  | pause millis =>
      rw [hverdict] at h
      simp only [Call.start, hverdict]
      rw [if_neg (Nat.not_lt.mpr h)]

theorem Call.works_of_harmless {deadline : Nat} {w : World}
    (h : w.faults.Within noFault deadline) (c : Call) : c.Works deadline w := by
  unfold Works
  cases hverdict : (w.faults.check c.operation).1 with
  | refuse e => exact h.fails_of_refuse hverdict
  | pass => trivial
  | pause millis => exact Nat.not_lt.mp fun hlate => h.fails_of_pause hverdict hlate

namespace Saga

variable {α : Type} {deadline : Nat}

def Unharmed (deadline : Nat) : Saga α -> World -> Prop
  | .done _, _ => True
  | .call c next, w =>
      c.Works deadline w ∧
        (next (c.attempt (some deadline) w).1).Unharmed deadline
          (c.attempt (some deadline) w).2
  | .acquire id next, w =>
      match w.locks.acquire? id with
      | some locks => (next true).Unharmed deadline { w with locks }
      | none => (next false).Unharmed deadline w
  | .release id next, w => next.Unharmed deadline { w with locks := w.locks.release id }
  | .isHeld id next, w => (next (w.locks.isHeld id)).Unharmed deadline w
  | .draw next, w => (next w.ids.next.1).Unharmed deadline { w with ids := w.ids.next.2 }
  | .detach next, w => next.Unharmed deadline w

theorem run_of_unharmed {w : World} (s : Saga α) (h : s.Unharmed deadline w) :
    exists p, s.run deadline w = ((s.play w).1, { (s.play w).2 with faults := p }) := by
  induction s generalizing w with
  | done a => exact ⟨w.faults, rfl⟩
  | call c next ih =>
      have hattempt := Call.attempt_of_works h.1
      have hrest := h.2
      rw [hattempt] at hrest
      rcases ih _ hrest with ⟨p, hrun⟩
      refine ⟨p, ?_⟩
      simp only [run, hattempt, hrun, play, play_withFaults]
  | acquire id next ih =>
      simp only [Unharmed] at h
      simp only [run, play]
      cases hlocks : w.locks.acquire? id with
      | none =>
          rw [hlocks] at h
          exact ih false h
      | some locks =>
          rw [hlocks] at h
          exact ih true h
  | release id next ih => exact ih h
  | isHeld id next ih => exact ih _ h
  | draw next ih => exact ih _ h
  | detach next ih => exact ih h

theorem unharmed_of_harmless {w : World} (h : w.faults.Within noFault deadline)
    (s : Saga α) : s.Unharmed deadline w := by
  induction s generalizing w with
  | done a => trivial
  | call c next ih =>
      rcases c.attempt_of_harmless h with ⟨p, hp, hattempt⟩
      refine ⟨Call.works_of_harmless h c, ?_⟩
      rw [hattempt]
      exact ih _ hp
  | acquire id next ih =>
      simp only [Unharmed]
      cases w.locks.acquire? id with
      | none => exact ih false h
      | some locks => exact ih true h
  | release id next ih => exact ih h
  | isHeld id next ih => exact ih _ h
  | draw next ih => exact ih _ h
  | detach next ih => exact ih h

end Saga

/-!
# Operations without faults
-/

namespace Operation

variable {α β : Type} {w v : World}

theorem play_bind_of_ok {op : Operation α} {f : α -> Operation β} {a : α}
    (h : op.run.play w = (.ok a, v)) : (op >>= f).run.play w = (f a).run.play v := by
  have hbind := Saga.play_bind op.run (ExceptT.bindCont f) w
  rw [h] at hbind
  exact hbind

theorem play_bind_of_error {op : Operation α} {f : α -> Operation β} {e : TriggerError}
    (h : op.run.play w = (.error e, v)) : (op >>= f).run.play w = (.error e, v) := by
  have hbind := Saga.play_bind op.run (ExceptT.bindCont f) w
  rw [h] at hbind
  exact hbind

theorem play_orUndo_of_ok {op : Operation α} {a : α} (h : op.run.play w = (.ok a, v))
    (undos : List Undo) : (op.orUndo undos).run.play w = (.ok a, v) := by
  refine (Saga.play_bind op.run _ w).trans ?_
  rw [h]
  rfl

theorem play_adapt_of_ok {op : Operation α} {a : α} (h : op.run.play w = (.ok a, v))
    (f : TriggerError -> TriggerError) : (op.adapt f).run.play w = (.ok a, v) := by
  refine (Saga.play_bind op.run _ w).trans ?_
  rw [h]
  rfl

theorem play_adapt_of_error {op : Operation α} {e : TriggerError}
    (h : op.run.play w = (.error e, v)) (f : TriggerError -> TriggerError) :
    (op.adapt f).run.play w = (.error (f e), v) := by
  refine (Saga.play_bind op.run _ w).trans ?_
  rw [h]
  rfl

theorem play_locked_of_free {id : TriggerId} {op : Operation α} {r : Except TriggerError α}
    (hfree : w.locks.isHeld id = false)
    (hop : op.run.play { w with locks := ⟨id :: w.locks.held⟩ } = (r, v)) :
    (Operation.locked id op).run.play w = (r, { v with locks := v.locks.release id }) := by
  show Saga.play (.acquire id _) w = _
  simp only [Saga.play, LockTable.acquire?_of_free hfree, if_true]
  refine (Saga.play_bind op.run _ _).trans ?_
  rw [hop]
  rfl

theorem play_ask_of_ok {c : Call} {r : c.Reply} (h : c.perform w = (.ok r, v)) :
    (ask c).run.play w = (.ok r, v) :=
  Saga.play_call h

theorem play_fresh (w : World) :
    fresh.run.play w = (.ok w.ids.next.1, { w with ids := w.ids.next.2 }) :=
  rfl

theorem play_ofSaga {s : Saga α} {a : α} (h : s.play w = (a, v)) :
    (ofSaga s).run.play w = (.ok a, v) := by
  refine (Saga.play_bind s _ w).trans ?_
  rw [h]
  rfl

theorem play_ensureGone {c : Call}
    (h : (exists r, c.perform w = (.ok r, v)) ∨
      (exists e, e.isAbsence = true ∧ c.perform w = (.error e, v))) :
    (ensureGone c).run.play w = (.ok (), v) := by
  rcases h with ⟨r, hr⟩ | ⟨e, he, hr⟩
  · exact Saga.play_call hr
  · refine (Saga.play_call hr).trans ?_
    simp only [he, if_true]
    rfl

end Operation
end TelemetryTriggers
