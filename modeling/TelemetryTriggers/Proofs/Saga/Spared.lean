import TelemetryTriggers.Proofs.Saga.Harm
import TelemetryTriggers.Proofs.Saga.Only

/-!
# Sagas that faults spare

A plan that makes only some calls fail spares a saga that makes none of them: the saga runs
as if there were no faults.  Of a sequence, the part before the failing call and the part
after it run one after the other, and the faults that they meet add up.

The main statements are `Saga.run_of_spared` and `Saga.harms_bind`.
-/

namespace TelemetryTriggers

theorem FaultPlan.within_set (operation : String) (fault : Fault) (deadline : Nat) :
    (FaultPlan.empty.set operation fault).Within (fun c _ => c.operation = operation)
      deadline := by
  intro c f hf
  by_cases hop : c.operation = operation
  · cases f with
    | delay millis => exact fun _ => hop
    | _ => exact hop
  · have hnone := FaultPlan.empty.fault?_plan_of_ne (some fault) hop
    rw [FaultPlan.plan, hf] at hnone
    cases hnone

/-!
# Runs
-/

section Spared

variable {α β : Type} {fails : Call -> ServiceError -> Prop} {deadline : Nat} {w v : World}

theorem Call.reachable_attempt (c : Call) (hw : w.Reachable) :
    (c.attempt (some deadline) w).2.Reachable := by
  have hstart : (c.start w).2.Reachable := hw.around _ _ _
  rcases c.attempt_cases (some deadline) w with ⟨e, heq⟩ | heq
  · rw [heq]
    exact hstart
  · rw [heq]
    exact hstart.call c

theorem Saga.reachable_run (deadline : Nat) (s : Saga α) (hw : w.Reachable) :
    (s.run deadline w).2.Reachable := by
  induction s generalizing w with
  | done a => exact hw
  | call c next ih => exact ih _ (c.reachable_attempt hw)
  | acquire id next ih =>
      simp only [run]
      cases w.locks.acquire? id with
      | none => exact ih false hw
      | some locks => exact ih true (hw.around _ _ _)
  | release id next ih => exact ih (hw.around _ _ _)
  | isHeld id next ih => exact ih _ hw
  | draw next ih => exact ih _ (hw.around _ _ _)
  | detach next ih => exact ih hw

theorem Saga.reachable_play (s : Saga α) (hw : w.Reachable) : (s.play w).2.Reachable := by
  have hcalm : FaultPlan.empty.Within noFault 0 := FaultPlan.within_of_calm rfl 0
  rcases Saga.run_of_harmless (s := s) (w := { w with faults := .empty }) hcalm with ⟨p, _, hrun⟩
  have hreach := s.reachable_run 0 (hw.around .empty w.locks w.ids)
  rw [hrun, s.play_withFaults] at hreach
  exact hreach.around (s.play w).2.faults _ _

theorem Call.attempt_of_spared {c : Call} (hspared : forall e, ¬fails c e)
    (hfaults : w.faults.Within fails deadline) :
    exists p, p.Within fails deadline ∧
      c.attempt (some deadline) w = ((c.perform w).1, { (c.perform w).2 with faults := p }) := by
  refine ⟨(w.faults.check c.operation).2, hfaults.check c.operation, ?_⟩
  rcases c.attempt_within hfaults with ⟨e, he, _⟩ | heq
  · exact absurd he (hspared e)
  · rw [heq]
    exact c.perform_withFaults w _

theorem Saga.run_of_spared {s : Saga α} (hspared : s.Only fun c => forall e, ¬fails c e)
    (hfaults : w.faults.Within fails deadline) :
    exists p, p.Within fails deadline ∧
      s.run deadline w = ((s.play w).1, { (s.play w).2 with faults := p }) := by
  induction s generalizing w with
  | done a => exact ⟨w.faults, hfaults, rfl⟩
  | call c next ih =>
      rcases Call.attempt_of_spared hspared.1 hfaults with ⟨p, hp, hattempt⟩
      rcases ih (c.perform w).1 (hspared.2 _) (w := { (c.perform w).2 with faults := p }) hp with
        ⟨q, hq, hrun⟩
      refine ⟨q, hq, ?_⟩
      simp only [run, hattempt, hrun, play, play_withFaults]
  | acquire id next ih =>
      simp only [run, play]
      cases w.locks.acquire? id with
      | none => exact ih false (hspared false) hfaults
      | some locks => exact ih true (hspared true) (w := { w with locks }) hfaults
  | release id next ih =>
      exact ih hspared (w := { w with locks := w.locks.release id }) hfaults
  | isHeld id next ih => exact ih _ (hspared _) hfaults
  | draw next ih => exact ih _ (hspared _) (w := { w with ids := w.ids.next.2 }) hfaults
  | detach next ih => exact ih hspared hfaults

namespace Operation

theorem run_of_spared {op : Operation α} {result : Except TriggerError α}
    (hspared : op.Only fun c => forall e, ¬fails c e)
    (hfaults : w.faults.Within fails deadline) (hplay : op.run.play w = (result, v)) :
    exists p, p.Within fails deadline ∧
      op.run.run deadline w = (result, { v with faults := p }) := by
  rcases Saga.run_of_spared hspared.run hfaults with ⟨p, hp, hrun⟩
  rw [hplay] at hrun
  exact ⟨p, hp, hrun⟩

theorem run_bind_of_ok {op : Operation α} {f : α -> Operation β} {a : α}
    (h : op.run.run deadline w = (.ok a, v)) :
    (op >>= f).run.run deadline w = (f a).run.run deadline v := by
  have hbind := Saga.run_bind deadline op.run (ExceptT.bindCont f) w
  rw [h] at hbind
  exact hbind

theorem run_bind_of_error {op : Operation α} {f : α -> Operation β} {e : TriggerError}
    (h : op.run.run deadline w = (.error e, v)) :
    (op >>= f).run.run deadline w = (.error e, v) := by
  have hbind := Saga.run_bind deadline op.run (ExceptT.bindCont f) w
  rw [h] at hbind
  exact hbind

theorem run_ofSaga {s : Saga α} {a : α} (h : s.run deadline w = (a, v)) :
    (ofSaga s).run.run deadline w = (.ok a, v) := by
  refine (Saga.run_bind deadline s _ w).trans ?_
  rw [h]
  rfl

end Operation

/-!
# Counting the faults of a sequence
-/

theorem Saga.harms_bind (deadline : Nat) (s : Saga α) (f : α -> Saga β) (w : World) :
    (s.bind f).harms deadline w =
      s.harms deadline w +
        (f (s.run deadline w).1).harms deadline (s.run deadline w).2 := by
  induction s generalizing w with
  | done a => exact (Nat.zero_add _).symm
  | call c next ih =>
      simp only [Saga.bind, harms, run, ih]
      exact (Nat.add_assoc _ _ _).symm
  | acquire id next ih =>
      simp only [Saga.bind, harms, run]
      cases w.locks.acquire? id with
      | none => exact ih false w
      | some locks => exact ih true _
  | release id next ih => exact ih _
  | isHeld id next ih => exact ih _ _
  | draw next ih => exact ih _ _
  | detach next ih => exact ih _

theorem Operation.harms_bind_of_ok {op : Operation α} {f : α -> Operation β} {a : α}
    (h : op.run.run deadline w = (.ok a, v)) :
    (op >>= f).run.harms deadline w =
      op.run.harms deadline w + (f a).run.harms deadline v := by
  have hbind := Saga.harms_bind deadline op.run (ExceptT.bindCont f) w
  rw [h] at hbind
  exact hbind

theorem Operation.harms_ofSaga (s : Saga α) (w : World) :
    (ofSaga s).run.harms deadline w = s.harms deadline w :=
  Saga.harms_bind deadline s _ w

theorem Operation.harms_le_bind (op : Operation α) (f : α -> Operation β) (w : World) :
    op.run.harms deadline w ≤ (op >>= f).run.harms deadline w := by
  have hbind := Saga.harms_bind deadline op.run (ExceptT.bindCont f) w
  exact hbind ▸ Nat.le_add_right _ _

end Spared

end TelemetryTriggers
