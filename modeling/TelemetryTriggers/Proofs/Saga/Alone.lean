import TelemetryTriggers.Proofs.Saga.Logic
import TelemetryTriggers.Proofs.Services.World
import TelemetryTriggers.Saga.Run

/-!
# Sagas that run alone

Nothing happens between the steps of a saga that runs alone, and its calls fail as
the fault plan says.  What such a saga meets in the setting `Setting.alone` is true
of its run, and what the setting asks of every call is true wherever the saga is
stopped dead.

Main definitions: `FaultPlan.Within`, which failures a plan can cause;
`Saga.stopped`, what a saga leaves behind that is cut off after some of its calls.
Main statements: `Saga.Meets.run` and `Saga.Meets.stopped`.
-/

namespace TelemetryTriggers

/-!
# What a fault plan can cause
-/

def Fault.Within (fails : ServiceError -> Prop) (deadline : Nat) (c : Call) :
    Fault -> Prop
  | .always e => fails e
  | .times e _ => fails e
  | .after e _ => fails e
  | .delay millis => deadline < millis -> fails (c.timedOut deadline)

def FaultPlan.Within (fails : Call -> ServiceError -> Prop) (deadline : Nat)
    (p : FaultPlan) : Prop :=
  forall c fault, p.fault? c.operation = some fault -> fault.Within (fails c) deadline c

namespace FaultPlan

variable {fails : Call -> ServiceError -> Prop} {deadline : Nat} {p : FaultPlan}

theorem Within.worn {c : Call} {f : Option Fault} {fault : Fault}
    (h : forall fault, f = some fault -> fault.Within (fails c) deadline c)
    (hworn : worn f = some fault) : fault.Within (fails c) deadline c := by
  cases f with
  | none => cases hworn
  | some old =>
      have hold := h old rfl
      cases old with
      | always e =>
          cases hworn
          exact hold
      | times e n =>
          simp only [FaultPlan.worn] at hworn
          split at hworn
          · cases hworn
            exact hold
          · cases hworn
      | after e n =>
          cases hworn
          exact hold
      | delay millis =>
          cases hworn
          exact hold

theorem Within.check (h : p.Within fails deadline) (operation : String) :
    (p.check operation).2.Within fails deadline := by
  intro c fault hfault
  by_cases hop : c.operation = operation
  · rw [← hop, fault?_check_self] at hfault
    exact Within.worn (fun fault hf => h c fault hf) hfault
  · rw [fault?_check_of_ne p hop] at hfault
    exact h c fault hfault

theorem Within.fails_of_refuse (h : p.Within fails deadline) {c : Call} {e : ServiceError}
    (hverdict : (p.check c.operation).1 = .refuse e) : fails c e := by
  have hfault : verdict (p.fault? c.operation) = .refuse e := hverdict
  cases hf : p.fault? c.operation with
  | none =>
      rw [hf] at hfault
      cases hfault
  | some fault =>
      have hwithin := h c fault hf
      rw [hf] at hfault
      cases fault with
      | always e' =>
          cases hfault
          exact hwithin
      | times e' n =>
          cases hfault
          exact hwithin
      | after e' n =>
          simp only [verdict] at hfault
          split at hfault
          · cases hfault
            exact hwithin
          · cases hfault
      | delay millis => cases hfault

theorem Within.fails_of_pause (h : p.Within fails deadline) {c : Call} {millis : Nat}
    (hverdict : (p.check c.operation).1 = .pause millis) (hlate : deadline < millis) :
    fails c (c.timedOut deadline) := by
  have hfault : verdict (p.fault? c.operation) = .pause millis := hverdict
  cases hf : p.fault? c.operation with
  | none =>
      rw [hf] at hfault
      cases hfault
  | some fault =>
      have hwithin := h c fault hf
      rw [hf] at hfault
      cases fault with
      | always e' => cases hfault
      | times e' n => cases hfault
      | after e' n =>
          simp only [verdict] at hfault
          split at hfault
          · cases hfault
          · cases hfault
      | delay m =>
          cases hfault
          exact hwithin hlate

theorem within_all (p : FaultPlan) (deadline : Nat) :
    p.Within (fun _ _ => True) deadline := by
  intro c fault _
  cases fault with
  | delay millis => exact fun _ => trivial
  | _ => trivial

theorem within_of_spared {spared : List String} (deadline : Nat)
    (h : forall operation, operation ∈ spared -> p.fault? operation = none) :
    p.Within (fun c _ => c.operation ∉ spared) deadline := by
  intro c fault hfault
  have hnot : c.operation ∉ spared := by
    intro hmem
    rw [h _ hmem] at hfault
    cases hfault
  cases fault with
  | delay millis => exact fun _ => hnot
  | _ => exact hnot

end FaultPlan

theorem Call.attempt_within {fails : Call -> ServiceError -> Prop} {deadline : Nat}
    (c : Call) {w : World} (h : w.faults.Within fails deadline) :
    (exists e, fails c e ∧ c.attempt (some deadline) w = (.error e, (c.start w).2)) ∨
      c.attempt (some deadline) w = c.perform (c.start w).2 := by
  unfold Call.attempt
  cases hverdict : (w.faults.check c.operation).1 with
  | refuse e =>
      refine Or.inl ⟨e, h.fails_of_refuse hverdict, ?_⟩
      simp only [Call.start, hverdict]
  | pass =>
      refine Or.inr ?_
      simp only [Call.start, hverdict]
  | pause millis =>
      simp only [Call.start, hverdict]
      by_cases hlate : deadline < millis
      · refine Or.inl ⟨_, h.fails_of_pause hverdict hlate, ?_⟩
        rw [if_pos hlate]
      · rw [if_neg hlate]
        exact Or.inr rfl

/-!
# The setting of a saga that runs alone
-/

/-- Nothing but the fault plan changes between two steps, and before every call the
world is one that may be left behind. -/
def Setting.alone (fails : Call -> ServiceError -> Prop) (leavable : World -> Prop) :
    Setting where
  fails := fails
  between _ w v := exists p, v = { w with faults := p }
  inv := World.Integrity
  allowed _ _ w := leavable w
  drawable _ := True

theorem Setting.alone_stable {fails : Call -> ServiceError -> Prop}
    {leavable : World -> Prop} {P : Assertion}
    (h : forall st w p, P st w -> P st { w with faults := p }) :
    (Setting.alone fails leavable).Stable P := by
  intro st w v hP hv
  rcases hv with ⟨p, rfl⟩
  exact h st w p hP

namespace Saga

/-- What a saga leaves behind that is stopped dead when it has made a number of
calls, or at its end. -/
def stopped {α : Type} (deadline : Nat) : Saga α -> Nat -> World -> World
  | .done _, _, w => w
  | .call _ _, 0, w => w
  | .call c next, calls + 1, w =>
      let (reply, w) := c.attempt (some deadline) w
      (next reply).stopped deadline calls w
  | .acquire id next, calls, w =>
      match w.locks.acquire? id with
      | some locks => (next true).stopped deadline calls { w with locks }
      | none => (next false).stopped deadline calls w
  | .release id next, calls, w =>
      next.stopped deadline calls { w with locks := w.locks.release id }
  | .isHeld id next, calls, w => (next (w.locks.isHeld id)).stopped deadline calls w
  | .draw next, calls, w =>
      let (u, ids) := w.ids.next
      (next u).stopped deadline calls { w with ids }
  | .detach next, calls, w => next.stopped deadline calls w

variable {α : Type} {fails : Call -> ServiceError -> Prop} {leavable : World -> Prop}
  {post : α -> Assertion} {deadline : Nat}

theorem integrity_attempt {c : Call} {w : World} (hw : w.Integrity)
    (hfaults : w.faults.Within fails deadline) :
    (c.attempt (some deadline) w).2.Integrity ∧
      (c.attempt (some deadline) w).2.faults.Within fails deadline := by
  have hstart : (c.start w).2.Integrity := ⟨hw.store, hw.broker, hw.engine⟩
  have hchecked : (c.start w).2.faults.Within fails deadline := hfaults.check c.operation
  rcases c.attempt_within hfaults with ⟨e, _, heq⟩ | heq
  · rw [heq]
    exact ⟨hstart, hchecked⟩
  · rw [heq]
    refine ⟨c.integrity_perform hstart, ?_⟩
    rw [c.perform_faults]
    exact hchecked

theorem Meets.attempt {c : Call} {next : Except ServiceError c.Reply -> Saga α}
    {st : Standing} {w : World} (hw : w.Integrity)
    (hfaults : w.faults.Within fails deadline)
    (h : (Saga.call c next).Meets (.alone fails leavable) post st w) :
    (next (c.attempt (some deadline) w).1).Meets (.alone fails leavable) post st
      (c.attempt (some deadline) w).2 := by
  have hstart : (c.start w).2.Integrity := ⟨hw.store, hw.broker, hw.engine⟩
  rcases h (c.start w).2 ⟨_, rfl⟩ hstart with ⟨_, hfails, hdone⟩
  rcases c.attempt_within hfaults with ⟨e, he, heq⟩ | heq
  · rw [heq]
    exact hfails e he
  · rw [heq]
    exact hdone

theorem Meets.run {s : Saga α} {st : Standing} {w : World} (hw : w.Integrity)
    (hfaults : w.faults.Within fails deadline)
    (h : s.Meets (.alone fails leavable) post st w) :
    (s.run deadline w).2.Integrity ∧
      exists st', post (s.run deadline w).1 st' (s.run deadline w).2 := by
  induction s generalizing st w with
  | done a => exact ⟨hw, st, h⟩
  | call c next ih =>
      rcases integrity_attempt (c := c) hw hfaults with ⟨hw', hfaults'⟩
      exact ih _ hw' hfaults' (h.attempt hw hfaults)
  | acquire id next ih =>
      rcases h.2.2 w ⟨_, rfl⟩ hw with ⟨hbusy, hfree⟩
      simp only [Saga.run]
      cases hlocks : w.locks.acquire? id with
      | none => exact ih false hw hfaults (hbusy hlocks)
      | some locks =>
          refine ih true ?_ ?_ (hfree locks hlocks)
          · exact ⟨hw.store, hw.broker, hw.engine⟩
          · exact hfaults
  | release id next ih =>
      refine ih ?_ ?_ (h.2 w ⟨_, rfl⟩ hw)
      · exact ⟨hw.store, hw.broker, hw.engine⟩
      · exact hfaults
  | isHeld id next ih => exact ih _ hw hfaults (h w ⟨_, rfl⟩ hw)
  | draw next ih =>
      refine ih _ ?_ ?_ (h w ⟨_, rfl⟩ hw trivial)
      · exact ⟨hw.store, hw.broker, hw.engine⟩
      · exact hfaults
  | detach next ih => exact ih hw hfaults (h w ⟨_, rfl⟩ hw)

theorem Meets.stopped {s : Saga α} {st : Standing} {w : World} (hw : w.Integrity)
    (hfaults : w.faults.Within fails deadline)
    (h : s.Meets (.alone fails leavable) post st w) (calls : Nat) :
    (s.stopped deadline calls w).Integrity ∧
      (leavable (s.stopped deadline calls w) ∨
        exists a st', post a st' (s.stopped deadline calls w)) := by
  induction s generalizing st w calls with
  | done a => exact ⟨hw, Or.inr ⟨a, st, h⟩⟩
  | call c next ih =>
      cases calls with
      | zero => exact ⟨hw, Or.inl (h w ⟨_, rfl⟩ hw).1⟩
      | succ calls =>
          rcases integrity_attempt (c := c) hw hfaults with ⟨hw', hfaults'⟩
          exact ih _ hw' hfaults' (h.attempt hw hfaults) calls
  | acquire id next ih =>
      rcases h.2.2 w ⟨_, rfl⟩ hw with ⟨hbusy, hfree⟩
      simp only [Saga.stopped]
      cases hlocks : w.locks.acquire? id with
      | none => exact ih false hw hfaults (hbusy hlocks) calls
      | some locks =>
          refine ih true ?_ ?_ (hfree locks hlocks) calls
          · exact ⟨hw.store, hw.broker, hw.engine⟩
          · exact hfaults
  | release id next ih =>
      refine ih ?_ ?_ (h.2 w ⟨_, rfl⟩ hw) calls
      · exact ⟨hw.store, hw.broker, hw.engine⟩
      · exact hfaults
  | isHeld id next ih => exact ih _ hw hfaults (h w ⟨_, rfl⟩ hw) calls
  | draw next ih =>
      refine ih _ ?_ ?_ (h w ⟨_, rfl⟩ hw trivial) calls
      · exact ⟨hw.store, hw.broker, hw.engine⟩
      · exact hfaults
  | detach next ih => exact ih hw hfaults (h w ⟨_, rfl⟩ hw) calls

end Saga
end TelemetryTriggers
