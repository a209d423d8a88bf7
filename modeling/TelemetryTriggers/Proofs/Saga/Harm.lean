import TelemetryTriggers.Proofs.Saga.Calm
import TelemetryTriggers.Proofs.Services.Removal

/-!
# Sagas that meet few faults

A saga that keeps a promise as long as no more than some calls fail pays for each call that
fails out of a budget.

Main definitions: `Saga.harms`, the number of calls of a run that meet a fault;
`Saga.Bears`, what a saga comes to within a budget, by recursion on the saga.  The main
statement is `Saga.Bears.run`; the rules below it are one for each way in which operations
are put together.
-/

namespace TelemetryTriggers

instance (deadline : Nat) (c : Call) (w : World) : Decidable (c.Works deadline w) := by
  unfold Call.Works
  cases (w.faults.check c.operation).1 with
  | pass => exact instDecidableTrue
  | pause millis => exact inferInstanceAs (Decidable (millis ≤ deadline))
  | refuse e => exact instDecidableFalse

namespace Saga

def harms {α : Type} (deadline : Nat) : Saga α -> World -> Nat
  | .done _, _ => 0
  | .call c next, w =>
      (if c.Works deadline w then 0 else 1) +
        (next (c.attempt (some deadline) w).1).harms deadline
          (c.attempt (some deadline) w).2
  | .acquire id next, w =>
      match w.locks.acquire? id with
      | some locks => (next true).harms deadline { w with locks }
      | none => (next false).harms deadline w
  | .release id next, w => next.harms deadline { w with locks := w.locks.release id }
  | .isHeld id next, w => (next (w.locks.isHeld id)).harms deadline w
  | .draw next, w => (next w.ids.next.1).harms deadline { w with ids := w.ids.next.2 }
  | .detach next, w => next.harms deadline w

/-- The saga ends as stated if no more of its calls fail than the budget allows.  The
statement is about what is left of the budget, the result and the world. -/
def Bears {α : Type} (fails : Call -> ServiceError -> Prop)
    (P : Nat -> α -> World -> Prop) : Saga α -> Nat -> World -> Prop
  | .done a, n, w => P n a w
  | .call c next, n, w =>
      Bears fails P (next (c.perform w).1) n (c.perform w).2 ∧
        forall m e, n = m + 1 -> fails c e -> Bears fails P (next (.error e)) m w
  | .acquire id next, n, w =>
      match w.locks.acquire? id with
      | some locks => Bears fails P (next true) n { w with locks }
      | none => Bears fails P (next false) n w
  | .release id next, n, w => Bears fails P next n { w with locks := w.locks.release id }
  | .isHeld id next, n, w => Bears fails P (next (w.locks.isHeld id)) n w
  | .draw next, n, w => Bears fails P (next w.ids.next.1) n { w with ids := w.ids.next.2 }
  | .detach next, n, w => Bears fails P next n w

variable {α β : Type} {fails : Call -> ServiceError -> Prop}

theorem Bears.mono {P Q : Nat -> α -> World -> Prop} {s : Saga α} {n : Nat} {w : World}
    (h : s.Bears fails P n w) (hPQ : forall n a w, P n a w -> Q n a w) :
    s.Bears fails Q n w := by
  induction s generalizing n w with
  | done a => exact hPQ n a w h
  | call c next ih => exact ⟨ih _ h.1, fun m e hn he => ih _ (h.2 m e hn he)⟩
  | acquire id next ih =>
      simp only [Bears] at h ⊢
      cases hlocks : w.locks.acquire? id with
      | none =>
          rw [hlocks] at h
          exact ih false h
      | some locks =>
          rw [hlocks] at h
          exact ih true h
  | release id next ih => exact ih h
  | isHeld id next ih => exact ih _ h
  | draw next ih => exact ih _ h
  | detach next ih => exact ih h

theorem Bears.bind {P : Nat -> β -> World -> Prop} {s : Saga α} {f : α -> Saga β} {n : Nat}
    {w : World} (h : s.Bears fails (fun m a v => (f a).Bears fails P m v) n w) :
    (s.bind f).Bears fails P n w := by
  induction s generalizing n w with
  | done a => exact h
  | call c next ih => exact ⟨ih _ h.1, fun m e hn he => ih _ (h.2 m e hn he)⟩
  | acquire id next ih =>
      simp only [Saga.bind, Bears] at h ⊢
      cases hlocks : w.locks.acquire? id with
      | none =>
          rw [hlocks] at h
          exact ih false h
      | some locks =>
          rw [hlocks] at h
          exact ih true h
  | release id next ih => exact ih h
  | isHeld id next ih => exact ih _ h
  | draw next ih => exact ih _ h
  | detach next ih => exact ih h

theorem Bears.withFaults {P : Nat -> α -> World -> Prop}
    (hP : forall n a w p, P n a w -> P n a { w with faults := p }) {s : Saga α} {n : Nat}
    {w : World} (h : s.Bears fails P n w) (p : FaultPlan) :
    s.Bears fails P n { w with faults := p } := by
  induction s generalizing n w with
  | done a => exact hP n a w p h
  | call c next ih =>
      refine ⟨?_, fun m e hn he => ih _ (h.2 m e hn he)⟩
      rw [c.perform_withFaults]
      exact ih _ h.1
  | acquire id next ih =>
      simp only [Bears] at h ⊢
      cases hlocks : w.locks.acquire? id with
      | none =>
          rw [hlocks] at h
          exact ih false h
      | some locks =>
          rw [hlocks] at h
          exact ih true h
  | release id next ih => exact ih h
  | isHeld id next ih => exact ih _ h
  | draw next ih => exact ih _ h
  | detach next ih => exact ih h

theorem attempt_of_not_works {deadline : Nat} {c : Call} {w : World}
    (hfaults : w.faults.Within fails deadline) (h : ¬c.Works deadline w) :
    exists e, fails c e ∧ c.attempt (some deadline) w =
      (.error e, { w with faults := (w.faults.check c.operation).2 }) := by
  unfold Call.Works at h
  unfold Call.attempt
  cases hverdict : (w.faults.check c.operation).1 with
  | pass =>
      rw [hverdict] at h
      exact absurd trivial h
  | refuse e =>
      refine ⟨e, hfaults.fails_of_refuse hverdict, ?_⟩
      simp only [Call.start, hverdict]
  | pause millis =>
      rw [hverdict] at h
      have hlate : deadline < millis := Nat.not_le.mp h
      refine ⟨c.timedOut deadline, hfaults.fails_of_pause hverdict hlate, ?_⟩
      simp only [Call.start, hverdict]
      rw [if_pos hlate]

theorem Bears.run {deadline : Nat} {P : Nat -> α -> World -> Prop}
    (hP : forall n a w p, P n a w -> P n a { w with faults := p }) {s : Saga α} {n : Nat}
    {w : World} (hfaults : w.faults.Within fails deadline)
    (hharms : s.harms deadline w ≤ n) (h : s.Bears fails P n w) :
    exists m, P m (s.run deadline w).1 (s.run deadline w).2 := by
  induction s generalizing n w with
  | done a => exact ⟨n, h⟩
  | call c next ih =>
      have hworn := hfaults.check c.operation
      simp only [harms] at hharms
      simp only [Saga.run]
      by_cases hworks : c.Works deadline w
      · rw [if_pos hworks, Nat.zero_add] at hharms
        have hattempt := Call.attempt_of_works hworks
        rw [hattempt] at hharms ⊢
        exact ih _ hworn hharms (h.1.withFaults hP _)
      · rw [if_neg hworks] at hharms
        rcases attempt_of_not_works hfaults hworks with ⟨e, he, hattempt⟩
        rw [hattempt] at hharms ⊢
        cases n with
        | zero => omega
        | succ n => exact ih _ hworn (by omega) ((h.2 n e rfl he).withFaults hP _)
  | acquire id next ih =>
      simp only [Bears] at h
      simp only [harms] at hharms
      simp only [Saga.run]
      cases hlocks : w.locks.acquire? id with
      | none =>
          rw [hlocks] at h hharms
          exact ih false hfaults hharms h
      | some locks =>
          rw [hlocks] at h hharms
          exact ih true (w := { w with locks }) hfaults hharms h
  | release id next ih =>
      exact ih (w := { w with locks := w.locks.release id }) hfaults hharms h
  | isHeld id next ih => exact ih _ hfaults hharms h
  | draw next ih => exact ih _ (w := { w with ids := w.ids.next.2 }) hfaults hharms h
  | detach next ih => exact ih hfaults hharms h

end Saga

namespace Operation

structure Bears {α : Type} (fails : Call -> ServiceError -> Prop)
    (Q : Nat -> α -> World -> Prop) (E : Nat -> TriggerError -> World -> Prop)
    (op : Operation α) (n : Nat) (w : World) : Prop where
  saga : op.run.Bears fails (fun m r v => match r with
    | .ok a => Q m a v
    | .error e => E m e v) n w

namespace Bears

variable {α β : Type} {fails : Call -> ServiceError -> Prop} {n : Nat} {w : World}
  {Q : Nat -> β -> World -> Prop} {E : Nat -> TriggerError -> World -> Prop}

theorem run {deadline : Nat} {R : Except TriggerError β -> World -> Prop} {op : Operation β}
    (h : op.Bears fails (fun _ a => R (.ok a)) (fun _ e => R (.error e)) n w)
    (hfaults : w.faults.Within fails deadline) (hharms : op.run.harms deadline w ≤ n)
    (hR : forall r w p, R r w -> R r { w with faults := p }) :
    R (op.run.run deadline w).1 (op.run.run deadline w).2 := by
  have hends : op.run.Bears fails (fun _ r v => R r v) n w := by
    apply h.saga.mono
    intro m r v hr
    cases r with
    | ok a => exact hr
    | error e => exact hr
  exact (hends.run (fun _ => hR) hfaults hharms).choose_spec

theorem mono {Q' : Nat -> β -> World -> Prop} {E' : Nat -> TriggerError -> World -> Prop}
    {op : Operation β} (h : op.Bears fails Q E n w) (hQ : forall m a v, Q m a v -> Q' m a v)
    (hE : forall m e v, E m e v -> E' m e v) : op.Bears fails Q' E' n w := by
  refine ⟨h.saga.mono ?_⟩
  intro m r v hr
  cases r with
  | ok a => exact hQ m a v hr
  | error e => exact hE m e v hr

theorem bind {op : Operation α} {f : α -> Operation β}
    (h : op.Bears fails (fun m a v => (f a).Bears fails Q E m v) E n w) :
    (op >>= f).Bears fails Q E n w := by
  constructor
  apply Saga.Bears.bind (f := ExceptT.bindCont f)
  apply h.saga.mono
  intro m r v hr
  cases r with
  | ok a => exact hr.saga
  | error e => exact hr

theorem pure {a : β} (h : Q n a w) : Bears fails Q E (Pure.pure a) n w :=
  ⟨h⟩

theorem fail {e : TriggerError} (h : E n e w) : Bears fails Q E (Operation.fail e) n w :=
  ⟨h⟩

theorem ofExcept {result : Except TriggerError β} (hok : forall a, result = .ok a -> Q n a w)
    (herror : forall e, result = .error e -> E n e w) :
    Bears fails Q E (Operation.ofExcept result) n w := by
  cases result with
  | ok a => exact pure (hok a rfl)
  | error e => exact fail (herror e rfl)

theorem orFail {value : Option β} {e : TriggerError} (hsome : forall a, value = some a -> Q n a w)
    (hnone : value = none -> E n e w) : Bears fails Q E (Operation.orFail value e) n w := by
  cases value with
  | some a => exact pure (hsome a rfl)
  | none => exact fail (hnone rfl)

theorem adapt {op : Operation β} {f : TriggerError -> TriggerError}
    (h : op.Bears fails Q (fun m e => E m (f e)) n w) : (op.adapt f).Bears fails Q E n w := by
  constructor
  apply Saga.Bears.bind
  apply h.saga.mono
  intro m r v hr
  cases r with
  | ok a => exact hr
  | error e => exact hr

theorem ask {c : Call} {Q : Nat -> c.Reply -> World -> Prop}
    (hdone : forall r v, c.perform w = (.ok r, v) -> Q n r v)
    (hrefused : forall e, (c.perform w).1 = .error e -> E n (c.service.failure e) w)
    (hfails : forall m e, n = m + 1 -> fails c e -> E m (c.service.failure e) w) :
    Bears fails Q E (Operation.ask c) n w := by
  refine ⟨?_, hfails⟩
  cases hperform : c.perform w with
  | mk reply v =>
      cases reply with
      | ok r => exact hdone r v hperform
      | error e =>
          rw [Call.perform_error hperform]
          exact hrefused e (congrArg Prod.fst hperform)

theorem ensureGone {c : Call} {v : World} {Q : Nat -> Unit -> World -> Prop}
    (hclears : c.Clears w v) (habsence : forall e, fails c e -> e.isAbsence = false)
    (hdone : Q n () v)
    (hfails : forall m e, n = m + 1 -> fails c e -> E m (c.service.failure e) w) :
    Bears fails Q E (Operation.ensureGone c) n w := by
  refine ⟨?_, ?_⟩
  · rcases hclears with ⟨r, hr⟩ | ⟨e, he, hr⟩
    · rw [hr]
      exact hdone
    · rw [hr]
      simp only [he, if_true]
      exact hdone
  · intro m e hn he
    simp only [habsence e he, Bool.false_eq_true, if_false]
    exact hfails m e hn he

theorem fresh {Q : Nat -> Uuid -> World -> Prop}
    (h : Q n w.ids.next.1 { w with ids := w.ids.next.2 }) :
    Bears fails Q E Operation.fresh n w :=
  ⟨h⟩

theorem orUndo {op : Operation β} {undos : List Undo}
    (h : op.Bears fails Q
      (fun m e v => (unwind undos).Bears fails (fun k _ u => E k e u) m v) n w) :
    (op.orUndo undos).Bears fails Q E n w := by
  constructor
  apply Saga.Bears.bind
  apply h.saga.mono
  intro m r v hr
  cases r with
  | ok a => exact hr
  | error e => exact Saga.Bears.bind hr

theorem detached {op : Operation β} (h : op.Bears fails Q E n w) :
    (Operation.detached op).Bears fails Q E n w :=
  ⟨h.saga⟩

theorem locked {id : TriggerId} {op : Operation β} (hbusy : E n (.conflict id.text) w)
    (h : forall locks, w.locks.acquire? id = some locks -> op.Bears fails
      (fun m a v => Q m a { v with locks := v.locks.release id })
      (fun m e v => E m e { v with locks := v.locks.release id }) n { w with locks }) :
    (Operation.locked id op).Bears fails Q E n w := by
  refine ⟨?_⟩
  show Saga.Bears fails _ (.acquire id _) n w
  simp only [Saga.Bears]
  cases hlocks : w.locks.acquire? id with
  | none => exact hbusy
  | some locks =>
      apply Saga.Bears.bind
      apply (h locks hlocks).saga.mono
      intro m r v hr
      cases r with
      | ok a => exact hr
      | error e => exact hr

end Bears
end Operation
end TelemetryTriggers
