import TelemetryTriggers.Recovery

/-!
# The calls that a saga can make

Main definition: `Saga.Only`, for sagas that make no call but those of one kind,
whatever they are answered.  The lemmas are one for each way in which operations are
put together.
-/

namespace TelemetryTriggers

namespace Saga

def Only {α : Type} (P : Call -> Prop) : Saga α -> Prop
  | .done _ => True
  | .call c next => P c ∧ forall reply, (next reply).Only P
  | .acquire _ next => forall free, (next free).Only P
  | .release _ next => next.Only P
  | .isHeld _ next => forall held, (next held).Only P
  | .draw next => forall u, (next u).Only P
  | .detach next => next.Only P

variable {α β : Type} {P Q : Call -> Prop}

theorem Only.mono {s : Saga α} (hs : s.Only P) (hPQ : forall c, P c -> Q c) : s.Only Q := by
  induction s with
  | done a => trivial
  | call c next ih => exact ⟨hPQ c hs.1, fun reply => ih reply (hs.2 reply)⟩
  | acquire id next ih => exact fun free => ih free (hs free)
  | release id next ih => exact ih hs
  | isHeld id next ih => exact fun held => ih held (hs held)
  | draw next ih => exact fun u => ih u (hs u)
  | detach next ih => exact ih hs

theorem Only.bind {s : Saga α} {f : α -> Saga β} (hs : s.Only P)
    (hf : forall a, (f a).Only P) : (s.bind f).Only P := by
  induction s with
  | done a => exact hf a
  | call c next ih => exact ⟨hs.1, fun reply => ih reply (hs.2 reply)⟩
  | acquire id next ih => exact fun free => ih free (hs free)
  | release id next ih => exact ih hs
  | isHeld id next ih => exact fun held => ih held (hs held)
  | draw next ih => exact fun u => ih u (hs u)
  | detach next ih => exact ih hs

end Saga

theorem only_unwind {P : Call -> Prop} {undos : List Undo}
    (h : forall undo, undo ∈ undos -> P undo.toCall) : (unwind undos).Only P := by
  induction undos with
  | nil => trivial
  | cons undo undos ih =>
      refine ⟨h undo List.mem_cons_self, fun reply => ?_⟩
      apply Saga.Only.bind
      · exact ih fun other hother => h other (List.mem_cons_of_mem undo hother)
      · exact fun _ => trivial

namespace Operation

structure Only {α : Type} (P : Call -> Prop) (op : Operation α) : Prop where
  run : Saga.Only P op.run

namespace Only

variable {α β : Type} {P : Call -> Prop}

theorem bind {op : Operation α} {f : α -> Operation β} (h : Only P op)
    (hf : forall a, Only P (f a)) : Only P (op >>= f) := by
  constructor
  apply h.run.bind
  intro r
  cases r with
  | ok a => exact (hf a).run
  | error e => trivial

theorem pure (a : α) : Only P (Pure.pure a) :=
  ⟨trivial⟩

theorem fail (e : TriggerError) : Only P (Operation.fail e : Operation α) :=
  ⟨trivial⟩

theorem ofExcept (result : Except TriggerError α) : Only P (Operation.ofExcept result) :=
  ⟨trivial⟩

theorem orFail (value : Option α) (e : TriggerError) : Only P (Operation.orFail value e) := by
  cases value with
  | some a => exact pure a
  | none => exact fail e

theorem ofSaga {s : Saga α} (h : s.Only P) : Only P (Operation.ofSaga s) :=
  ⟨h.bind fun _ => trivial⟩

theorem adapt {op : Operation α} (h : Only P op) (f : TriggerError -> TriggerError) :
    Only P (op.adapt f) := by
  constructor
  apply h.run.bind
  intro r
  cases r with
  | ok a => trivial
  | error e => trivial

theorem ask {c : Call} (h : P c) : Only P (Operation.ask c) := by
  refine ⟨h, fun reply => ?_⟩
  cases reply with
  | ok r => trivial
  | error e => trivial

theorem ensureGone {c : Call} (h : P c) : Only P (Operation.ensureGone c) := by
  refine ⟨h, fun reply => ?_⟩
  cases reply with
  | ok r => trivial
  | error e =>
      cases hgone : e.isAbsence with
      | true => simp only [hgone, if_true, Saga.Only]
      | false => simp only [hgone, Bool.false_eq_true, if_false, Saga.Only]

theorem fresh : Only P Operation.fresh :=
  ⟨fun _ => trivial⟩

theorem detached {op : Operation α} (h : Only P op) : Only P (Operation.detached op) :=
  ⟨h.run⟩

theorem locked (id : TriggerId) {op : Operation α} (h : Only P op) :
    Only P (Operation.locked id op) := by
  constructor
  intro free
  cases free with
  | true => exact h.run.bind fun _ => trivial
  | false => trivial

theorem orUndo {undos : List Undo} {op : Operation α} (h : Only P op)
    (hundos : forall undo, undo ∈ undos -> P undo.toCall) : Only P (op.orUndo undos) := by
  constructor
  apply h.run.bind
  intro r
  cases r with
  | ok a => trivial
  | error e => exact (only_unwind hundos).bind fun _ => trivial

end Only
end Operation

theorem only_visitAll {P : Call -> Prop} {cs : List Candidate}
    (hlookup : forall id, P (.getTrigger id))
    (hremoval : forall c, c ∈ cs -> c.removal.Only P) : (visitAll cs).Only P := by
  induction cs with
  | nil => trivial
  | cons c cs ih =>
      apply Saga.Only.bind
      · intro free
        cases free with
        | false => trivial
        | true =>
            refine ⟨hlookup c.trigger, fun reply => ?_⟩
            cases reply with
            | error e => trivial
            | ok row =>
                cases hrow : Option.any Trigger.isProvisioned row with
                | true => simp only [hrow, if_true, Saga.Only]
                | false =>
                    simp only [hrow, Bool.false_eq_true, if_false]
                    apply (hremoval c List.mem_cons_self).run.bind
                    intro result
                    cases result with
                    | ok _ => trivial
                    | error e => trivial
      · intro visit
        apply Saga.Only.bind
        · exact ih fun other hother => hremoval other (List.mem_cons_of_mem c hother)
        · exact fun _ => trivial

end TelemetryTriggers
