import TelemetryTriggers.Services.Call

/-!
# Sagas

A saga is a piece of work on triggers: a tree whose nodes are the single things
it does to the outside, each followed by one continuation per answer.  What runs
a saga decides when each node is done and what happens in between.

Main definitions: `Saga`, with its monad; `Operation`, a saga that may fail;
`Operation.ask`, a call whose failure is the failure of the operation;
`Operation.ensureGone`, a removal for which absence is success;
`Operation.locked`, work under the lock of a trigger.
-/

namespace TelemetryTriggers

inductive Saga (α : Type) : Type
  | done (result : α)
  | call (c : Call) (next : Except ServiceError c.Reply → Saga α)
  /-- Locks a trigger; the answer is whether it was free. -/
  | acquire (id : TriggerId) (next : Bool → Saga α)
  | release (id : TriggerId) (next : Saga α)
  | isHeld (id : TriggerId) (next : Bool → Saga α)
  | draw (next : Uuid → Saga α)
  /-- What follows goes on to its end also if nobody waits for it any more. -/
  | detach (next : Saga α)

namespace Saga

def bind {α β : Type} : Saga α → (α → Saga β) → Saga β
  | .done result, f => f result
  | .call c next, f => .call c fun reply => (next reply).bind f
  | .acquire id next, f => .acquire id fun free => (next free).bind f
  | .release id next, f => .release id (next.bind f)
  | .isHeld id next, f => .isHeld id fun held => (next held).bind f
  | .draw next, f => .draw fun u => (next u).bind f
  | .detach next, f => .detach (next.bind f)

instance : Monad Saga where
  pure := Saga.done
  bind := Saga.bind

theorem bind_done {α : Type} (s : Saga α) : s.bind Saga.done = s := by
  induction s with
  | done => rfl
  | call c next ih => simp [Saga.bind, ih]
  | acquire id next ih => simp [Saga.bind, ih]
  | release id next ih => simp [Saga.bind, ih]
  | isHeld id next ih => simp [Saga.bind, ih]
  | draw next ih => simp [Saga.bind, ih]
  | detach next ih => simp [Saga.bind, ih]

theorem bind_assoc {α β γ : Type} (s : Saga α) (f : α → Saga β) (g : β → Saga γ) :
    (s.bind f).bind g = s.bind fun a => (f a).bind g := by
  induction s with
  | done => rfl
  | call c next ih => simp [Saga.bind, ih]
  | acquire id next ih => simp [Saga.bind, ih]
  | release id next ih => simp [Saga.bind, ih]
  | isHeld id next ih => simp [Saga.bind, ih]
  | draw next ih => simp [Saga.bind, ih]
  | detach next ih => simp [Saga.bind, ih]

instance : LawfulMonad Saga :=
  LawfulMonad.mk' Saga (fun s => bind_done s) (fun _ _ => rfl) bind_assoc

def invoke (c : Call) : Saga (Except ServiceError c.Reply) :=
  .call c .done

end Saga

abbrev Operation (α : Type) : Type :=
  ExceptT TriggerError Saga α

namespace Operation

def fail {α : Type} (e : TriggerError) : Operation α :=
  ExceptT.mk (.done (.error e))

def ofExcept {α : Type} (result : Except TriggerError α) : Operation α :=
  ExceptT.mk (.done result)

def orFail {α : Type} (value : Option α) (e : TriggerError) : Operation α :=
  match value with
  | some a => pure a
  | none => fail e

def ofSaga {α : Type} (work : Saga α) : Operation α :=
  ExceptT.mk (work.bind fun a => .done (.ok a))

def adapt {α : Type} (work : Operation α) (f : TriggerError → TriggerError) :
    Operation α :=
  ExceptT.mk (work.run.bind fun
    | .ok a => .done (.ok a)
    | .error e => .done (.error (f e)))

def ask (c : Call) : Operation c.Reply :=
  ExceptT.mk (.call c fun
    | .ok reply => .done (.ok reply)
    | .error e => .done (.error (c.service.failure e)))

/-- Makes a call that removes something.  That it is absent is no failure. -/
def ensureGone (c : Call) : Operation Unit :=
  ExceptT.mk (.call c fun
    | .ok _ => .done (.ok ())
    | .error e =>
        if e.isAbsence then .done (.ok ())
        else .done (.error (c.service.failure e)))

def fresh : Operation Uuid :=
  ExceptT.mk (.draw fun u => .done (.ok u))

def detached {α : Type} (work : Operation α) : Operation α :=
  ExceptT.mk (.detach work.run)

/-- Does the work while holding the lock of a trigger, unless it is held. -/
def locked {α : Type} (id : TriggerId) (work : Operation α) : Operation α :=
  ExceptT.mk (.acquire id fun free =>
    if free then
      Saga.bind work.run fun result => .release id (.done result)
    else
      .done (.error (.conflict id.text)))

end Operation
end TelemetryTriggers
