import TelemetryTriggers.Lifecycle.Create
import TelemetryTriggers.Lifecycle.Delete
import TelemetryTriggers.Lifecycle.Targets
import TelemetryTriggers.Saga.Undo

/-!
# When locks are given back

The work under a lock takes no other one, and nothing follows it: with the last step of an
operation for a change its lock is free again.

Main definitions: `Saga.Lockless`, for sagas that leave all locks alone; `Saga.ReleasesLast`,
for those that have nothing left to do once they have given a lock back.
-/

namespace TelemetryTriggers

namespace Saga

def Lockless {α : Type} : Saga α -> Prop
  | .done _ => True
  | .call _ next => forall reply, (next reply).Lockless
  | .acquire _ _ => False
  | .release _ _ => False
  | .isHeld _ next => forall held, (next held).Lockless
  | .draw next => forall u, (next u).Lockless
  | .detach next => next.Lockless

def ReleasesLast {α : Type} : Saga α -> Prop
  | .done _ => True
  | .call _ next => forall reply, (next reply).ReleasesLast
  | .acquire _ next => forall free, (next free).ReleasesLast
  | .release _ next => exists a, next = .done a
  | .isHeld _ next => forall held, (next held).ReleasesLast
  | .draw next => forall u, (next u).ReleasesLast
  | .detach next => next.ReleasesLast

variable {α β : Type} {s : Saga α} {f : α -> Saga β}

theorem Lockless.bind (hs : s.Lockless) (hf : forall a, (f a).Lockless) :
    (s.bind f).Lockless := by
  induction s with
  | done a => exact hf a
  | call c next ih => exact fun reply => ih reply (hs reply)
  | acquire id next => exact hs.elim
  | release id next => exact hs.elim
  | isHeld id next ih => exact fun held => ih held (hs held)
  | draw next ih => exact fun u => ih u (hs u)
  | detach next ih => exact ih hs

theorem Lockless.bind_last (hs : s.Lockless) (hf : forall a, (f a).ReleasesLast) :
    (s.bind f).ReleasesLast := by
  induction s with
  | done a => exact hf a
  | call c next ih => exact fun reply => ih reply (hs reply)
  | acquire id next => exact hs.elim
  | release id next => exact hs.elim
  | isHeld id next ih => exact fun held => ih held (hs held)
  | draw next ih => exact fun u => ih u (hs u)
  | detach next ih => exact ih hs

theorem ReleasesLast.bind_done (hs : s.ReleasesLast) (hf : forall a, exists b, f a = .done b) :
    (s.bind f).ReleasesLast := by
  induction s with
  | done a =>
      rcases hf a with ⟨b, hb⟩
      rw [Saga.bind, hb]
      trivial
  | call c next ih => exact fun reply => ih reply (hs reply)
  | acquire id next ih => exact fun free => ih free (hs free)
  | release id next =>
      rcases hs with ⟨a, rfl⟩
      exact hf a
  | isHeld id next ih => exact fun held => ih held (hs held)
  | draw next ih => exact fun u => ih u (hs u)
  | detach next ih => exact ih hs

end Saga

theorem lockless_unwind (undos : List Undo) : (unwind undos).Lockless := by
  induction undos with
  | nil => trivial
  | cons undo undos ih => exact fun _ => ih.bind fun _ => trivial

namespace Operation

/-!
# Work that leaves locks alone
-/

structure Lockless {α : Type} (op : Operation α) : Prop where
  run : Saga.Lockless op.run

namespace Lockless

variable {α β : Type} {op : Operation α}

theorem bind {f : α -> Operation β} (h : Lockless op) (hf : forall a, Lockless (f a)) :
    Lockless (op >>= f) := by
  constructor
  apply h.run.bind
  intro r
  cases r with
  | ok a => exact (hf a).run
  | error e => trivial

theorem pure (a : α) : Lockless (Pure.pure a) :=
  ⟨trivial⟩

theorem ofExcept (result : Except TriggerError α) : Lockless (Operation.ofExcept result) :=
  ⟨trivial⟩

theorem orFail (value : Option α) (e : TriggerError) : Lockless (Operation.orFail value e) := by
  cases value with
  | some a => exact pure a
  | none => exact ⟨trivial⟩

theorem ask (c : Call) : Lockless (Operation.ask c) := by
  refine ⟨fun reply => ?_⟩
  cases reply with
  | ok r => trivial
  | error e => trivial

theorem ensureGone (c : Call) : Lockless (Operation.ensureGone c) := by
  refine ⟨fun reply => ?_⟩
  cases reply with
  | ok r => trivial
  | error e =>
      show Saga.Lockless (if e.isAbsence then _ else _)
      split
      · trivial
      · trivial

theorem fresh : Lockless Operation.fresh :=
  ⟨fun _ => trivial⟩

theorem ignored (c : Call) : Lockless (Operation.ofSaga (Saga.invoke c)) :=
  ⟨fun _ => trivial⟩

theorem adapt (h : Lockless op) (f : TriggerError -> TriggerError) : Lockless (op.adapt f) := by
  constructor
  apply h.run.bind
  intro r
  cases r with
  | ok a => trivial
  | error e => trivial

theorem orUndo (h : Lockless op) (undos : List Undo) : Lockless (op.orUndo undos) := by
  constructor
  apply h.run.bind
  intro r
  cases r with
  | ok a => trivial
  | error e => exact (lockless_unwind undos).bind fun _ => trivial

end Lockless

/-!
# Operations that give their locks back at the end
-/

structure ReleasesLast {α : Type} (op : Operation α) : Prop where
  run : Saga.ReleasesLast op.run

namespace ReleasesLast

variable {α β : Type} {op : Operation α}

theorem bind {f : α -> Operation β} (h : Lockless op) (hf : forall a, ReleasesLast (f a)) :
    ReleasesLast (op >>= f) := by
  constructor
  apply h.run.bind_last
  intro r
  cases r with
  | ok a => exact (hf a).run
  | error e => trivial

theorem of_lockless (h : Lockless op) : ReleasesLast op := by
  constructor
  rw [← Saga.bind_done op.run]
  exact h.run.bind_last fun _ => trivial

theorem answer (h : ReleasesLast op) (f : α -> β) :
    ReleasesLast (op >>= fun a => Pure.pure (f a)) := by
  constructor
  apply h.run.bind_done
  intro r
  cases r with
  | ok a => exact ⟨_, rfl⟩
  | error e => exact ⟨_, rfl⟩

theorem detached (h : ReleasesLast op) : ReleasesLast (Operation.detached op) :=
  ⟨h.run⟩

theorem locked (id : TriggerId) (h : Lockless op) : ReleasesLast (Operation.locked id op) := by
  refine ⟨fun free => ?_⟩
  cases free with
  | true => exact h.run.bind_last fun r => ⟨r, rfl⟩
  | false => trivial

end ReleasesLast
end Operation

/-!
# Changes and questions
-/

namespace Lifecycle

open Operation (Lockless ReleasesLast)

theorem lockless_subscribeTargets (id : TriggerId) (topic : TopicHandle)
    (targets : List ValidTarget) (undos : List Undo) :
    Lockless (subscribeTargets id topic targets undos) := by
  induction targets generalizing undos with
  | nil => exact .pure _
  | cons target targets ih =>
      exact .bind (.orUndo (.ask _) _) fun _ => .bind .fresh fun _ =>
        .bind (.orUndo (.ask _) _) fun _ => .bind (ih _) fun _ => .pure _

theorem lockless_createWithId (naming : ResourceNaming) (user : UserId) (request : ValidRequest)
    (id : TriggerId) : Lockless (createWithId naming user request id) := by
  have hpaired : Lockless (pairedThing user request.thingName) :=
    .bind (.ask _) fun _ => .orFail _ _
  refine .bind hpaired fun thing => .bind (.ask _) fun _ => ?_
  exact .bind (.orUndo (.ask _) _) fun topic =>
    .bind (lockless_subscribeTargets id topic request.targets _) fun _ =>
      .bind (.orUndo (.ofExcept _) _) fun _ => .bind (.orUndo (.ask _) _) fun _ =>
        .bind (.orUndo (.ask _) _) fun _ => .pure _

theorem lockless_removeAll (cs : List Call) : Lockless (removeAll cs) := by
  induction cs with
  | nil => exact .pure _
  | cons c cs ih => exact .bind (.ensureGone c) fun _ => ih

theorem lockless_unsubscribeAll (targets : List Target) : Lockless (unsubscribeAll targets) := by
  induction targets with
  | nil => exact .pure _
  | cons target targets ih => exact .bind (.ignored _) fun _ => ih

theorem lockless_deleteOwned (naming : ResourceNaming) (user : UserId) (id : TriggerId) :
    Lockless (deleteOwned naming user id) := by
  refine .bind (.ask _) fun _ => .bind (.orFail _ _) fun trigger => .bind (.ask _) fun _ => ?_
  cases trigger.handles with
  | some handles => exact .bind (lockless_removeAll _) fun _ => lockless_removeAll _
  | none =>
      have hleftovers : Lockless (removeLeftovers naming id) :=
        .bind (.ask _) fun _ => .bind (lockless_removeAll _) fun _ => .bind (.ask _) fun _ =>
          lockless_removeAll _
      exact .bind hleftovers fun _ => .bind (lockless_unsubscribeAll _) fun _ =>
        lockless_removeAll _

theorem lockless_visibleTrigger (user : UserId) (id : TriggerId) :
    Lockless (visibleTrigger user id) :=
  .bind (.ask _) fun _ => .orFail _ _

theorem lockless_getTarget (user : UserId) (id : TargetId) : Lockless (getTarget user id) :=
  .bind (.ask _) fun _ => .bind (.orFail _ _) fun _ =>
    .bind (.adapt (lockless_visibleTrigger _ _) _) fun _ => .pure _

theorem lockless_addTargetOwned (maxTargets : Nat) (user : UserId) (id : TriggerId)
    (target : ValidTarget) : Lockless (addTargetOwned maxTargets user id target) := by
  refine .bind (lockless_visibleTrigger user id) fun _ => .bind (.orFail _ _) fun _ =>
    .bind (.ask _) fun targets => ?_
  split
  · exact ⟨trivial⟩
  · exact .bind (.ask _) fun _ => .bind .fresh fun _ => .bind (.orUndo (.ask _) _) fun _ =>
      .pure _

theorem lockless_removeTargetOwned (user : UserId) (id : TargetId) :
    Lockless (removeTargetOwned user id) :=
  .bind (.ask _) fun _ => .bind (.orFail _ _) fun _ =>
    .bind (lockless_visibleTrigger user _) fun _ => .bind (.ensureGone _) fun _ => .ensureGone _

theorem create_releasesLast (config : Config) (request : CreateRequest) :
    ReleasesLast (create config request) :=
  .bind (.ofExcept _) fun _ => .detached (.bind .fresh fun _ =>
    .locked _ (lockless_createWithId _ _ _ _))

theorem delete_releasesLast (config : Config) (user : UserId) (id : TriggerId) :
    ReleasesLast (delete config user id) :=
  .detached (.locked id (lockless_deleteOwned _ _ _))

theorem addTarget_releasesLast (config : Config) (user : UserId) (id : TriggerId)
    (spec : TargetSpec) : ReleasesLast (addTarget config user id spec) :=
  .bind (.ofExcept _) fun _ => .detached (.locked id (lockless_addTargetOwned _ _ _ _))

theorem removeTarget_releasesLast (user : UserId) (id : TargetId) :
    ReleasesLast (removeTarget user id) :=
  .bind (lockless_getTarget user id) fun target => .detached (.locked target.trigger
    (lockless_removeTargetOwned user id))

end Lifecycle
end TelemetryTriggers
