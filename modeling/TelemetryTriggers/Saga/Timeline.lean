import TelemetryTriggers.Saga.Program

/-!
# Sagas on one clock

Several sagas start at their own instants and run side by side.  Time only passes
while a call is held up; everything else takes none.  A caller may stop waiting
some time after the start.  Then a saga that is not yet detached is dropped, with
the call it is waiting for, and one that is detached goes on without a caller.

Main definitions: `Branch`, a saga with its start and its caller's patience;
`Task`, a branch as far as it has come; `Timeline.run`, in which the earliest event
of all tasks happens until all have ended.  The main statement is
`Timeline.wellFounded_before`: every event leaves a task with less to do, so the
run ends.
-/

namespace TelemetryTriggers

/-- A saga that starts at an instant, for a caller who waits some milliseconds or
as long as it takes. -/
structure Branch (α : Type) where
  start : Nat
  patience : Option Nat
  work : Saga α

structure Pending (α : Type) where
  wake : Nat
  call : Call
  /-- It ends because its deadline has passed. -/
  late : Bool
  next : Except ServiceError call.Reply → Saga α

inductive Task (α : Type)
  | waiting (start : Nat) (limit : Option Nat) (work : Saga α)
  /-- A call of it is held up.  The caller waits until an instant, or as long as it
  takes. -/
  | pending (limit : Option Nat) (detached : Bool) (held : Pending α)
  | ended (result : Option α)

namespace Task

def ofBranch {α : Type} (b : Branch α) : Task α :=
  .waiting b.start (b.patience.map (b.start + ·)) b.work

def isPast (limit : Option Nat) (now : Nat) : Bool :=
  limit.any (· < now)

/-- Does the steps of a saga up to the next call that is held up.  A saga that is
not detached is dropped if its caller would have to wait too long for that call. -/
def advance {α : Type} (deadline now : Nat) (limit : Option Nat) (detached : Bool) :
    Saga α → World → Task α × World
  | .done result, w => (.ended (if isPast limit now then none else some result), w)
  | .call c next, w =>
      match c.start w with
      | (.refuse e, w) => advance deadline now limit detached (next (.error e)) w
      | (.pass, w) =>
          let (reply, w) := c.perform w
          advance deadline now limit detached (next reply) w
      | (.pause millis, w) =>
          let wake := now + min millis deadline
          if !detached && isPast limit wake then (.ended none, w)
          else (.pending limit detached ⟨wake, c, decide (deadline < millis), next⟩, w)
  | .acquire id next, w =>
      match w.locks.acquire? id with
      | some locks => advance deadline now limit detached (next true) { w with locks }
      | none => advance deadline now limit detached (next false) w
  | .release id next, w =>
      advance deadline now limit detached next { w with locks := w.locks.release id }
  | .isHeld id next, w =>
      advance deadline now limit detached (next (w.locks.isHeld id)) w
  | .draw next, w =>
      let (u, ids) := w.ids.next
      advance deadline now limit detached (next u) { w with ids }
  | .detach next, w => advance deadline now limit true next w

def finish {α : Type} (deadline : Nat) (p : Pending α) (w : World) :
    Except ServiceError p.call.Reply × World :=
  if p.late then (.error (p.call.timedOut deadline), w) else p.call.perform w

def wake? {α : Type} : Task α → Option Nat
  | .waiting start _ _ => some start
  | .pending _ _ held => some held.wake
  | .ended _ => none

def result? {α : Type} : Task α → Option α
  | .ended result => result
  | _ => none

/-- The first task is what can become of the second. -/
inductive Before {α : Type} : Task α → Task α → Prop
  | started (deadline start : Nat) (limit : Option Nat) (work : Saga α) (w : World) :
      Before (advance deadline start limit false work w).1 (.waiting start limit work)
  | woken (deadline : Nat) (limit : Option Nat) (detached : Bool) (held : Pending α)
      (reply : Except ServiceError held.call.Reply) (w : World) :
      Before (advance deadline held.wake limit detached (held.next reply) w).1
        (.pending limit detached held)

theorem acc_ended {α : Type} (result : Option α) : Acc Before (.ended result) := by
  constructor
  intro t h
  cases h

theorem acc_advance {α : Type} (deadline now : Nat) (limit : Option Nat)
    (detached : Bool) (s : Saga α) (w : World) :
    Acc Before (advance deadline now limit detached s w).1 := by
  induction s generalizing deadline now detached w with
  | done result => exact acc_ended _
  | call c next ih =>
      simp only [advance]
      split
      · exact ih _ _ _ _ _
      · exact ih _ _ _ _ _
      · split
        · exact acc_ended _
        · constructor
          intro t h
          cases h
          exact ih _ _ _ _ _
  | acquire id next ih =>
      simp only [advance]
      split
      · exact ih _ _ _ _ _
      · exact ih _ _ _ _ _
  | release id next ih => exact ih _ _ _ _
  | isHeld id next ih => exact ih _ _ _ _ _
  | draw next ih => exact ih _ _ _ _ _
  | detach next ih => exact ih _ _ _ _

theorem wellFounded_before {α : Type} : WellFounded (Before (α := α)) := by
  constructor
  intro t
  constructor
  intro u h
  cases h with
  | started => exact acc_advance _ _ _ _ _ _
  | woken => exact acc_advance _ _ _ _ _ _

def fire? {α : Type} (deadline now : Nat) (t : Task α) (w : World) :
    Option ({ u : Task α // Before u t } × World) :=
  match t with
  | .waiting start limit work =>
      if start = now then
        some (⟨_, .started deadline start limit work w⟩,
          (advance deadline start limit false work w).2)
      else none
  | .pending limit detached held =>
      if held.wake = now then
        let reply := finish deadline held w
        some (⟨_, .woken deadline limit detached held reply.1 reply.2⟩,
          (advance deadline held.wake limit detached (held.next reply.1) reply.2).2)
      else none
  | .ended _ => none

end Task

structure Timeline (α : Type) where
  tasks : List (Task α)

namespace Timeline

inductive Before {α : Type} : List (Task α) → List (Task α) → Prop
  | head {t u : Task α} (ts : List (Task α)) (h : Task.Before u t) :
      Before (u :: ts) (t :: ts)
  | tail (t : Task α) {ts us : List (Task α)} (h : Before us ts) :
      Before (t :: us) (t :: ts)

theorem acc_cons {α : Type} {t : Task α} {ts : List (Task α)}
    (ht : Acc Task.Before t) (hts : Acc Before ts) : Acc Before (t :: ts) := by
  induction ht generalizing ts with
  | intro t _ iht =>
      induction hts with
      | intro ts hts ihts =>
          constructor
          intro us h
          cases h with
          | head _ h => exact iht _ h ⟨_, hts⟩
          | tail _ h => exact ihts _ h

theorem wellFounded_before {α : Type} : WellFounded (Before (α := α)) := by
  constructor
  intro ts
  induction ts with
  | nil =>
      constructor
      intro us h
      cases h
  | cons t ts ih => exact acc_cons (Task.wellFounded_before.apply t) ih

instance {α : Type} : WellFoundedRelation (Timeline α) where
  rel t u := Before t.tasks u.tasks
  wf := InvImage.wf Timeline.tasks wellFounded_before

def wake? {α : Type} (tasks : List (Task α)) : Option Nat :=
  (tasks.filterMap Task.wake?).min?

def fire? {α : Type} (deadline now : Nat) (tasks : List (Task α)) (w : World) :
    Option ({ us : List (Task α) // Before us tasks } × World) :=
  match tasks with
  | [] => none
  | t :: ts =>
      match t.fire? deadline now w with
      | some (⟨u, h⟩, w) => some (⟨u :: ts, .head ts h⟩, w)
      | none =>
          (fire? deadline now ts w).map fun (⟨us, h⟩, w) => (⟨t :: us, .tail t h⟩, w)

/-- Lets everything happen in the order of time.  Events of one instant happen in
the order of the tasks. -/
def run {α : Type} (deadline : Nat) (line : Timeline α) (w : World) :
    List (Option α) × World :=
  match (wake? line.tasks).bind fun now => fire? deadline now line.tasks w with
  | none => (line.tasks.map Task.result?, w)
  | some (⟨tasks, _⟩, w) => run deadline ⟨tasks⟩ w
termination_by line

def runBranches {α : Type} (deadline : Nat) (branches : List (Branch α)) (w : World) :
    List (Option α) × World :=
  run deadline ⟨branches.map Task.ofBranch⟩ w

end Timeline
end TelemetryTriggers
