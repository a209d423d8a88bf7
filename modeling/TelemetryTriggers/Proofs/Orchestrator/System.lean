import TelemetryTriggers.Lifecycle.Create
import TelemetryTriggers.Lifecycle.Delete
import TelemetryTriggers.Lifecycle.Targets
import TelemetryTriggers.Proofs.Saga.Logic
import TelemetryTriggers.Proofs.Services.World
import TelemetryTriggers.Recovery

/-!
# An orchestrator with many callers

Any number of operations run on the same services, each as a thread of its own.  The
threads take turns at single steps: one call, one lock, one fresh identifier.  Which
thread is next and which of its calls fail is open, so a statement about all
reachable systems is one about all schedules and all fault plans.

Main definitions: `Request` with `Request.operation`; `Saga.Step`, one step of one
thread; `System.Step`, one step of the whole; `System.Reachable`.
-/

namespace TelemetryTriggers

/-!
# Requests
-/

inductive Request
  | create (request : CreateRequest)
  | delete (user : UserId) (id : TriggerId)
  | addTarget (user : UserId) (id : TriggerId) (target : TargetSpec)
  | removeTarget (user : UserId) (id : TargetId)
  | getTrigger (user : UserId) (id : TriggerId)
  | listTriggers (user : UserId)
  | listTargets (user : UserId) (id : TriggerId)
  | getTarget (user : UserId) (id : TargetId)
  | recover
deriving DecidableEq

inductive Answer
  | created (details : TriggerDetails)
  | deleted
  | added (row : Target)
  | removed
  | trigger (details : TriggerDetails)
  | triggers (rows : List Trigger)
  | targets (rows : List Target)
  | target (row : Target)
  | recovered (report : RecoveryReport)
deriving DecidableEq

namespace Request

def operation (config : Config) : Request -> Operation Answer
  | create request => do pure (.created (← Lifecycle.create config request))
  | delete user id => do
      Lifecycle.delete config user id
      pure .deleted
  | addTarget user id target => do
      pure (.added (← Lifecycle.addTarget config user id target))
  | removeTarget user id => do
      Lifecycle.removeTarget user id
      pure .removed
  | getTrigger user id => do pure (.trigger (← Lifecycle.getTrigger user id))
  | listTriggers user => do pure (.triggers (← Lifecycle.listTriggers user))
  | listTargets user id => do pure (.targets (← Lifecycle.listTargets user id))
  | getTarget user id => do pure (.target (← Lifecycle.getTarget user id))
  | recover => do pure (.recovered (← TelemetryTriggers.recover config))

end Request

/-!
# Steps of one thread
-/

/-- One step of a saga.  A call is done, or it fails without an effect. -/
inductive Saga.Step {α : Type} (fails : Call -> ServiceError -> Prop) :
    Standing -> World -> Saga α -> Standing -> World -> Saga α -> Prop
  | call (c : Call) (next : Except ServiceError c.Reply -> Saga α) (st : Standing)
      (w : World) :
      Step fails st w (.call c next) st (c.perform w).2 (next (c.perform w).1)
  | failure (c : Call) (next : Except ServiceError c.Reply -> Saga α) (st : Standing)
      (w : World) (e : ServiceError) (he : fails c e) :
      Step fails st w (.call c next) st w (next (.error e))
  | acquire (id : TriggerId) (next : Bool -> Saga α) (st : Standing) (w : World)
      (locks : LockTable) (hlocks : w.locks.acquire? id = some locks) :
      Step fails st w (.acquire id next)
        { st with locks := id :: st.locks } { w with locks } (next true)
  | busy (id : TriggerId) (next : Bool -> Saga α) (st : Standing) (w : World)
      (hlocks : w.locks.acquire? id = none) :
      Step fails st w (.acquire id next) st w (next false)
  | release (id : TriggerId) (next : Saga α) (st : Standing) (w : World) :
      Step fails st w (.release id next)
        { st with locks := st.locks.filter (· != id) }
        { w with locks := w.locks.release id } next
  | isHeld (id : TriggerId) (next : Bool -> Saga α) (st : Standing) (w : World) :
      Step fails st w (.isHeld id next) st w (next (w.locks.isHeld id))
  | draw (next : Uuid -> Saga α) (st : Standing) (w : World) :
      Step fails st w (.draw next)
        { st with drawn := st.drawn ++ [w.ids.next.1] } { w with ids := w.ids.next.2 }
        (next w.ids.next.1)
  | detach (next : Saga α) (st : Standing) (w : World) :
      Step fails st w (.detach next) { st with detached := true } w next

/-- A request as far as its operation has come.  Nothing is left of an operation that
was dropped. -/
structure Thread where
  request : Request
  standing : Standing
  rest : Option (Saga (Except TriggerError Answer))

namespace Thread

def start (config : Config) (request : Request) : Thread :=
  ⟨request, ⟨[], [], false⟩, some (request.operation config).run⟩

def dropped (thread : Thread) : Thread :=
  ⟨thread.request, { thread.standing with locks := [] }, none⟩

end Thread

/-!
# Steps of the whole
-/

/-- The services with all operations that were ever started, in the order of their
starts. -/
structure System where
  world : World
  threads : List Thread

namespace System

inductive Moves (fails : Call -> ServiceError -> Prop) (place : Nat) :
    System -> System -> Prop
  | move {w v : World} {threads : List Thread} {request : Request} {st st' : Standing}
      {s s' : Saga (Except TriggerError Answer)}
      (hplace : threads[place]? = some ⟨request, st, some s⟩)
      (hstep : s.Step fails st w st' v s') :
      Moves fails place ⟨w, threads⟩ ⟨v, threads.set place ⟨request, st', some s'⟩⟩

inductive Step (config : Config) (fails : Call -> ServiceError -> Prop) :
    System -> System -> Prop
  | start (request : Request) (w : World) (threads : List Thread) :
      Step config fails ⟨w, threads⟩ ⟨w, threads ++ [.start config request]⟩
  | move {place : Nat} {s t : System} (h : Moves fails place s t) : Step config fails s t
  /-- A caller stops waiting for an operation that is not detached. -/
  | abandon {place : Nat} {w : World} {threads : List Thread} {thread : Thread}
      (hplace : threads[place]? = some thread)
      (hattached : thread.standing.detached = false) :
      Step config fails ⟨w, threads⟩ ⟨w, threads.set place thread.dropped⟩
  | replan (faults : FaultPlan) (w : World) (threads : List Thread) :
      Step config fails ⟨w, threads⟩ ⟨{ w with faults }, threads⟩
  | dispatch (u : ShadowUpdate) (w : World) (threads : List Thread) :
      Step config fails ⟨w, threads⟩ ⟨(w.dispatch u).2, threads⟩
  /-- The process dies and another one takes its place. -/
  | restart (w : World) (threads : List Thread) :
      Step config fails ⟨w, threads⟩
        ⟨{ w with locks := .empty }, threads.map Thread.dropped⟩

/-- What an orchestrator can come to on services that hold nothing but devices. -/
inductive Reachable (config : Config) (fails : Call -> ServiceError -> Prop)
    (things : List Thing) (ids : IdSource) : System -> Prop
  | start : Reachable config fails things ids ⟨World.ofThings things ids, []⟩
  | step {s t : System} (hs : Reachable config fails things ids s)
      (hstep : Step config fails s t) : Reachable config fails things ids t

/-!
# What has been drawn

Requests stay known and drawn identifiers stay drawn.
-/

def Drew (s : System) (request : Request) (drawn : List Uuid) : Prop :=
  exists thread, thread ∈ s.threads ∧ thread.request = request ∧
    drawn <+: thread.standing.drawn

theorem Drew.earlier {s : System} {request : Request} {drawn earlier : List Uuid}
    (h : s.Drew request drawn) (hearlier : earlier <+: drawn) : s.Drew request earlier := by
  rcases h with ⟨thread, hthread, hrequest, hdrawn⟩
  exact ⟨thread, hthread, hrequest, hearlier.trans hdrawn⟩

end System

theorem Saga.Step.drawn_grows {α : Type} {fails : Call -> ServiceError -> Prop}
    {s s' : Saga α} {st st' : Standing} {w v : World} (h : s.Step fails st w st' v s') :
    st.drawn <+: st'.drawn := by
  cases h with
  | draw next => exact List.prefix_append _ _
  | _ => exact List.prefix_rfl

theorem Saga.Step.detached {α : Type} {fails : Call -> ServiceError -> Prop} {s s' : Saga α}
    {st st' : Standing} {w v : World} (h : s.Step fails st w st' v s')
    (hst : st.detached = true) : st'.detached = true := by
  cases h with
  | detach next => rfl
  | _ => exact hst

theorem Saga.Step.held {α : Type} {fails : Call -> ServiceError -> Prop} {s s' : Saga α}
    {st st' : Standing} {w v : World} (h : s.Step fails st w st' v s') {id : TriggerId}
    (hid : v.locks.isHeld id = true) :
    id ∈ st'.locks ∨ (w.locks.isHeld id = true ∧ (id ∈ st.locks -> id ∈ st'.locks)) := by
  cases h with
  | call c next =>
      rw [Call.perform_locks] at hid
      exact Or.inr ⟨hid, fun hmem => hmem⟩
  | acquire other next st w locks hlocks =>
      rw [LockTable.isHeld_acquire? hlocks, Bool.or_eq_true, beq_iff_eq] at hid
      rcases hid with rfl | hold
      · exact Or.inl List.mem_cons_self
      · exact Or.inr ⟨hold, List.mem_cons_of_mem other⟩
  | release other next =>
      by_cases hsame : id = other
      · rcases hsame with rfl
        rw [LockTable.isHeld_release_self] at hid
        cases hid
      · rw [LockTable.isHeld_release_of_ne _ hsame] at hid
        refine Or.inr ⟨hid, fun hmem => List.mem_filter.mpr ⟨hmem, ?_⟩⟩
        exact bne_iff_ne.mpr hsame
  | failure | busy | isHeld | draw | detach => exact Or.inr ⟨hid, fun hmem => hmem⟩

namespace System

variable {config : Config} {fails : Call -> ServiceError -> Prop} {s t : System}

theorem Drew.of_mem {thread : Thread} (h : thread ∈ s.threads) :
    s.Drew thread.request thread.standing.drawn :=
  ⟨thread, h, rfl, List.prefix_rfl⟩

theorem exists_mem_set {threads : List Thread} {place : Nat} {thread thread' : Thread}
    {P : Thread -> Prop} (hplace : threads[place]? = some thread)
    (hP : P thread -> P thread') (h : exists old, old ∈ threads ∧ P old) :
    exists new, new ∈ threads.set place thread' ∧ P new := by
  rcases h with ⟨old, hold, hdoes⟩
  rcases List.mem_iff_getElem?.mp hold with ⟨other, hother⟩
  by_cases hsame : place = other
  · subst hsame
    rw [hplace] at hother
    cases hother
    rcases List.getElem?_eq_some_iff.mp hplace with ⟨hlength, _⟩
    exact ⟨thread', List.mem_set hlength thread', hP hdoes⟩
  · refine ⟨old, ?_, hdoes⟩
    apply List.mem_of_getElem? (i := other)
    rw [List.getElem?_set_ne hsame]
    exact hother

theorem exists_mem_step {P : Thread -> Prop} (hstep : Step config fails s t)
    (hmoved : forall (place : Nat) request st st' work work',
      s.threads[place]? = some ⟨request, st, some work⟩ ->
        work.Step fails st s.world st' t.world work' ->
          P ⟨request, st, some work⟩ -> P ⟨request, st', some work'⟩)
    (hdropped : forall thread, P thread -> P thread.dropped)
    (h : exists thread, thread ∈ s.threads ∧ P thread) :
    exists thread, thread ∈ t.threads ∧ P thread := by
  cases hstep with
  | start started w threads =>
      rcases h with ⟨thread, hthread, hdoes⟩
      exact ⟨thread, List.mem_append_left _ hthread, hdoes⟩
  | move hmoves =>
      cases hmoves with
      | move hplace hstep => exact exists_mem_set hplace (hmoved _ _ _ _ _ _ hplace hstep) h
  | abandon hplace => exact exists_mem_set hplace (hdropped _) h
  | replan => exact h
  | dispatch => exact h
  | restart w threads =>
      rcases h with ⟨thread, hthread, hdoes⟩
      exact ⟨thread.dropped, List.mem_map_of_mem hthread, hdropped thread hdoes⟩

theorem Drew.set {w v : World} {threads : List Thread} {place : Nat}
    {thread thread' : Thread} {request : Request} {drawn : List Uuid}
    (hplace : threads[place]? = some thread) (hrequest : thread'.request = thread.request)
    (hdrawn : thread.standing.drawn <+: thread'.standing.drawn)
    (h : Drew ⟨w, threads⟩ request drawn) :
    Drew ⟨v, threads.set place thread'⟩ request drawn := by
  apply exists_mem_set hplace _ h
  rintro ⟨holdRequest, holdDrawn⟩
  exact ⟨hrequest.trans holdRequest, holdDrawn.trans hdrawn⟩

theorem Drew.step {request : Request} {drawn : List Uuid} (h : s.Drew request drawn)
    (hstep : Step config fails s t) : t.Drew request drawn := by
  apply exists_mem_step hstep _ _ h
  · exact fun _ _ _ _ _ _ _ hstep hdrew => ⟨hdrew.1, hdrew.2.trans hstep.drawn_grows⟩
  · exact fun _ hdrew => hdrew

/-!
# What is left to do
-/

/-- What is true of whatever is left of an operation stays true after a step, if it is true of
an operation before its first step and an operation keeps it with a step of its own. -/
theorem Step.rest {P : Standing -> Saga (Except TriggerError Answer) -> Prop}
    (hstep : Step config fails s t)
    (hstart : forall request : Request, P ⟨[], [], false⟩ (request.operation config).run)
    (hmoved : forall (place : Nat) request st st' work work',
      s.threads[place]? = some ⟨request, st, some work⟩ ->
        work.Step fails st s.world st' t.world work' -> P st work -> P st' work')
    (h : forall thread, thread ∈ s.threads -> forall work, thread.rest = some work ->
      P thread.standing work) :
    forall thread, thread ∈ t.threads -> forall work, thread.rest = some work ->
      P thread.standing work := by
  intro thread hthread work hwork
  cases hstep with
  | start request w threads =>
      rcases List.mem_append.mp hthread with hold | hnew
      · exact h thread hold work hwork
      · rcases List.mem_singleton.mp hnew with rfl
        cases hwork
        exact hstart request
  | move hmoves =>
      cases hmoves with
      | move hplace hmove =>
          rcases List.mem_or_eq_of_mem_set hthread with hold | rfl
          · exact h thread hold work hwork
          · cases hwork
            exact hmoved _ _ _ _ _ _ hplace hmove (h _ (List.mem_of_getElem? hplace) _ rfl)
  | abandon hplace =>
      rcases List.mem_or_eq_of_mem_set hthread with hold | rfl
      · exact h thread hold work hwork
      · cases hwork
  | replan => exact h thread hthread work hwork
  | dispatch => exact h thread hthread work hwork
  | restart w threads =>
      rcases List.mem_map.mp hthread with ⟨old, _, rfl⟩
      cases hwork

end System
end TelemetryTriggers
