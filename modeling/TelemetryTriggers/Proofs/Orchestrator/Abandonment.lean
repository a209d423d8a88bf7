import TelemetryTriggers.Proofs.Orchestrator.Interleaving
import TelemetryTriggers.Proofs.Orchestrator.Retired
import TelemetryTriggers.Proofs.Saga.Abandonment

/-!
# Abandoned operations

A caller who stops waiting changes nothing about what an operation does in the end, except that
a removal of a target may not have begun.  The locks of an operation belong to it, so they are
released when it ends, with or without its caller.

Main definition: `Request.DetachesFirst`, for requests whose operations are detached with their
first step.  The main statements are `System.Reachable.holder`, which finds the operation that
holds a lock, and `System.Reachable.abandonment`.
-/

namespace TelemetryTriggers

/-!
# When operations are detached
-/

namespace Request

variable {config : Config} {request : Request}

def DetachesFirst : Request -> Prop
  | create _ => True
  | delete _ _ => True
  | addTarget _ _ _ => True
  | recover => True
  | _ => False

theorem DetachesFirst.abandoned_eq (h : request.DetachesFirst) {deadline : Nat} {w v : World}
    (hv : (request.operation config).run.Abandoned deadline w v) :
    v = ((request.operation config).run.run deadline w).2 := by
  cases request with
  | create request =>
      cases hvalid : request.validate config.maxTargets with
      | error e =>
          rw [run_create_of_error hvalid] at hv ⊢
          exact hv
      | ok valid =>
          rw [run_create_of_ok hvalid] at hv ⊢
          exact hv
  | addTarget user id spec =>
      cases hvalid : spec.validate with
      | error e =>
          rw [run_addTarget_of_error hvalid] at hv ⊢
          exact hv
      | ok target =>
          rw [run_addTarget_of_ok hvalid] at hv ⊢
          exact hv
  | delete user id => exact hv
  | recover => exact hv
  | _ => exact h.elim

end Request

theorem Lifecycle.visibleTrigger_readsFirst (user : UserId) (id : TriggerId) :
    (visibleTrigger user id).ReadsFirst :=
  .bind (.ask trivial) fun _ => .orFail _ _

theorem Lifecycle.getTarget_readsFirst (user : UserId) (id : TargetId) :
    (getTarget user id).ReadsFirst :=
  .bind (.ask trivial) fun _ => .bind (.orFail _ _) fun target =>
    .bind ((visibleTrigger_readsFirst user target.trigger).adapt _) fun _ => .pure _

theorem Request.operation_readsFirst (config : Config) (request : Request) :
    (request.operation config).ReadsFirst := by
  cases request with
  | create request => exact .bind (.bind (.ofExcept _) fun _ => .detached _) fun _ => .pure _
  | delete user id => exact .bind (.detached _) fun _ => .pure _
  | addTarget user id target =>
      exact .bind (.bind (.ofExcept _) fun _ => .detached _) fun _ => .pure _
  | removeTarget user id =>
      exact .bind (.bind (Lifecycle.getTarget_readsFirst user id) fun _ => .detached _)
        fun _ => .pure _
  | getTrigger user id =>
      exact .bind (.bind (Lifecycle.visibleTrigger_readsFirst user id) fun _ =>
        .bind (.ask trivial) fun _ => .pure _) fun _ => .pure _
  | listTriggers user => exact .bind (.bind (.ask trivial) fun _ => .pure _) fun _ => .pure _
  | listTargets user id =>
      exact .bind (.bind (Lifecycle.visibleTrigger_readsFirst user id) fun _ => .ask trivial)
        fun _ => .pure _
  | getTarget user id => exact .bind (Lifecycle.getTarget_readsFirst user id) fun _ => .pure _
  | recover => exact .bind (.detached _) fun _ => .pure _

/-!
# Who holds a lock
-/

namespace System

variable {config : Config} {fails : Call -> ServiceError -> Prop} {things : List Thing}
  {ids : IdSource} {s : System}

/-- The operation holds the lock and was not dropped. -/
def Holds (id : TriggerId) (thread : Thread) : Prop :=
  id ∈ thread.standing.locks ∧ exists work, thread.rest = some work

theorem Reachable.holder (hs : Reachable config fails things ids s) {id : TriggerId}
    (hid : s.world.locks.isHeld id = true) :
    exists thread, thread ∈ s.threads ∧ Holds id thread := by
  induction hs with
  | start => cases hid
  | @step s t hs hstep ih =>
      cases hstep with
      | start request w threads =>
          rcases ih hid with ⟨thread, hthread, hholds⟩
          exact ⟨thread, List.mem_append_left _ hthread, hholds⟩
      | move hmoves =>
          cases hmoves with
          | move hplace hmove =>
              rcases hmove.held hid with hown | ⟨hold, hkept⟩
              · have hinside := (List.getElem?_eq_some_iff.mp hplace).1
                exact ⟨_, List.mem_set hinside _, hown, _, rfl⟩
              · apply exists_mem_set hplace _ (ih hold)
                exact fun hholds => ⟨hkept hholds.1, _, rfl⟩
      | @abandon place w threads thread hplace hattached =>
          -- an operation that can be dropped holds no lock
          apply exists_mem_set hplace _ (ih hid)
          rintro ⟨hmem, _⟩
          have hnone := hs.ordered.attached place thread hplace hattached
          rw [hnone] at hmem
          cases hmem
      | replan => exact ih hid
      | dispatch => exact ih hid
      | restart => cases hid

theorem Reachable.not_holds (hs : Reachable config fails things ids s) {thread : Thread}
    (hthread : thread ∈ s.threads) (hover : thread.Over) (id : TriggerId) :
    ¬ Holds id thread := by
  rintro ⟨hid, work, hwork⟩
  rcases hover work hwork with ⟨r, rfl⟩
  rcases thread with ⟨request, st, rest⟩
  cases hwork
  rcases List.mem_iff_getElem?.mp hthread with ⟨place, hplace⟩
  have hsettled : st.locks = [] := hs.ordered.meets place request st _ hplace
  rw [hsettled] at hid
  cases hid

theorem Ended.over (h : s.Ended 0) {thread : Thread} (hthread : thread ∈ s.threads) :
    thread.Over := by
  rcases List.mem_iff_getElem?.mp hthread with ⟨place, hplace⟩
  have hinside := (List.getElem?_eq_some_iff.mp hplace).1
  rcases Option.isSome_iff_exists.mp (h place (Nat.zero_le _) hinside) with ⟨r, hr⟩
  rcases answer?_eq_some hr with ⟨request, st, hanswered⟩
  rw [hanswered] at hplace
  cases hplace
  rintro work ⟨⟩
  exact ⟨r, rfl⟩

theorem Reachable.unlocked (hs : Reachable config fails things ids s)
    (hover : forall thread, thread ∈ s.threads -> thread.Over) (id : TriggerId) :
    s.world.locks.isHeld id = false := by
  rw [Bool.eq_false_iff]
  intro hid
  rcases hs.holder hid with ⟨thread, hthread, hholds⟩
  exact hs.not_holds hthread (hover thread hthread) id hholds

/-!
# All or nothing
-/

/-- An operation runs alone, under any faults, for a caller who stops waiting at any point.
What it leaves behind is the same as if the caller had waited; a request that is not detached
first may also leave everything as it was.  If no other operation was under way, no lock is
held in the end. -/
theorem Reachable.abandonment {w : World} {threads : List Thread}
    (hs : Reachable config anyFault things ids ⟨w, threads⟩) (request : Request)
    (faults : FaultPlan) (deadline : Nat) :
    (forall start patience, (request.operation config).run.Abandoned deadline { w with faults }
      (Timeline.runBranches deadline [⟨start, patience, (request.operation config).run⟩]
        { w with faults }).2) ∧
    (forall start,
      (Timeline.runBranches deadline [⟨start, none, (request.operation config).run⟩]
        { w with faults }).2 =
      ((request.operation config).run.run deadline { w with faults }).2) ∧
    forall v, (request.operation config).run.Abandoned deadline { w with faults } v ->
      (request.DetachesFirst ->
        v = ((request.operation config).run.run deadline { w with faults }).2) ∧
      (v = ((request.operation config).run.run deadline { w with faults }).2 ∨
        exists left, v = { w with faults := left }) ∧
      ((forall thread, thread ∈ threads -> thread.Over) ->
        forall id, v.locks.isHeld id = false) := by
  refine ⟨fun start patience => Timeline.run_abandoned ⟨start, patience, _⟩ _,
    fun start => Timeline.run_awaited start _ _, ?_⟩
  intro v hv
  have hcases := (request.operation_readsFirst config).run.all_or_nothing hv
  refine ⟨fun hdetaches => hdetaches.abandoned_eq hv, hcases, ?_⟩
  intro hover id
  rcases hcases with rfl | ⟨left, rfl⟩
  · have hplanned := hs.step (.replan faults w threads)
    rcases hplanned.run request deadline with ⟨st, hend⟩
    apply hend.unlocked
    intro thread hthread
    rcases List.mem_append.mp hthread with hold | hnew
    · exact hover thread hold
    · rcases List.mem_singleton.mp hnew with rfl
      rintro work ⟨⟩
      exact ⟨_, rfl⟩
  · exact hs.unlocked hover id

/-- The rule engine takes its time, and then the store does not take the handles. -/
def sluggish : FaultPlan :=
  (FaultPlan.empty.set "rules.install_rule" (.delay 50)).set "store.update_trigger_handles"
    (.always (.unavailable "no connection"))

theorem guarded_abandonment :
    exists w v, guarded.world = w ∧
      (Timeline.runBranches 10000
        [⟨0, some 10, ((Request.create Lifecycle.heatAlarm).operation .standard).run⟩]
        { w with faults := sluggish }).2 = v ∧
      (((Request.create Lifecycle.heatAlarm).operation .standard).run.run 10000
        { w with faults := sluggish }).2 = v ∧
      forall id, v.locks.isHeld id = false := by
  have hs : Reachable .standard anyFault _ _ guarded := home_reachable.play _
  have hended : guarded.Ended 0 := by
    have hlength : guarded.threads.length = 1 := by decide +kernel
    have hanswer : (guarded.answer? 0).isSome = true := by decide +kernel
    intro place _ hplace
    rw [hlength, Nat.lt_one_iff] at hplace
    rw [hplace]
    exact hanswer
  have hover : forall thread, thread ∈ guarded.threads -> thread.Over := fun _ => hended.over
  generalize guarded = s at hs hover ⊢
  rcases s with ⟨w, threads⟩
  rcases hs.abandonment (.create Lifecycle.heatAlarm) sluggish 10000 with ⟨hclock, _, hall⟩
  rcases hall _ (hclock 0 (some 10)) with ⟨hsame, _, hfree⟩
  exact ⟨w, _, rfl, rfl, (hsame trivial).symm, hfree hover⟩

end System
end TelemetryTriggers
