import TelemetryTriggers.Proofs.Orchestrator.Schedule
import TelemetryTriggers.Saga.Timeline
import TelemetryTriggers.Scenario.Runner

/-!
# Runs are schedules

The steps of a scenario, and branches on one clock, are schedules of a system, with
any faults.  So what holds of all reachable systems holds of all scenarios and of all
branches.

Main definitions: `Scene.Attained`, the scenes that a scenario can come to;
`Task.Shows`, the thread that a task stands for.  Main statements:
`Scenario.run_reachable` and `Timeline.runBranches_reachable`.
-/

namespace TelemetryTriggers

/-!
# Scenarios
-/

namespace Scene

def Attained (config : Config) (things : List Thing) (ids : IdSource) (scene : Scene) :
    Prop :=
  scene.config = config ∧
    exists threads, System.Reachable config anyFault things ids ⟨scene.world, threads⟩

variable {config : Config} {things : List Thing} {ids : IdSource} {scene : Scene} {α : Type}

theorem Attained.withFaults (h : scene.Attained config things ids) (f : FaultPlan -> FaultPlan) :
    (scene.withFaults f).Attained config things ids := by
  rcases h with ⟨hconfig, threads, hs⟩
  exact ⟨hconfig, threads, hs.step (.replan (f scene.world.faults) scene.world threads)⟩

theorem Attained.run (h : scene.Attained config things ids) (request : Request)
    (op : Operation α) (answer : α -> Answer)
    (hop : request.operation scene.config = op >>= fun a => pure (answer a)) :
    (scene.run op).2.Attained config things ids := by
  rcases h with ⟨rfl, threads, hs⟩
  rcases hs.run request scene.config.callTimeout with ⟨_, hend⟩
  rw [hop, op.run_answer] at hend
  exact ⟨rfl, _, hend⟩

theorem Attained.reporting (h : scene.Attained config things ids) (request : Request)
    {op : Operation α} (answer : α -> Answer)
    (hop : request.operation scene.config = op >>= fun a => pure (answer a))
    (detail : α -> String) : (scene.reporting op detail).2.Attained config things ids := by
  have hrun := h.run request op answer hop
  unfold Scene.reporting
  cases hresult : scene.run op with
  | mk result scene' =>
      rw [hresult] at hrun
      cases result with
      | ok a => exact hrun
      | error e => exact hrun

theorem Attained.onTrigger (h : scene.Attained config things ids) (name : String)
    {f : TriggerId -> Except CommandError Success × Scene}
    (hf : forall id, (f id).2.Attained config things ids) :
    (scene.onTrigger name f).2.Attained config things ids := by
  unfold Scene.onTrigger
  cases scene.trigger? name with
  | none => exact h
  | some id => exact hf id

theorem Attained.create (h : scene.Attained config things ids) (name : String)
    (request : CreateRequest) : (scene.create name request).2.Attained config things ids := by
  unfold Scene.create
  split
  · exact h
  · have hrun := h.run (.create request) (Lifecycle.create scene.config request) .created rfl
    cases hresult : scene.run (Lifecycle.create scene.config request) with
    | mk result scene' =>
        rw [hresult] at hrun
        cases result with
        | ok details => exact hrun
        | error e => exact hrun

theorem Attained.removeAddress (h : scene.Attained config things ids) (name : String)
    (user : UserId) (address : String) (id : TriggerId) :
    (scene.removeAddress name user address id).2.Attained config things ids := by
  have hrun := h.run (.listTargets user id) (Lifecycle.listTargets user id) .targets rfl
  unfold Scene.removeAddress
  cases hresult : scene.run (Lifecycle.listTargets user id) with
  | mk result scene' =>
      rw [hresult] at hrun
      cases result with
      | error e => exact hrun
      | ok targets =>
          simp only
          split
          · exact hrun
          · rename_i target _
            exact hrun.reporting (.removeTarget user target.id) (fun _ => .removed) rfl _

theorem Attained.ingest (h : scene.Attained config things ids) (thing : String) (document : Json) :
    (scene.ingest thing document).2.Attained config things ids := by
  unfold Scene.ingest
  cases ShadowUpdate.ofDocument thing document with
  | error e => exact h
  | ok u =>
      rcases h with ⟨hconfig, threads, hs⟩
      exact ⟨hconfig, threads, hs.step (.dispatch u scene.world threads)⟩

theorem Attained.planFault (h : scene.Attained config things ids) (operation : String)
    (error : ServiceError) (times after : Option Nat) :
    (scene.planFault operation error times after).2.Attained config things ids := by
  cases times with
  | none =>
      cases after with
      | none => exact h.withFaults _
      | some n => exact h.withFaults _
  | some m =>
      cases after with
      | none => exact h.withFaults _
      | some n => exact h

theorem Attained.perform (h : scene.Attained config things ids) (step : Step) :
    (scene.perform step).2.Attained config things ids := by
  cases step with
  | create name request => exact h.create name request
  | delete name user =>
      apply h.onTrigger name
      intro id
      exact h.reporting (.delete user id) (fun _ => .deleted) rfl _
  | addTarget name user target =>
      apply h.onTrigger name
      intro id
      exact h.reporting (.addTarget user id target) .added rfl _
  | removeTarget name user address =>
      apply h.onTrigger name
      exact h.removeAddress name user address
  | ingest thing document => exact h.ingest thing document
  | fail operation kind reason times after => exact h.planFault operation _ times after
  | delay operation millis => exact h.withFaults _
  | clearFaults => exact h.withFaults _
  | recover =>
      have hrun := h.run .recover (TelemetryTriggers.recover scene.config) .recovered rfl
      unfold Scene.perform
      cases hresult : scene.run (TelemetryTriggers.recover scene.config) with
      | mk result scene' =>
          rw [hresult] at hrun
          cases result with
          | ok report => exact hrun
          | error e => exact hrun

theorem Attained.performAll (h : scene.Attained config things ids) (steps : List Step) :
    (scene.performAll steps).2.Attained config things ids := by
  induction steps generalizing scene with
  | nil => exact h
  | cons step steps ih => exact ih (h.perform step)

end Scene

theorem Scenario.run_reachable {scenario : Scenario} {config : Config} {ids : IdSource}
    {report : ScenarioReport} (h : scenario.run config ids = .ok report) :
    exists s, System.Reachable config anyFault scenario.things ids s ∧
      report.resources = s.world.counts := by
  unfold Scenario.run at h
  cases hvalid : config.validate with
  | error e =>
      rw [hvalid] at h
      cases h
  | ok _ =>
      rw [hvalid] at h
      cases h
      have hstart : Scene.Attained config scenario.things ids
          ⟨config, World.ofThings scenario.things ids, []⟩ := ⟨rfl, [], .start⟩
      rcases hstart.performAll scenario.steps with ⟨_, threads, hs⟩
      exact ⟨_, hs, rfl⟩

/-!
# Branches on one clock
-/

namespace Task

/-- The thread is as far as the task.  What is left of a task that has ended is not
needed any more. -/
inductive Shows (config : Config) : Task (Except TriggerError Answer) -> Thread -> Prop
  | waiting (start : Nat) (limit : Option Nat) (request : Request) :
      Shows config (.waiting start limit (request.operation config).run)
        (.start config request)
  | pending (limit : Option Nat) (held : Pending (Except TriggerError Answer))
      (request : Request) (st : Standing) :
      Shows config (.pending limit st.detached held)
        ⟨request, st, some (.call held.call held.next)⟩
  | ended (result : Option (Except TriggerError Answer)) (thread : Thread) :
      Shows config (.ended result) thread

variable {config : Config} {things : List Thing} {ids : IdSource} {others : List Thread}
  {place : Nat} {w : World}

/-- What a task does until it is held up are steps of its thread. -/
theorem advance_reaches {request : Request} {st : Standing}
    {work : Saga (Except TriggerError Answer)}
    (h : System.Reaches config things ids others place ⟨request, st, some work⟩ w)
    {detached : Bool} (hst : st.detached = detached) (deadline now : Nat)
    (limit : Option Nat) :
    exists thread, (advance deadline now limit detached work w).1.Shows config thread ∧
      System.Reaches config things ids others place thread
        (advance deadline now limit detached work w).2 := by
  induction work generalizing st w detached with
  | done a => exact ⟨_, .ended _ _, h⟩
  | call c next ih =>
      have hstart : System.Reaches config things ids others place
          ⟨request, st, some (.call c next)⟩ (c.start w).2 :=
        h.replan (w.faults.check c.operation).2
      simp only [advance]
      generalize c.start w = started at hstart
      rcases started with ⟨verdict, v⟩
      cases verdict with
      | refuse e => exact ih _ (hstart.step (.failure c next st v e trivial)) hst
      | pass => exact ih _ (hstart.step (.call c next st v)) hst
      | pause millis =>
          simp only
          split
          · exact ⟨_, .ended _ _, hstart⟩
          · rw [← hst]
            exact ⟨_, .pending limit _ request st, hstart⟩
  | acquire id next ih =>
      simp only [advance]
      cases hlocks : w.locks.acquire? id with
      | none => exact ih false (h.step (.busy id next st w hlocks)) hst
      | some locks => exact ih true (h.step (.acquire id next st w locks hlocks)) hst
  | release id next ih => exact ih (h.step (.release id next st w)) hst
  | isHeld id next ih => exact ih _ (h.step (.isHeld id next st w)) hst
  | draw next ih => exact ih _ (h.step (.draw next st w)) hst
  | detach next ih => exact ih (h.step (.detach next st w)) rfl

theorem fire_reaches {deadline now : Nat} {t u : Task (Except TriggerError Answer)}
    {hu : Before u t} {thread : Thread} {v : World} (ht : t.Shows config thread)
    (h : System.Reaches config things ids others place thread w)
    (hfire : t.fire? deadline now w = some (⟨u, hu⟩, v)) :
    exists thread', u.Shows config thread' ∧
      System.Reaches config things ids others place thread' v := by
  cases ht with
  | waiting start limit request =>
      simp only [fire?] at hfire
      split at hfire
      · cases hfire
        exact advance_reaches h rfl deadline start limit
      · cases hfire
  | pending limit held request st =>
      simp only [fire?] at hfire
      split at hfire
      · cases hfire
        have hend : System.Reaches config things ids others place
            ⟨request, st, some (held.next (finish deadline held w).1)⟩
            (finish deadline held w).2 := by
          unfold finish
          split
          · exact h.step (.failure held.call held.next st w _ trivial)
          · exact h.step (.call held.call held.next st w)
        exact advance_reaches hend rfl deadline held.wake limit
      · cases hfire
  | ended result thread => cases hfire

end Task

namespace Timeline

variable {config : Config} {things : List Thing} {ids : IdSource} {w v : World}
  {before threads : List Thread} {tasks : List (Task (Except TriggerError Answer))}
  {deadline : Nat}

theorem fire_reachable {now : Nat} {later : List (Task (Except TriggerError Answer))}
    {hlater : Before later tasks} (htasks : List.Forall₂ (Task.Shows config) tasks threads)
    (hs : System.Reachable config anyFault things ids ⟨w, before ++ threads⟩)
    (hfire : fire? deadline now tasks w = some (⟨later, hlater⟩, v)) :
    exists threads', List.Forall₂ (Task.Shows config) later threads' ∧
      System.Reachable config anyFault things ids ⟨v, before ++ threads'⟩ := by
  induction htasks generalizing before later with
  | nil => cases hfire
  | @cons t thread tasks threads ht htasks ih =>
      simp only [fire?] at hfire
      split at hfire
      · rename_i u hu w' hhead
        cases hfire
        -- the thread of this task stands right behind those of the tasks before it
        have hset : forall thread', (before ++ thread :: threads).set before.length thread' =
            before ++ thread' :: threads := by simp
        have hplace : System.Reaches config things ids (before ++ thread :: threads)
            before.length thread w := by
          constructor
          · simp
          · rw [hset]
            exact hs
        rcases Task.fire_reaches ht hplace hhead with ⟨thread', hshows, hend⟩
        refine ⟨thread' :: threads, .cons hshows htasks, ?_⟩
        rw [← hset]
        exact hend.reachable
      · rcases Option.map_eq_some_iff.mp hfire with ⟨⟨⟨us, hus⟩, w'⟩, htail, heq⟩
        cases heq
        have hs' : System.Reachable config anyFault things ids
            ⟨w, (before ++ [thread]) ++ threads⟩ := by simpa using hs
        rcases ih hs' htail with ⟨threads', hshows, hend⟩
        exact ⟨thread :: threads', .cons ht hshows, by simpa using hend⟩

theorem run_reachable (line : Timeline (Except TriggerError Answer))
    (htasks : List.Forall₂ (Task.Shows config) line.tasks threads)
    (hs : System.Reachable config anyFault things ids ⟨w, before ++ threads⟩) :
    exists threads', System.Reachable config anyFault things ids
      ⟨(run deadline line w).2, threads'⟩ := by
  fun_induction run deadline line w generalizing threads with
  | case1 line w hnone => exact ⟨_, hs⟩
  | case2 line w later hlater v hfire ih =>
      rcases Option.bind_eq_some_iff.mp hfire with ⟨now, _, hfire⟩
      rcases fire_reachable htasks hs hfire with ⟨threads', hshows, hend⟩
      exact ih hshows hend

theorem runBranches_reachable {s : System}
    (hs : System.Reachable config anyFault things ids s)
    {branches : List (Branch (Except TriggerError Answer))}
    (hbranches : forall b, b ∈ branches ->
      exists request : Request, b.work = (request.operation config).run) (deadline : Nat) :
    exists threads, System.Reachable config anyFault things ids
      ⟨(runBranches deadline branches s.world).2, threads⟩ := by
  have hstarted : exists threads,
      List.Forall₂ (Task.Shows config) (branches.map Task.ofBranch) threads ∧
        System.Reachable config anyFault things ids ⟨s.world, s.threads ++ threads⟩ := by
    induction branches generalizing s with
    | nil => exact ⟨[], .nil, by simpa using hs⟩
    | cons b branches ih =>
        rcases hbranches b List.mem_cons_self with ⟨request, hwork⟩
        have hnext := hs.step (.start request s.world s.threads)
        rcases ih hnext fun b hb => hbranches b (List.mem_cons_of_mem _ hb) with
          ⟨threads, hshows, hend⟩
        refine ⟨.start config request :: threads, .cons ?_ hshows, by simpa using hend⟩
        rw [Task.ofBranch, hwork]
        exact .waiting b.start _ request
  rcases hstarted with ⟨threads, htasks, hstart⟩
  exact run_reachable ⟨branches.map Task.ofBranch⟩ htasks hstart

end Timeline
end TelemetryTriggers
