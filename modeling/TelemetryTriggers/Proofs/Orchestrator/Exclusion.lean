import TelemetryTriggers.Proofs.Orchestrator.Abandonment
import TelemetryTriggers.Proofs.Orchestrator.Snapshot
import TelemetryTriggers.Proofs.Saga.Release

/-!
# One writer at a time

A lock is in the table as long as one operation holds it, and whatever an operation writes
belongs to the one trigger that it has locked.  An operation for a change gives its lock back
with its last step, so nobody else writes between two of its writes.  A sweep takes the lock
of a trigger anew for its draft, its rule and its topic, and others may write in between.

Main definitions: `System.guards`, the locks that operations hold; `System.Writes`, a step
with a call that concerns a trigger; `Saga.ReleasesLast`; `Thread.Becomes`.  The main statement
is `System.Reachable.one_writer`.
-/

namespace TelemetryTriggers

/-!
# What can become of an operation
-/

inductive Thread.Becomes (fails : Call -> ServiceError -> Prop) (w v : World)
    (thread : Thread) : Thread -> Prop
  | stays : Becomes fails w v thread thread
  | dropped : Becomes fails w v thread thread.dropped
  | moves {request : Request} {st st' : Standing}
      {work work' : Saga (Except TriggerError Answer)}
      (hthread : thread = ⟨request, st, some work⟩) (hstep : work.Step fails st w st' v work') :
      Becomes fails w v thread ⟨request, st', some work'⟩

namespace Thread.Becomes

variable {fails : Call -> ServiceError -> Prop} {w v : World} {thread thread' : Thread}

theorem request_eq (h : thread.Becomes fails w v thread') : thread'.request = thread.request := by
  cases h with
  | stays | dropped => rfl
  | moves hthread hstep => rw [hthread]

theorem still_over (h : thread.Becomes fails w v thread') (hover : thread.Over) : thread'.Over := by
  cases h with
  | stays => exact hover
  | dropped => exact nofun
  | moves hthread hstep =>
      rw [hthread] at hover
      rcases hover _ rfl with ⟨r, rfl⟩
      cases hstep

end Thread.Becomes

namespace System

variable {config : Config} {fails : Call -> ServiceError -> Prop} {s t : System} {place : Nat}
  {thread thread' : Thread}

theorem Step.came (hstep : Step config fails s t) (hplace : t.threads[place]? = some thread') :
    (exists thread, s.threads[place]? = some thread ∧
      thread.Becomes fails s.world t.world thread') ∨
    (place = s.threads.length ∧ exists request, thread' = .start config request) := by
  cases hstep with
  | start request w threads =>
      rcases getElem?_append_cases hplace with hold | ⟨hlast, rfl⟩
      · exact Or.inl ⟨_, hold, .stays⟩
      · exact Or.inr ⟨hlast, request, rfl⟩
  | move hmoves =>
      cases hmoves with
      | move hmine hmove =>
          rcases getElem?_set_cases hplace with ⟨rfl, rfl⟩ | ⟨_, hold⟩
          · exact Or.inl ⟨_, hmine, .moves rfl hmove⟩
          · exact Or.inl ⟨_, hold, .stays⟩
  | abandon hmine =>
      rcases getElem?_set_cases hplace with ⟨rfl, rfl⟩ | ⟨_, hold⟩
      · exact Or.inl ⟨_, hmine, .dropped⟩
      · exact Or.inl ⟨_, hold, .stays⟩
  | replan => exact Or.inl ⟨_, hplace, .stays⟩
  | dispatch => exact Or.inl ⟨_, hplace, .stays⟩
  | restart w threads =>
      rcases getElem?_dropped_cases hplace with ⟨old, hold, rfl⟩
      exact Or.inl ⟨old, hold, .dropped⟩

theorem Step.length_le (hstep : Step config fails s t) :
    s.threads.length ≤ t.threads.length := by
  cases hstep with
  | start request w threads => simp
  | move hmoves =>
      cases hmoves with
      | move => simp
  | abandon => simp
  | replan => exact Nat.le_refl _
  | dispatch => exact Nat.le_refl _
  | restart => simp

theorem Step.becomes (hstep : Step config fails s t) (hplace : s.threads[place]? = some thread) :
    exists thread', t.threads[place]? = some thread' ∧
      thread.Becomes fails s.world t.world thread' := by
  have hinside := (List.getElem?_eq_some_iff.mp hplace).1
  have hlater := List.getElem?_eq_getElem (Nat.lt_of_lt_of_le hinside hstep.length_le)
  rcases hstep.came hlater with ⟨old, hold, hbecomes⟩ | ⟨hlast, _⟩
  · cases hplace.symm.trans hold
    exact ⟨_, hlater, hbecomes⟩
  · omega

theorem steps_keep {states : Nat -> System} {last i k : Nat} {P : Thread -> Prop}
    (hsteps : forall n, n < last -> Step config fails (states n) (states (n + 1)))
    (hkept : forall n thread thread', n < last -> thread ∈ (states n).threads ->
      thread.Becomes fails (states n).world (states (n + 1)).world thread' -> P thread -> P thread')
    (hplace : (states i).threads[place]? = some thread) (hthread : P thread) (hik : i ≤ k)
    (hk : k ≤ last) :
    exists thread', (states k).threads[place]? = some thread' ∧ P thread' := by
  induction k, hik using Nat.le_induction with
  | base => exact ⟨thread, hplace, hthread⟩
  | succ k _ ih =>
      rcases ih (Nat.le_of_succ_le hk) with ⟨old, hold, hdoes⟩
      rcases (hsteps k hk).becomes hold with ⟨new, hnew, hbecomes⟩
      exact ⟨new, hnew, hkept k old new hk (List.mem_of_getElem? hold) hbecomes hdoes⟩

end System

/-!
# Guards
-/

namespace System

variable {config : Config} {fails : Call -> ServiceError -> Prop} {things : List Thing}
  {ids : IdSource} {s : System}

def guards (s : System) : List TriggerId :=
  s.threads.flatMap (·.standing.locks)

theorem guards_set {threads : List Thread} {place : Nat} {thread : Thread}
    (hplace : threads[place]? = some thread) :
    exists others, (forall w, (guards ⟨w, threads⟩).Perm (thread.standing.locks ++ others)) ∧
      forall w thread', (guards ⟨w, threads.set place thread'⟩).Perm
        (thread'.standing.locks ++ others) := by
  rcases List.getElem?_eq_some_iff.mp hplace with ⟨hinside, rfl⟩
  refine ⟨(threads.take place ++ threads.drop (place + 1)).flatMap (·.standing.locks), ?_, ?_⟩
  · intro w
    rw [guards]
    nth_rewrite 1 [← threads.take_append_drop place, List.drop_eq_getElem_cons hinside]
    exact List.perm_middle.flatMap_right _
  · intro w thread'
    rw [guards, List.set_eq_take_append_cons_drop, if_pos hinside]
    exact List.perm_middle.flatMap_right _

structure Guarded (s : System) : Prop where
  perm : s.guards.Perm s.world.locks.held
  nodup : s.world.locks.held.Nodup

theorem Guarded.set {w v : World} {threads : List Thread} {place : Nat}
    {thread thread' : Thread} (h : Guarded ⟨w, threads⟩) (hplace : threads[place]? = some thread)
    (hkept : thread'.standing.locks = thread.standing.locks) (hv : v.locks = w.locks) :
    Guarded ⟨v, threads.set place thread'⟩ := by
  rcases guards_set hplace with ⟨others, hold, hnew⟩
  constructor
  · show (guards ⟨v, threads.set place thread'⟩).Perm v.locks.held
    rw [hv]
    apply (hnew v thread').trans
    rw [hkept]
    exact (hold w).symm.trans h.perm
  · show v.locks.held.Nodup
    rw [hv]
    exact h.nodup

theorem Guarded.move {H : History} {w v : World} {threads : List Thread} {place : Nat}
    {request : Request} {st st' : Standing} {work work' : Saga (Except TriggerError Answer)}
    (h : Guarded ⟨w, threads⟩) (hg : Governed (order config H) fails ⟨w, threads⟩)
    (hplace : threads[place]? = some ⟨request, st, some work⟩)
    (hstep : work.Step fails st w st' v work') :
    Guarded ⟨v, threads.set place ⟨request, st', some work'⟩⟩ := by
  have hmeets := hg.meets place request st work hplace
  cases hstep with
  | call c next => exact h.set hplace rfl (c.perform_locks w)
  | failure | busy | isHeld | draw | detach => exact h.set hplace rfl rfl
  | acquire id next st w locks hlocks =>
      rcases hmeets with ⟨hnone, _, _⟩
      rcases LockTable.acquire?_eq_some hlocks with ⟨hfree, rfl⟩
      rcases guards_set hplace with ⟨others, hold, hnew⟩
      have hothers : others.Perm w.locks.held := by
        have hperm := (hold w).symm.trans h.perm
        rw [hnone] at hperm
        exact hperm
      constructor
      · apply (hnew _ _).trans
        rw [hnone]
        exact hothers.cons id
      · refine List.nodup_cons.mpr ⟨?_, h.nodup⟩
        simpa [LockTable.isHeld] using hfree
  | release id next st w =>
      rcases hmeets with ⟨hmine, _⟩
      rcases guards_set hplace with ⟨others, hold, hnew⟩
      have hothers : (id :: others).Perm w.locks.held := by
        have hperm := (hold w).symm.trans h.perm
        rw [hmine] at hperm
        exact hperm
      have hnot : id ∉ others := (List.nodup_cons.mp (hothers.nodup_iff.mpr h.nodup)).1
      have hrest : (id :: others).filter (· != id) = others := by
        rw [List.filter_cons_of_neg (by simp), List.filter_eq_self]
        rintro other hother
        rw [bne_iff_ne]
        rintro rfl
        exact hnot hother
      constructor
      · apply (hnew _ _).trans
        rw [show st.locks.filter (· != id) = [] by simp [hmine], List.nil_append]
        show others.Perm (w.locks.held.filter (· != id))
        rw [← hrest]
        exact hothers.filter _
      · exact h.nodup.filter _

theorem Reachable.guarded (hs : Reachable config fails things ids s) : Guarded s := by
  induction hs with
  | start => exact ⟨List.Perm.nil, List.nodup_nil⟩
  | step hs hstep ih =>
      cases hstep with
      | start request w threads =>
          refine ⟨?_, ih.nodup⟩
          show (guards ⟨w, threads ++ [.start config request]⟩).Perm w.locks.held
          rw [guards, List.flatMap_append, List.flatMap_singleton]
          show (guards ⟨w, threads⟩ ++ []).Perm w.locks.held
          rw [List.append_nil]
          exact ih.perm
      | move hmoves =>
          cases hmoves with
          | move hplace hmove => exact ih.move hs.ordered hplace hmove
      | abandon hplace hattached =>
          apply ih.set hplace _ rfl
          exact (hs.ordered.attached _ _ hplace hattached).symm
      | replan => exact ⟨ih.perm, ih.nodup⟩
      | dispatch => exact ⟨ih.perm, ih.nodup⟩
      | restart w threads =>
          have hnone : (threads.map Thread.dropped).flatMap (·.standing.locks) = [] := by
            rw [List.flatMap_map]
            exact List.flatMap_eq_nil_iff.mpr fun _ _ => rfl
          exact ⟨List.Perm.of_eq hnone, List.nodup_nil⟩

theorem Guarded.count (h : Guarded s) (id : TriggerId) :
    s.guards.count id = if s.world.locks.isHeld id then 1 else 0 := by
  rw [h.perm.count_eq]
  by_cases hid : id ∈ s.world.locks.held
  · rw [List.count_eq_one_of_mem h.nodup hid, if_pos (by simpa [LockTable.isHeld] using hid)]
  · rw [List.count_eq_zero_of_not_mem hid, if_neg (by simpa [LockTable.isHeld] using hid)]

end System

/-!
# Locks are given back at the end
-/

namespace Saga.ReleasesLast

variable {α : Type} {fails : Call -> ServiceError -> Prop} {s s' : Saga α} {st st' : Standing}
  {w v : World}

theorem step (h : s.ReleasesLast) (hstep : s.Step fails st w st' v s') : s'.ReleasesLast := by
  cases hstep with
  | call | failure | acquire | busy | isHeld | draw => exact h _
  | release =>
      rcases h with ⟨a, rfl⟩
      trivial
  | detach => exact h

theorem keeps (h : s.ReleasesLast) (hstep : s.Step fails st w st' v s')
    (hfirst : forall id next, s = .acquire id next -> st.locks = []) {id : TriggerId}
    (hlocks : st.locks = [id]) : st'.locks = [id] ∨ exists a, s' = .done a := by
  cases hstep with
  | acquire id' next =>
      rw [hfirst id' next rfl] at hlocks
      cases hlocks
  | release => exact Or.inr h
  | call | failure | busy | isHeld | draw | detach => exact Or.inl hlocks

end Saga.ReleasesLast

theorem Request.releasesLast (config : Config) {request : Request} (h : request ≠ .recover) :
    (request.operation config).ReleasesLast := by
  cases request with
  | create request => exact (Lifecycle.create_releasesLast config request).answer _
  | delete user id => exact (Lifecycle.delete_releasesLast config user id).answer _
  | addTarget user id target =>
      exact (Lifecycle.addTarget_releasesLast config user id target).answer _
  | removeTarget user id => exact (Lifecycle.removeTarget_releasesLast user id).answer _
  | getTrigger user id =>
      exact .answer (.of_lockless (.bind (Lifecycle.lockless_visibleTrigger user id) fun _ =>
        .bind (.ask _) fun _ => .pure _)) _
  | listTriggers user => exact .answer (.of_lockless (.bind (.ask _) fun _ => .pure _)) _
  | listTargets user id =>
      exact .answer (.of_lockless (.bind (Lifecycle.lockless_visibleTrigger user id) fun _ =>
        .ask _)) _
  | getTarget user id => exact .answer (.of_lockless (Lifecycle.lockless_getTarget user id)) _
  | recover => exact absurd rfl h

def Thread.ReleasesLast (thread : Thread) : Prop :=
  thread.request ≠ .recover -> forall work, thread.rest = some work -> work.ReleasesLast

theorem Thread.Becomes.releasesLast {fails : Call -> ServiceError -> Prop} {w v : World}
    {thread thread' : Thread} (h : thread.Becomes fails w v thread') (hlast : thread.ReleasesLast) :
    thread'.ReleasesLast := by
  cases h with
  | stays => exact hlast
  | dropped => exact fun _ => nofun
  | moves hthread hstep =>
      rw [hthread] at hlast
      rintro hkind _ ⟨⟩
      exact (hlast hkind _ rfl).step hstep

def Thread.LocksFirst (thread : Thread) : Prop :=
  forall id next, thread.rest = some (.acquire id next) -> thread.standing.locks = []

theorem Thread.Becomes.length_locks {fails : Call -> ServiceError -> Prop} {w v : World}
    {thread thread' : Thread} (h : thread.Becomes fails w v thread') (hfirst : thread.LocksFirst)
    (hone : thread.standing.locks.length ≤ 1) : thread'.standing.locks.length ≤ 1 := by
  cases h with
  | stays => exact hone
  | dropped => exact Nat.zero_le 1
  | moves hthread hstep =>
      rcases hthread with rfl
      cases hstep with
      | acquire id next =>
          rw [hfirst id next rfl]
          exact Nat.le_refl 1
      | release => exact Nat.le_trans (List.length_filter_le _ _) hone
      | call | failure | busy | isHeld | draw | detach => exact hone

def Thread.Keeps (id : TriggerId) (thread : Thread) : Prop :=
  thread.standing.locks = [id] ∨ thread.Over

theorem Thread.Becomes.keeps {fails : Call -> ServiceError -> Prop} {w v : World}
    {thread thread' : Thread} {id : TriggerId} (h : thread.Becomes fails w v thread')
    (hlast : thread.ReleasesLast) (hfirst : thread.LocksFirst)
    (hkind : thread.request ≠ .recover) (hkeeps : thread.Keeps id) : thread'.Keeps id := by
  rcases hkeeps with hlocks | hover
  · cases h with
    | stays => exact Or.inl hlocks
    | dropped => exact Or.inr nofun
    | moves hthread hstep =>
        rcases hthread with rfl
        have hunlocked := fun id next heq => hfirst id next (congrArg some heq)
        rcases (hlast hkind _ rfl).keeps hstep hunlocked hlocks with hlocks | ⟨r, rfl⟩
        · exact Or.inl hlocks
        · refine Or.inr ?_
          rintro _ ⟨⟩
          exact ⟨r, rfl⟩
  · exact Or.inr (h.still_over hover)

namespace System

variable {config : Config} {fails : Call -> ServiceError -> Prop} {things : List Thing}
  {ids : IdSource} {s t : System}

theorem Reachable.releasesLast (hs : Reachable config fails things ids s) {thread : Thread}
    (hthread : thread ∈ s.threads) : thread.ReleasesLast := by
  induction hs generalizing thread with
  | start => cases hthread
  | step _ hstep ih =>
      rcases List.mem_iff_getElem?.mp hthread with ⟨place, hplace⟩
      rcases hstep.came hplace with ⟨old, hold, hbecomes⟩ | ⟨_, request, rfl⟩
      · exact hbecomes.releasesLast (ih (List.mem_of_getElem? hold))
      · rintro hkind _ ⟨⟩
        exact (Request.releasesLast config hkind).run

theorem Reachable.locksFirst (hs : Reachable config fails things ids s) {thread : Thread}
    (hthread : thread ∈ s.threads) : thread.LocksFirst := by
  rcases thread with ⟨request, st, rest⟩
  rintro id next ⟨⟩
  rcases List.mem_iff_getElem?.mp hthread with ⟨place, hplace⟩
  exact (hs.ordered.meets place request st _ hplace).1

theorem Reachable.length_locks (hs : Reachable config fails things ids s) {thread : Thread}
    (hthread : thread ∈ s.threads) : thread.standing.locks.length ≤ 1 := by
  induction hs generalizing thread with
  | start => cases hthread
  | step hs hstep ih =>
      rcases List.mem_iff_getElem?.mp hthread with ⟨place, hplace⟩
      rcases hstep.came hplace with ⟨old, hold, hbecomes⟩ | ⟨_, request, rfl⟩
      · have hmem := List.mem_of_getElem? hold
        exact hbecomes.length_locks (hs.locksFirst hmem) (ih hmem)
      · exact Nat.zero_le 1

theorem Reachable.locks_eq (hs : Reachable config fails things ids s) {thread : Thread}
    (hthread : thread ∈ s.threads) {id : TriggerId} (hid : id ∈ thread.standing.locks) :
    thread.standing.locks = [id] := by
  have hone := hs.length_locks hthread
  rcases List.length_eq_one_iff.mp (Nat.le_antisymm hone (List.length_pos_of_mem hid)) with
    ⟨held, hlocks⟩
  rw [hlocks] at hid ⊢
  rw [List.mem_singleton.mp hid]

end System

/-!
# Writes
-/

structure Call.Concerns (naming : ResourceNaming) (id : TriggerId) (w : World) (c : Call) :
    Prop where
  changes : ¬ c.Reads
  about : c.About naming id w
  only : forall other, c.About naming other w -> other = id

namespace System

variable {config : Config} {fails : Call -> ServiceError -> Prop} {things : List Thing}
  {ids : IdSource} {s t : System} {place : Nat} {id : TriggerId} {request : Request}
  {st : Standing} {c : Call}
  {next : Except ServiceError c.Reply -> Saga (Except TriggerError Answer)}

/-- The operation at a place makes a call that concerns the trigger, be it done or not. -/
structure Writes (config : Config) (fails : Call -> ServiceError -> Prop) (id : TriggerId)
    (place : Nat) (s t : System) : Prop where
  moves : Moves fails place s t
  call : exists request st c next, s.threads[place]? = some ⟨request, st, some (.call c next)⟩ ∧
    c.Concerns config.naming id s.world

/-- Whatever is not a question is asked under the lock of one trigger, which it is about. -/
theorem Reachable.reads_or_about (hs : Reachable config fails things ids s)
    (hids : s.world.ids.Unrepeated)
    (hplace : s.threads[place]? = some ⟨request, st, some (.call c next)⟩) :
    c.Reads ∨ exists id, st.locks = [id] ∧ c.About config.naming id s.world := by
  rcases hs.ordered.reads_or_permitted hplace with hreads | ⟨id, hlocks, hpermitted⟩
  · exact Or.inl hreads
  · exact Or.inr ⟨id, hlocks, hpermitted.about (Or.inl (hs.drawn hids).distinct)⟩

theorem Writes.locks (h : Writes config fails id place s t)
    (hs : Reachable config fails things ids s) (hids : s.world.ids.Unrepeated) {thread : Thread}
    (hplace : s.threads[place]? = some thread) : thread.standing.locks = [id] := by
  rcases h.call with ⟨request, st, c, next, hcall, hconcerns⟩
  cases hplace.symm.trans hcall
  rcases hs.reads_or_about hids hcall with hreads | ⟨mine, hlocks, habout⟩
  · exact absurd hreads hconcerns.changes
  · rw [← hconcerns.only mine habout]
    exact hlocks

theorem Writes.not_over (h : Writes config fails id place s t) {thread : Thread}
    (hplace : s.threads[place]? = some thread) : ¬ thread.Over := by
  rcases h.call with ⟨request, st, c, next, hcall, _⟩
  cases hplace.symm.trans hcall
  intro hover
  rcases hover _ rfl with ⟨r, hr⟩
  cases hr

theorem Moves.writes (hmoves : Moves fails place s t) (hs : Reachable config fails things ids s)
    (hids : s.world.ids.Unrepeated)
    (hchanged : t.world.estate config.naming id ≠ s.world.estate config.naming id) :
    Writes config fails id place s t := by
  refine ⟨hmoves, ?_⟩
  cases hmoves with
  | @move w v threads request st st' work work' hplace hstep =>
      have hsame : ¬ w.SameServices v := fun hv => hchanged (World.estate_of_services hv)
      cases hstep with
      | call c next =>
          refine ⟨request, st, c, next, hplace, ?_⟩
          have hkept : forall other, c.About config.naming other w -> other = id := by
            intro other habout
            by_contra hother
            apply hchanged
            apply Call.share_perform _ hs.ordered.inv.integrity habout
            simpa using hother
          rcases hs.reads_or_about hids hplace with hreads | ⟨mine, hlocks, habout⟩
          · rw [hreads.perform_eq] at hchanged
            exact absurd rfl hchanged
          · rcases hkept mine habout with rfl
            refine ⟨?_, habout, hkept⟩
            intro hreads
            rw [hreads.perform_eq] at hchanged
            exact hchanged rfl
      | _ => exact absurd ⟨rfl, rfl, rfl, rfl⟩ hsame

theorem Step.writes (hstep : Step config fails s t) (hs : Reachable config fails things ids s)
    (hids : s.world.ids.Unrepeated)
    (hchanged : t.world.estate config.naming id ≠ s.world.estate config.naming id) :
    exists place, Writes config fails id place s t := by
  cases hstep with
  | @move place s t hmoves => exact ⟨place, hmoves.writes hs hids hchanged⟩
  | dispatch u w =>
      exact absurd (World.estate_of_services (w.sameServices_dispatch u)) hchanged
  | _ => exact absurd rfl hchanged

theorem Moves.refused {next : Bool -> Saga (Except TriggerError Answer)}
    (hmoves : Moves fails place s t)
    (hplace : s.threads[place]? = some ⟨request, st, some (.acquire id next)⟩)
    (hheld : s.world.locks.isHeld id = true) :
    t = ⟨s.world, s.threads.set place ⟨request, st, some (next false)⟩⟩ := by
  cases hmoves with
  | move hmine hstep =>
      cases hplace.symm.trans hmine
      cases hstep with
      | acquire _ _ _ _ locks hlocks =>
          rw [LockTable.acquire?_eq_none.mpr hheld] at hlocks
          cases hlocks
      | busy => rfl

/-!
# Runs
-/

/-- What becomes of the locks in a run. -/
structure Exclusive (fails : Call -> ServiceError -> Prop) (states : Nat -> System)
    (last : Nat) : Prop where
  /-- A lock is in the table as long as one operation holds it, and no longer. -/
  table : forall n, n ≤ last -> forall id,
    (states n).guards.count id = if (states n).world.locks.isHeld id then 1 else 0
  /-- Who is refused a lock leaves all locks as they are. -/
  refused : forall n place request st id next, n < last ->
    (states n).threads[place]? = some ⟨request, st, some (.acquire id next)⟩ ->
    (states n).world.locks.isHeld id = true -> Moves fails place (states n) (states (n + 1)) ->
      states (n + 1) =
        ⟨(states n).world, (states n).threads.set place ⟨request, st, some (next false)⟩⟩
  /-- No lock is left when all operations are over. -/
  empty : forall n, n ≤ last -> (forall thread, thread ∈ (states n).threads -> thread.Over) ->
    (states n).world.locks.held = []
  /-- An operation holds no two locks, and if it is not a sweep, it holds its lock to its end. -/
  kept : forall i k id (place : Nat) thread, i ≤ k -> k ≤ last ->
    (states i).threads[place]? = some thread -> id ∈ thread.standing.locks ->
      thread.standing.locks = [id] ∧ (thread.request ≠ .recover ->
        exists thread', (states k).threads[place]? = some thread' ∧
          (thread'.standing.locks = [id] ∨ thread'.Over))

/-- Who writes in a run. -/
structure OneWriter (config : Config) (fails : Call -> ServiceError -> Prop)
    (states : Nat -> System) (last : Nat) : Prop where
  /-- An operation that does more than ask holds the lock of one trigger, and what it does is
  about this trigger. -/
  about : forall (n place : Nat) (request : Request) (st : Standing) (c : Call)
      (next : Except ServiceError c.Reply -> Saga (Except TriggerError Answer)), n ≤ last ->
    (states n).threads[place]? = some ⟨request, st, some (.call c next)⟩ ->
      c.Reads ∨ exists id, st.locks = [id] ∧ c.About config.naming id (states n).world
  /-- Nothing of a trigger changes but by a write. -/
  changed : forall n id, n < last ->
    (states (n + 1)).world.estate config.naming id ≠ (states n).world.estate config.naming id ->
      exists place, Writes config fails id place (states n) (states (n + 1))
  /-- Who writes holds the lock, and nobody else does. -/
  alone : forall n id place, n < last ->
    Writes config fails id place (states n) (states (n + 1)) ->
      (exists thread, (states n).threads[place]? = some thread ∧ thread.standing.locks = [id]) ∧
        forall other rival, other ≠ place -> (states n).threads[other]? = some rival ->
          id ∉ rival.standing.locks
  /-- Others write between two writes of a sweep only, and only when it does not hold the
  lock. -/
  undisturbed : forall i j k id place other, i < j -> j < k -> k < last -> other ≠ place ->
    Writes config fails id place (states i) (states (i + 1)) ->
    Writes config fails id other (states j) (states (j + 1)) ->
    Writes config fails id place (states k) (states (k + 1)) ->
      exists thread, (states j).threads[place]? = some thread ∧ thread.request = .recover ∧
        id ∉ thread.standing.locks

section Run

variable {states : Nat -> System} {last : Nat}

theorem Reachable.keeps (hs : Reachable config fails things ids (states 0))
    (hsteps : forall n, n < last -> Step config fails (states n) (states (n + 1))) {i k : Nat}
    {thread : Thread} (hplace : (states i).threads[place]? = some thread)
    (hkind : thread.request ≠ .recover) (hlocks : thread.standing.locks = [id]) (hik : i ≤ k)
    (hk : k ≤ last) :
    exists thread', (states k).threads[place]? = some thread' ∧ thread'.Keeps id := by
  have hrun := steps_keep (P := fun thread => thread.request ≠ .recover ∧ thread.Keeps id)
    hsteps ?_ hplace ⟨hkind, Or.inl hlocks⟩ hik hk
  · rcases hrun with ⟨thread', hlater, _, hkeeps⟩
    exact ⟨thread', hlater, hkeeps⟩
  · rintro n old new hn hold hbecomes ⟨hkind, hkeeps⟩
    have hreached := hs.of_steps hsteps (Nat.le_of_lt hn)
    refine ⟨?_, hbecomes.keeps (hreached.releasesLast hold) (hreached.locksFirst hold) hkind hkeeps⟩
    rw [hbecomes.request_eq]
    exact hkind

theorem Reachable.exclusive (hs : Reachable config fails things ids (states 0))
    (hsteps : forall n, n < last -> Step config fails (states n) (states (n + 1))) :
    Exclusive fails states last where
  table n hn := (hs.of_steps hsteps hn).guarded.count
  refused n place request st id next _ hplace hheld hmoves := hmoves.refused hplace hheld
  empty n hn hover := by
    apply List.eq_nil_iff_forall_not_mem.mpr
    intro id hid
    have hfree := (hs.of_steps hsteps hn).unlocked hover id
    rw [LockTable.isHeld, List.contains_eq_mem, decide_eq_false_iff_not] at hfree
    exact hfree hid
  kept i k id place thread hik hk hplace hid := by
    have hreached := hs.of_steps hsteps (Nat.le_trans hik hk)
    have hlocks := hreached.locks_eq (List.mem_of_getElem? hplace) hid
    exact ⟨hlocks, fun hkind => hs.keeps hsteps hplace hkind hlocks hik hk⟩

theorem Reachable.undisturbed (hs : Reachable config fails things ids (states 0))
    (hsteps : forall n, n < last -> Step config fails (states n) (states (n + 1)))
    (hids : (states last).world.ids.Unrepeated) {i j k other : Nat} (hij : i < j) (hjk : j < k)
    (hk : k < last) (hother : other ≠ place)
    (hfirst : Writes config fails id place (states i) (states (i + 1)))
    (hbetween : Writes config fails id other (states j) (states (j + 1)))
    (hagain : Writes config fails id place (states k) (states (k + 1))) :
    exists thread, (states j).threads[place]? = some thread ∧ thread.request = .recover ∧
      id ∉ thread.standing.locks := by
  have hunrepeated : forall {n}, n ≤ last -> (states n).world.ids.Unrepeated :=
    fun hn => (precedes_of_steps hsteps hn).unrepeated hids
  have hj : j ≤ last := by omega
  rcases hfirst.call with ⟨request, st, c, next, hplace, _⟩
  -- while another one writes, the operation at the place does not hold the lock
  have hnot : forall thread, (states j).threads[place]? = some thread ->
      id ∉ thread.standing.locks := by
    intro thread hthread hid
    rcases hbetween.call with ⟨_, _, _, _, hrival, _⟩
    have hreached := hs.of_steps hsteps hj
    have hlocks := hbetween.locks hreached (hunrepeated hj) hrival
    apply hreached.ordered.apart place other _ _ (Ne.symm hother) hthread hrival id hid
    rw [hlocks]
    exact List.mem_singleton_self id
  have hrequest : request = .recover := by
    by_contra hkind
    have hmine : st.locks = [id] :=
      hfirst.locks (hs.of_steps hsteps (by omega)) (hunrepeated (by omega)) hplace
    rcases hs.keeps hsteps hplace hkind hmine (Nat.le_of_lt hij) hj with
      ⟨thread, hthread, hlocks | hover⟩
    · apply hnot thread hthread
      rw [hlocks]
      exact List.mem_singleton_self id
    · -- it is over, so it cannot write again
      rcases steps_keep hsteps (fun _ _ _ _ _ hbecomes hover => hbecomes.still_over hover)
        hthread hover (Nat.le_of_lt hjk) (Nat.le_of_lt hk) with ⟨thread', hthread', hover'⟩
      exact hagain.not_over hthread' hover'
  rcases steps_keep (P := fun thread => thread.request = .recover) hsteps
    (fun _ _ _ _ _ hbecomes h => hbecomes.request_eq.trans h) hplace hrequest
    (Nat.le_of_lt hij) hj with ⟨thread, hthread, hsweep⟩
  exact ⟨thread, hthread, hsweep, hnot thread hthread⟩

/-- In every run a lock is in the table as long as exactly one operation holds it, who is
refused a lock changes nothing, no operation holds two locks, each but a sweep holds its lock
to its end, and no lock is left when all are over.  If no identifier is drawn
twice, everything that is written for a trigger is written by the operation that holds its
lock, and between two writes of an operation others write only if it is a sweep that has given
the lock back in the meantime. -/
theorem Reachable.one_writer (hs : Reachable config fails things ids (states 0))
    (hsteps : forall n, n < last -> Step config fails (states n) (states (n + 1))) :
    Exclusive fails states last ∧
      ((states last).world.ids.Unrepeated -> OneWriter config fails states last) := by
  refine ⟨hs.exclusive hsteps, fun hids => ?_⟩
  have hunrepeated : forall {n}, n ≤ last -> (states n).world.ids.Unrepeated :=
    fun hn => (precedes_of_steps hsteps hn).unrepeated hids
  constructor
  · intro n place request st c next hn hplace
    exact (hs.of_steps hsteps hn).reads_or_about (hunrepeated hn) hplace
  · intro n id hn hchanged
    have hn' := Nat.le_of_lt hn
    exact (hsteps n hn).writes (hs.of_steps hsteps hn') (hunrepeated hn') hchanged
  · intro n id place hn hwrites
    have hreached := hs.of_steps hsteps (Nat.le_of_lt hn)
    rcases hwrites.call with ⟨_, _, _, _, hplace, _⟩
    have hlocks := hwrites.locks hreached (hunrepeated (Nat.le_of_lt hn)) hplace
    refine ⟨⟨_, hplace, hlocks⟩, ?_⟩
    intro other rival hother hrival
    apply hreached.ordered.apart place other _ _ (Ne.symm hother) hplace hrival
    rw [hlocks]
    exact List.mem_singleton_self id
  · exact fun i j k id place other hij hjk hk hother =>
      hs.undisturbed hsteps hids hij hjk hk hother

end Run

/-!
# Two sweeps
-/

/-- The house after a crash just before the handles of an alarm were written, with two sweeps
on their way. -/
def wreck : System :=
  home.play .standard (.start (.create Lifecycle.heatAlarm) :: List.replicate 10 (.go 0) ++
    .restart :: List.replicate 2 (.start .recover))

/-- The first sweep removes the draft, the second one its rule, and the first one its topic. -/
def handover : List Nat :=
  List.replicate 9 1 ++ List.replicate 7 2 ++ List.replicate 6 1

def crossing (n : Nat) : System :=
  wreck.follow (handover.take n)

theorem crossing_moves (n : Nat) (hn : n < handover.length) :
    Moves (fun _ _ => False) handover[n] (crossing n) (crossing (n + 1)) := by
  have hgo : forall n, (hn : n < handover.length) ->
      ((wreck.follow (handover.take n)).go? handover[n]).isSome = true := by
    decide +kernel
  have hmoves : Moves (fun _ _ => False) handover[n] (crossing n)
      ((crossing n).turn .standard (.go handover[n])) := moves_turn (hgo n hn)
  rw [show crossing (n + 1) = (crossing n).go handover[n] by
    rw [crossing, List.take_succ_eq_append_getElem hn, follow_append]
    rfl]
  exact hmoves

theorem crossing_reachable :
    Reachable .standard (fun _ _ => False) [⟨⟨1⟩, "thermostat", ⟨7⟩⟩] ⟨Uuid.ofNat, 0⟩
      (crossing 0) := by
  have hwreck : Reachable .standard (fun _ _ => False) _ _ wreck := home_reachable.play _
  exact hwreck.follow (handover.take 0)

theorem crossing_steps (n : Nat) (hn : n < 22) :
    Step .standard (fun _ _ => False) (crossing n) (crossing (n + 1)) :=
  .move (crossing_moves n hn)

theorem crossing_unrepeated : (crossing 22).world.ids.Unrepeated := by
  have hwreck : home.world.ids.Precedes wreck.world.ids := by
    rw [wreck]
    exact home.precedes_play .standard _
  have hlast : wreck.world.ids.Precedes (crossing 22).world.ids := by
    rw [crossing]
    exact wreck.precedes_follow _
  exact home_unrepeated (hwreck.trans hlast) (by decide +kernel)

theorem crossing_one_writer :
    Reachable .standard (fun _ _ => False) [⟨⟨1⟩, "thermostat", ⟨7⟩⟩] ⟨Uuid.ofNat, 0⟩
      (crossing 0) ∧
    (forall n, n < 22 ->
      Step .standard (fun _ _ => False) (crossing n) (crossing (n + 1))) ∧
    (crossing 22).world.ids.Unrepeated ∧ Exclusive (fun _ _ => False) crossing 22 ∧
      OneWriter .standard (fun _ _ => False) crossing 22 := by
  rcases crossing_reachable.one_writer crossing_steps with ⟨hexclusive, hwriter⟩
  exact ⟨crossing_reachable, crossing_steps, crossing_unrepeated, hexclusive,
    hwriter crossing_unrepeated⟩

theorem crossing_writes (n : Nat) (hn : n < handover.length)
    (hchanged : (crossing (n + 1)).world.estate Config.standard.naming ⟨Uuid.ofNat 0⟩ ≠
      (crossing n).world.estate Config.standard.naming ⟨Uuid.ofNat 0⟩) :
    Writes .standard (fun _ _ => False) ⟨Uuid.ofNat 0⟩ handover[n] (crossing n)
      (crossing (n + 1)) := by
  have hreached := crossing_reachable.of_steps crossing_steps (Nat.le_of_lt hn)
  have hids := (precedes_of_steps crossing_steps (Nat.le_of_lt hn)).unrepeated crossing_unrepeated
  exact (crossing_moves n hn).writes hreached hids hchanged

/-- The two sweeps write for the same trigger in turns. -/
theorem crossing_interleaved :
    Reachable .standard (fun _ _ => False) [⟨⟨1⟩, "thermostat", ⟨7⟩⟩] ⟨Uuid.ofNat, 0⟩
      (crossing 0) ∧
    (forall n, n < 22 ->
      Step .standard (fun _ _ => False) (crossing n) (crossing (n + 1))) ∧
    exists i j k, i < j ∧ j < k ∧ k < 22 ∧
      Writes .standard (fun _ _ => False) ⟨Uuid.ofNat 0⟩ 1 (crossing i) (crossing (i + 1)) ∧
      Writes .standard (fun _ _ => False) ⟨Uuid.ofNat 0⟩ 2 (crossing j) (crossing (j + 1)) ∧
      Writes .standard (fun _ _ => False) ⟨Uuid.ofNat 0⟩ 1 (crossing k) (crossing (k + 1)) := by
  refine ⟨crossing_reachable, crossing_steps, 7, 14, 20, by decide, by decide, by decide, ?_, ?_,
    ?_⟩
  · apply crossing_writes 7 (by decide)
    exact fun heq => absurd (congrArg (·.triggers.length) heq) (by decide +kernel)
  · apply crossing_writes 14 (by decide)
    exact fun heq => absurd (congrArg (·.rules.length) heq) (by decide +kernel)
  · apply crossing_writes 20 (by decide)
    exact fun heq => absurd (congrArg (·.topics.length) heq) (by decide +kernel)

end System
end TelemetryTriggers
