import TelemetryTriggers.Proofs.Orchestrator.System
import TelemetryTriggers.Proofs.Saga.Only
import TelemetryTriggers.Proofs.Services.Fanout

/-!
# Disciplines

A discipline says which calls an operation may make while it holds which locks, and
what an operation can rely on as long as it holds a lock.  If every operation keeps
to the discipline in a setting where the others may do whatever they may, all
operations keep to it together, under every schedule.

Main definitions: `Discipline`, with the laws it has to obey; `Governed`, the
invariant of a system that keeps to it.  The main statement is
`System.Reachable.governed`.
-/

namespace TelemetryTriggers

structure World.SameServices (w v : World) : Prop where
  store : v.store = w.store
  topics : v.broker.topics = w.broker.topics
  subscriptions : v.broker.subscriptions = w.broker.subscriptions
  engine : v.engine = w.engine

theorem World.SameServices.refl (w : World) : w.SameServices w :=
  ⟨rfl, rfl, rfl, rfl⟩

theorem World.sameServices_dispatch (w : World) (u : ShadowUpdate) :
    w.SameServices (w.dispatch u).2 := by
  rw [w.dispatch_log u]
  exact ⟨rfl, rfl, rfl, rfl⟩

/-!
# The laws of a discipline
-/

/-- What operations keep to. -/
structure Discipline where
  /-- This holds between any two steps. -/
  inv : World -> Prop
  /-- Others can lead from the first world to the second. -/
  between : Standing -> World -> World -> Prop
  /-- The operation of a request may make this call. -/
  allowed : Request -> Standing -> Call -> World -> Prop
  /-- These identifiers can be what the operation of a request has drawn. -/
  drawable : Request -> List Uuid -> Prop

namespace Discipline

def setting (D : Discipline) (fails : Call -> ServiceError -> Prop) (request : Request) :
    Setting where
  fails := fails
  between := D.between
  inv := D.inv
  allowed := D.allowed request
  drawable := D.drawable request

/-- Allowed calls keep what holds between steps, and what those who hold other locks
rely on. -/
structure Lawful (D : Discipline) : Prop where
  inv_same : forall {w v}, w.SameServices v -> D.inv w -> D.inv v
  inv_perform : forall {request st c w}, D.inv w -> D.allowed request st c w ->
    D.inv (c.perform w).2
  between_same : forall {st w v}, w.SameServices v -> D.between st w v
  between_trans : forall st w v u, D.between st w v -> D.between st v u -> D.between st w u
  between_perform : forall {request st rival c w}, D.inv w -> D.allowed request st c w ->
    (forall id, id ∈ st.locks -> id ∉ rival.locks) -> D.between rival w (c.perform w).2
  earlier : forall {request drawn first}, D.drawable request drawn -> first <+: drawn ->
    D.drawable request first

end Discipline

def settled : Except TriggerError Answer -> Assertion :=
  fun _ st _ => st.locks = []

/-!
# Systems that keep to a discipline
-/

/-- What is left of every operation keeps to the discipline, and locks are held by at
most one operation. -/
structure Governed (D : Discipline) (fails : Call -> ServiceError -> Prop) (s : System) :
    Prop where
  inv : D.inv s.world
  meets : forall (place : Nat) request st work,
    s.threads[place]? = some ⟨request, st, some work⟩ ->
      work.Meets (D.setting fails request) settled st s.world
  held : forall (place : Nat) (thread : Thread), s.threads[place]? = some thread ->
    forall id, id ∈ thread.standing.locks -> s.world.locks.isHeld id = true
  apart : forall (place other : Nat) (thread rival : Thread), place ≠ other ->
    s.threads[place]? = some thread -> s.threads[other]? = some rival ->
      forall id, id ∈ thread.standing.locks -> id ∉ rival.standing.locks
  attached : forall (place : Nat) (thread : Thread), s.threads[place]? = some thread ->
    thread.standing.detached = false -> thread.standing.locks = []

theorem getElem?_set_cases {threads : List Thread} {place other : Nat}
    {thread rival : Thread} (h : (threads.set place thread)[other]? = some rival) :
    (place = other ∧ rival = thread) ∨ (place ≠ other ∧ threads[other]? = some rival) := by
  by_cases hsame : place = other
  · subst hsame
    rw [List.getElem?_set_self'] at h
    rcases Option.map_eq_some_iff.mp h with ⟨_, _, hthread⟩
    exact Or.inl ⟨rfl, hthread.symm⟩
  · rw [List.getElem?_set_ne hsame] at h
    exact Or.inr ⟨hsame, h⟩

theorem getElem?_append_cases {threads : List Thread} {other : Nat} {thread rival : Thread}
    (h : (threads ++ [thread])[other]? = some rival) :
    threads[other]? = some rival ∨ (other = threads.length ∧ rival = thread) := by
  rw [List.getElem?_append] at h
  split at h
  · exact Or.inl h
  · rename_i hlength
    rcases List.getElem?_eq_some_iff.mp h with ⟨hshort, hrival⟩
    have hshort : other - threads.length < 1 := hshort
    have hzero : other - threads.length = 0 := by omega
    refine Or.inr ⟨by omega, ?_⟩
    rw [← hrival]
    simp [hzero]

theorem getElem?_dropped_cases {threads : List Thread} {place : Nat} {thread : Thread}
    (h : (threads.map Thread.dropped)[place]? = some thread) :
    exists old : Thread, threads[place]? = some old ∧ thread = old.dropped := by
  rw [List.getElem?_map] at h
  rcases Option.map_eq_some_iff.mp h with ⟨old, hold, rfl⟩
  exact ⟨old, hold, rfl⟩

namespace Governed

variable {D : Discipline} {fails : Call -> ServiceError -> Prop} {place : Nat}
  {w v : World} {threads : List Thread} {thread : Thread} {request : Request}
  {st st' : Standing} {work work' : Saga (Except TriggerError Answer)}

theorem meets_later (hD : D.Lawful) (h : work.Meets (D.setting fails request) settled st w)
    (hbetween : D.between st w v) :
    work.Meets (D.setting fails request) settled st v :=
  h.later hD.between_trans (fun _ _ _ _ hend _ => hend) hbetween

theorem detached_of_held {s : System} (h : Governed D fails s)
    (hplace : s.threads[place]? = some thread) {id : TriggerId}
    (hid : id ∈ thread.standing.locks) : thread.standing.detached = true := by
  by_contra hattached
  rw [h.attached place thread hplace (Bool.eq_false_iff.mpr hattached)] at hid
  cases hid

theorem set (hD : D.Lawful) (h : Governed D fails ⟨w, threads⟩)
    (hplace : threads[place]? = some thread) {thread' : Thread} (hinv : D.inv v)
    (hmeets : forall request st work, thread' = ⟨request, st, some work⟩ ->
      work.Meets (D.setting fails request) settled st v)
    (hbetween : forall rival : Standing,
      (forall id, id ∈ thread.standing.locks -> id ∉ rival.locks) -> D.between rival w v)
    (hheld : forall id, id ∈ thread'.standing.locks -> v.locks.isHeld id = true)
    (hkept : forall id, w.locks.isHeld id = true -> id ∉ thread.standing.locks ->
      v.locks.isHeld id = true)
    (hnew : forall id, id ∈ thread'.standing.locks ->
      id ∈ thread.standing.locks ∨ w.locks.isHeld id = false)
    (hattached : thread'.standing.detached = false -> thread'.standing.locks = []) :
    Governed D fails ⟨v, threads.set place thread'⟩ where
  inv := hinv
  meets := by
    intro other request st work hother
    rcases getElem?_set_cases hother with ⟨_, hthread⟩ | ⟨hne, hold⟩
    · exact hmeets request st work hthread.symm
    · apply meets_later hD (h.meets other request st work hold)
      exact hbetween st (h.apart place other _ _ hne hplace hold)
  held := by
    intro other rival hother id hid
    rcases getElem?_set_cases hother with ⟨_, hthread⟩ | ⟨hne, hold⟩
    · subst hthread
      exact hheld id hid
    · apply hkept id (h.held other rival hold id hid)
      exact fun hmine => h.apart place other _ _ hne hplace hold id hmine hid
  apart := by
    have hmine : forall other rival, place ≠ other -> threads[other]? = some rival ->
        forall id, id ∈ thread'.standing.locks -> id ∉ rival.standing.locks := by
      intro other rival hne hold id hid hrival
      rcases hnew id hid with hid | hfree
      · exact h.apart place other _ _ hne hplace hold id hid hrival
      · have hheld : w.locks.isHeld id = true := h.held other rival hold id hrival
        rw [hheld] at hfree
        cases hfree
    intro first second one two hne hfirst hsecond id hone htwo
    rcases getElem?_set_cases hfirst with ⟨rfl, rfl⟩ | ⟨hother, hold⟩
    · rcases getElem?_set_cases hsecond with ⟨hsame, _⟩ | ⟨_, hold⟩
      · exact hne hsame
      · exact hmine second two hne hold id hone htwo
    · rcases getElem?_set_cases hsecond with ⟨rfl, rfl⟩ | ⟨_, hold'⟩
      · exact hmine first one (Ne.symm hne) hold id htwo hone
      · exact h.apart first second one two hne hold hold' id hone htwo
  attached := by
    intro other rival hother
    rcases getElem?_set_cases hother with ⟨_, hthread⟩ | ⟨_, hold⟩
    · subst hthread
      exact hattached
    · exact h.attached other rival hold

theorem go (hD : D.Lawful) (h : Governed D fails ⟨w, threads⟩)
    (hplace : threads[place]? = some ⟨request, st, some work⟩) (hinv : D.inv v)
    (hmeets : work'.Meets (D.setting fails request) settled st' v)
    (hbetween : forall rival : Standing,
      (forall id, id ∈ st.locks -> id ∉ rival.locks) -> D.between rival w v)
    (hheld : v.locks = w.locks) (hlocks : st'.locks = st.locks)
    (hattached : st'.detached = false -> st.detached = false) :
    Governed D fails ⟨v, threads.set place ⟨request, st', some work'⟩⟩ := by
  apply h.set hD hplace hinv
  · intro _ _ _ heq
    cases heq
    exact hmeets
  · exact hbetween
  · intro id hid
    rw [hheld]
    rw [hlocks] at hid
    exact h.held place _ hplace id hid
  · intro id hid _
    rw [hheld]
    exact hid
  · intro id hid
    rw [hlocks] at hid
    exact Or.inl hid
  · intro hdetached
    rw [hlocks]
    exact h.attached place _ hplace (hattached hdetached)

theorem around (hD : D.Lawful) (h : Governed D fails ⟨w, threads⟩) (hv : w.SameServices v)
    (hlocks : v.locks = w.locks) : Governed D fails ⟨v, threads⟩ where
  inv := hD.inv_same hv h.inv
  meets place request st work hplace :=
    meets_later hD (h.meets place request st work hplace) (hD.between_same hv)
  held place thread hplace id hid := by
    show v.locks.isHeld id = true
    rw [hlocks]
    exact h.held place thread hplace id hid
  apart := h.apart
  attached := h.attached

/-!
# Every step keeps the invariant
-/

theorem move (hD : D.Lawful) (h : Governed D fails ⟨w, threads⟩)
    (hplace : threads[place]? = some ⟨request, st, some work⟩)
    (hstep : work.Step fails st w st' v work') (hdrawn : D.drawable request st'.drawn) :
    Governed D fails ⟨v, threads.set place ⟨request, st', some work'⟩⟩ := by
  have hmeets := h.meets place request st work hplace
  have hinv : D.inv w := h.inv
  have hnow : forall st, D.between st w w := fun st => hD.between_same (.refl w)
  cases hstep with
  | call c next =>
      rcases hmeets w (hnow st) hinv with ⟨hallowed, _, hdone⟩
      apply h.go hD hplace (hD.inv_perform hinv hallowed) hdone
      · exact fun rival hrival => hD.between_perform hinv hallowed hrival
      · exact c.perform_locks w
      · rfl
      · exact fun hdetached => hdetached
  | failure c next st w e he =>
      rcases hmeets w (hnow st) hinv with ⟨_, hfails, _⟩
      exact h.go hD hplace hinv (hfails e he) (fun rival _ => hnow rival) rfl rfl
        fun hdetached => hdetached
  | acquire id next st w locks hlocks =>
      rcases hmeets with ⟨hnone, hdetached, hnext⟩
      rcases LockTable.acquire?_eq_some hlocks with ⟨hfree, rfl⟩
      have hsame : w.SameServices { w with locks := ⟨id :: w.locks.held⟩ } :=
        ⟨rfl, rfl, rfl, rfl⟩
      rw [hnone]
      apply h.set hD hplace (hD.inv_same hsame hinv)
      · intro _ _ _ heq
        cases heq
        exact (hnext w (hnow st) hinv).2 _ hlocks
      · exact fun rival _ => hD.between_same hsame
      · intro other hother
        rw [LockTable.isHeld_acquire? hlocks]
        simp [List.mem_singleton.mp hother]
      · intro other hother _
        rw [LockTable.isHeld_acquire? hlocks, hother, Bool.or_true]
      · intro other hother
        rw [List.mem_singleton.mp hother]
        exact Or.inr hfree
      · intro hattached
        cases hdetached.symm.trans hattached
  | busy id next st w hlocks =>
      rcases hmeets with ⟨_, _, hnext⟩
      exact h.go hD hplace hinv ((hnext w (hnow st) hinv).1 hlocks)
        (fun rival _ => hnow rival) rfl rfl fun hdetached => hdetached
  | release id next st w =>
      rcases hmeets with ⟨hmine, hnext⟩
      have hsame : w.SameServices { w with locks := w.locks.release id } :=
        ⟨rfl, rfl, rfl, rfl⟩
      have hnone : st.locks.filter (· != id) = [] := by simp [hmine]
      rw [hnone]
      apply h.set hD hplace (hD.inv_same hsame hinv)
      · intro _ _ _ heq
        cases heq
        exact hnext w (hnow st) hinv
      · exact fun rival _ => hD.between_same hsame
      · intro other hother
        cases hother
      · intro other hother hother'
        have hne : other ≠ id := by
          intro heq
          rcases heq with rfl
          exact hother' (by simp [hmine])
        rw [LockTable.isHeld_release_of_ne w.locks hne]
        exact hother
      · intro other hother
        cases hother
      · exact fun _ => rfl
  | isHeld id next =>
      exact h.go hD hplace hinv (hmeets w (hnow st) hinv) (fun rival _ => hnow rival) rfl rfl
        fun hdetached => hdetached
  | draw next =>
      have hsame : w.SameServices { w with ids := w.ids.next.2 } := ⟨rfl, rfl, rfl, rfl⟩
      exact h.go hD hplace (hD.inv_same hsame hinv) (hmeets w (hnow st) hinv hdrawn)
        (fun rival _ => hD.between_same hsame) rfl rfl fun hdetached => hdetached
  | detach next =>
      apply h.go hD hplace hinv (hmeets w (hnow st) hinv) (fun rival _ => hnow rival) rfl rfl
      intro hdetached
      cases hdetached

theorem start (h : Governed D fails ⟨w, threads⟩) (config : Config)
    (hmeets : (request.operation config).run.Meets (D.setting fails request) settled
      ⟨[], [], false⟩ w) :
    Governed D fails ⟨w, threads ++ [.start config request]⟩ := by
  constructor
  · exact h.inv
  · intro other request' st work hother
    rcases getElem?_append_cases hother with hold | ⟨_, hnew⟩
    · exact h.meets other request' st work hold
    · cases hnew
      exact hmeets
  · intro other rival hother id hid
    rcases getElem?_append_cases hother with hold | ⟨_, rfl⟩
    · exact h.held other rival hold id hid
    · cases hid
  · intro first second one two hne hfirst hsecond id hone htwo
    rcases getElem?_append_cases hfirst with hold | ⟨_, rfl⟩
    · rcases getElem?_append_cases hsecond with hold' | ⟨_, rfl⟩
      · exact h.apart first second one two hne hold hold' id hone htwo
      · cases htwo
    · cases hone
  · intro other rival hother hdetached
    rcases getElem?_append_cases hother with hold | ⟨_, rfl⟩
    · exact h.attached other rival hold hdetached
    · rfl

theorem abandon (hD : D.Lawful) (h : Governed D fails ⟨w, threads⟩)
    (hplace : threads[place]? = some thread) (hattached : thread.standing.detached = false) :
    Governed D fails ⟨w, threads.set place thread.dropped⟩ := by
  have hnone := h.attached place thread hplace hattached
  apply h.set hD hplace h.inv
  · intro _ _ _ heq
    cases heq
  · exact fun rival _ => hD.between_same (.refl w)
  · intro id hid
    cases hid
  · exact fun id hid _ => hid
  · intro id hid
    cases hid
  · exact fun _ => rfl

theorem restart (hD : D.Lawful) (h : Governed D fails ⟨w, threads⟩) :
    Governed D fails ⟨{ w with locks := .empty }, threads.map Thread.dropped⟩ := by
  constructor
  · have hsame : w.SameServices { w with locks := .empty } := ⟨rfl, rfl, rfl, rfl⟩
    exact hD.inv_same hsame h.inv
  · intro place request st work hplace
    rcases getElem?_dropped_cases hplace with ⟨old, _, heq⟩
    cases heq
  · intro place thread hplace id hid
    rcases getElem?_dropped_cases hplace with ⟨old, _, rfl⟩
    cases hid
  · intro place other thread rival hne hplace hother id hid
    rcases getElem?_dropped_cases hplace with ⟨old, _, rfl⟩
    cases hid
  · intro place thread hplace _
    rcases getElem?_dropped_cases hplace with ⟨old, _, rfl⟩
    rfl

end Governed

/-!
# All reachable systems keep to a discipline
-/

/-- If the first world keeps to a discipline and every operation does, all of them do
together, as long as what they draw is drawable. -/
theorem System.Reachable.governed {config : Config} {fails : Call -> ServiceError -> Prop}
    {things : List Thing} {ids : IdSource} {D : Discipline} {s : System}
    (hs : Reachable config fails things ids s) (hD : D.Lawful)
    (hinv : D.inv (World.ofThings things ids))
    (hmeets : forall request w, D.drawable request [] ->
      (request.operation config).run.Meets (D.setting fails request) settled
        ⟨[], [], false⟩ w)
    (hdrawn : forall request drawn, s.Drew request drawn -> D.drawable request drawn) :
    Governed D fails s := by
  induction hs with
  | start =>
      constructor
      · exact hinv
      · intro place request st work hplace
        cases hplace
      · intro place thread hplace
        cases hplace
      · intro place other thread rival _ hplace
        cases hplace
      · intro place thread hplace
        cases hplace
  | step _ hstep ih =>
      -- the discipline knows what will have been drawn in the end, which includes what
      -- has been drawn so far
      have h := ih fun request drawn hearlier => hdrawn request drawn (hearlier.step hstep)
      cases hstep with
      | start request w threads =>
          apply h.start config (hmeets request w ?_)
          apply hdrawn
          exact Drew.of_mem (s := ⟨w, threads ++ [.start config request]⟩)
            (List.mem_append_right threads (List.mem_singleton_self _))
      | move hmoves =>
          cases hmoves with
          | @move w v threads request st st' work work' hplace hstep =>
              apply h.move hD hplace hstep
              apply hdrawn
              rcases List.getElem?_eq_some_iff.mp hplace with ⟨hlength, _⟩
              exact Drew.of_mem (s := ⟨v, threads.set _ ⟨request, st', some work'⟩⟩)
                (List.mem_set hlength _)
      | abandon hplace hattached => exact h.abandon hD hplace hattached
      | replan faults => exact h.around hD ⟨rfl, rfl, rfl, rfl⟩ rfl
      | dispatch u w => exact h.around hD (w.sameServices_dispatch u) rfl
      | restart => exact h.restart hD

/-!
# Two disciplines at once

What one discipline guarantees can be relied on when an operation is shown to keep to
another one, since the operations keep to both together.
-/

namespace Discipline

def and (D E : Discipline) : Discipline where
  inv w := D.inv w ∧ E.inv w
  between st w v := D.between st w v ∧ E.between st w v
  allowed request st c w := D.allowed request st c w ∧ E.allowed request st c w
  drawable request drawn := D.drawable request drawn ∧ E.drawable request drawn

variable {D E : Discipline} {fails : Call -> ServiceError -> Prop} {request : Request}
  {α : Type} {post : α -> Assertion} {s : Saga α} {st : Standing} {w : World}

theorem Lawful.and (hD : D.Lawful) (hE : E.Lawful) : (D.and E).Lawful where
  inv_same hv hw := ⟨hD.inv_same hv hw.1, hE.inv_same hv hw.2⟩
  inv_perform hw hc := ⟨hD.inv_perform hw.1 hc.1, hE.inv_perform hw.2 hc.2⟩
  between_same hv := ⟨hD.between_same hv, hE.between_same hv⟩
  between_trans st w v u hv hu :=
    ⟨hD.between_trans st w v u hv.1 hu.1, hE.between_trans st w v u hv.2 hu.2⟩
  between_perform hw hc hapart :=
    ⟨hD.between_perform hw.1 hc.1 hapart, hE.between_perform hw.2 hc.2 hapart⟩
  earlier h hfirst := ⟨hD.earlier h.1 hfirst, hE.earlier h.2 hfirst⟩

theorem meets_and {post' : α -> Assertion}
    (h : s.Meets (D.setting fails request) post st w)
    (h' : s.Meets (E.setting fails request) post' st w) :
    s.Meets ((D.and E).setting fails request) (fun a st w => post a st w ∧ post' a st w)
      st w := by
  induction s generalizing st w with
  | done a => exact ⟨h, h'⟩
  | call c next ih =>
      intro v hv hinv
      rcases h v hv.1 hinv.1 with ⟨hallowed, hfails, hdone⟩
      rcases h' v hv.2 hinv.2 with ⟨hallowed', hfails', hdone'⟩
      exact ⟨⟨hallowed, hallowed'⟩, fun e he => ih _ (hfails e he) (hfails' e he),
        ih _ hdone hdone'⟩
  | acquire id next ih =>
      refine ⟨h.1, h.2.1, fun v hv hinv => ?_⟩
      rcases h.2.2 v hv.1 hinv.1 with ⟨hbusy, hfree⟩
      rcases h'.2.2 v hv.2 hinv.2 with ⟨hbusy', hfree'⟩
      exact ⟨fun hheld => ih _ (hbusy hheld) (hbusy' hheld),
        fun locks hl => ih _ (hfree locks hl) (hfree' locks hl)⟩
  | release id next ih =>
      exact ⟨h.1, fun v hv hinv => ih (h.2 v hv.1 hinv.1) (h'.2 v hv.2 hinv.2)⟩
  | isHeld id next ih => exact fun v hv hinv => ih _ (h v hv.1 hinv.1) (h' v hv.2 hinv.2)
  | draw next ih =>
      exact fun v hv hinv hd => ih _ (h v hv.1 hinv.1 hd.1) (h' v hv.2 hinv.2 hd.2)
  | detach next ih => exact fun v hv hinv => ih (h v hv.1 hinv.1) (h' v hv.2 hinv.2)

theorem meets_and_of_only {P : Call -> Prop} (h : s.Meets (D.setting fails request) post st w)
    (honly : s.Only P) (hallowed : forall c st w, P c -> E.allowed request st c w) :
    s.Meets ((D.and E).setting fails request) post st w := by
  induction s generalizing st w with
  | done a => exact h
  | call c next ih =>
      intro v hv hinv
      rcases h v hv.1 hinv.1 with ⟨hmine, hfails, hdone⟩
      exact ⟨⟨hmine, hallowed c st v honly.1⟩, fun e he => ih _ (hfails e he) (honly.2 _),
        ih _ hdone (honly.2 _)⟩
  | acquire id next ih =>
      refine ⟨h.1, h.2.1, fun v hv hinv => ?_⟩
      rcases h.2.2 v hv.1 hinv.1 with ⟨hbusy, hfree⟩
      exact ⟨fun hheld => ih _ (hbusy hheld) (honly _),
        fun locks hl => ih _ (hfree locks hl) (honly _)⟩
  | release id next ih => exact ⟨h.1, fun v hv hinv => ih (h.2 v hv.1 hinv.1) honly⟩
  | isHeld id next ih => exact fun v hv hinv => ih _ (h v hv.1 hinv.1) (honly _)
  | draw next ih => exact fun v hv hinv hd => ih _ (h v hv.1 hinv.1 hd.1) (honly _)
  | detach next ih => exact fun v hv hinv => ih (h v hv.1 hinv.1) honly

end Discipline
end TelemetryTriggers
