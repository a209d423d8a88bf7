import TelemetryTriggers.Proofs.Orchestrator.Confined
import TelemetryTriggers.Proofs.Orchestrator.Schedule

/-!
# Interleavings

Once they have been started, operations do their steps in any order.  Which one takes
which identifiers and is given which lock depends on that order.

Main definitions: `System.follow`, a schedule that only says whose step is next;
`System.takenBy`, the identifiers that an operation takes in it; `System.admitted`, the
operations that are given their locks in it.
-/

namespace TelemetryTriggers

/-!
# Schedules of steps
-/

namespace System

def go (place : Nat) (s : System) : System :=
  (s.go? place).getD s

def follow (s : System) (places : List Nat) : System :=
  places.foldl (fun s place => s.go place) s

variable {config : Config} {fails : Call -> ServiceError -> Prop} {things : List Thing}
  {ids : IdSource} {s : System} {request : Request} {st st' : Standing} {v : World}
  {work work' : Saga (Except TriggerError Answer)} {place other : Nat}

theorem go_of_next (hplace : s.threads[place]? = some ⟨request, st, some work⟩)
    (hnext : work.next? st s.world = some (st', v, work')) :
    s.go place = ⟨v, s.threads.set place ⟨request, st', some work'⟩⟩ := by
  simp only [go, go?, hplace, hnext, Option.map_some, Option.getD_some]

theorem go_cases (s : System) (place : Nat) :
    s.go place = s ∨
      exists request st st' v work work',
        s.threads[place]? = some ⟨request, st, some work⟩ ∧
          work.next? st s.world = some (st', v, work') ∧
            s.go place = ⟨v, s.threads.set place ⟨request, st', some work'⟩⟩ := by
  cases hgo : s.go? place with
  | none =>
      left
      rw [go, hgo]
      rfl
  | some t =>
      right
      have hmove := hgo
      simp only [go?] at hmove
      split at hmove
      · rename_i request st work hplace
        rcases Option.map_eq_some_iff.mp hmove with ⟨⟨st', v, work'⟩, hnext, _⟩
        exact ⟨request, st, st', v, work, work', hplace, hnext, go_of_next hplace hnext⟩
      · cases hmove

theorem follow_append (s : System) (earlier later : List Nat) :
    s.follow (earlier ++ later) = (s.follow earlier).follow later :=
  List.foldl_append

@[simp] theorem length_go (s : System) (place : Nat) :
    (s.go place).threads.length = s.threads.length := by
  rcases s.go_cases place with hsame | ⟨_, _, _, _, _, _, _, _, hgo⟩
  · rw [hsame]
  · rw [hgo]
    exact List.length_set

theorem length_follow (s : System) (places : List Nat) :
    (s.follow places).threads.length = s.threads.length := by
  induction places generalizing s with
  | nil => rfl
  | cons place places ih => exact (ih (s.go place)).trans (s.length_go place)

theorem getElem?_go_of_ne (s : System) (h : place ≠ other) :
    (s.go place).threads[other]? = s.threads[other]? := by
  rcases s.go_cases place with hsame | ⟨_, _, _, _, _, _, _, _, hgo⟩
  · rw [hsame]
  · rw [hgo]
    exact List.getElem?_set_ne h

theorem getElem?_go_self (hplace : s.threads[place]? = some ⟨request, st, some work⟩)
    (hnext : work.next? st s.world = some (st', v, work')) :
    (s.go place).threads[place]? = some ⟨request, st', some work'⟩ := by
  rw [go_of_next hplace hnext]
  exact List.getElem?_set_self (List.getElem?_eq_some_iff.mp hplace).1

theorem Reachable.go (hs : Reachable config fails things ids s) (place : Nat) :
    Reachable config fails things ids (s.go place) :=
  hs.turn (.go place)

theorem Reachable.follow (hs : Reachable config fails things ids s) (places : List Nat) :
    Reachable config fails things ids (s.follow places) := by
  induction places generalizing s with
  | nil => exact hs
  | cons place places ih => exact ih (hs.go place)

theorem Drew.go {drawn : List Uuid} (h : s.Drew request drawn) (place : Nat) :
    (s.go place).Drew request drawn := by
  rcases s.go_cases place with hsame | ⟨_, _, _, _, _, _, hplace, hnext, hgo⟩
  · rw [hsame]
    exact h
  · rw [hgo]
    have hstep : Saga.Step anyFault _ _ _ _ _ _ := Saga.step_of_next? hnext
    exact h.set hplace rfl hstep.drawn_grows

theorem Drew.follow {drawn : List Uuid} (h : s.Drew request drawn) (places : List Nat) :
    (s.follow places).Drew request drawn := by
  induction places generalizing s with
  | nil => exact h
  | cons place places ih => exact ih (h.go place)

theorem drew_of_next (hplace : s.threads[place]? = some ⟨request, st, some work⟩)
    (hnext : work.next? st s.world = some (st', v, work')) (places : List Nat) :
    (s.follow (place :: places)).Drew request st'.drawn := by
  have hgone := getElem?_go_self hplace hnext
  exact (Drew.of_mem (List.mem_of_getElem? hgone)).follow places

theorem precedes_go (s : System) (place : Nat) : s.world.ids.Precedes (s.go place).world.ids := by
  rcases s.go_cases place with hsame | ⟨_, _, _, _, _, _, _, hnext, hgo⟩
  · rw [hsame]
    exact .refl _
  · rw [hgo]
    have hstep : Saga.Step anyFault _ _ _ _ _ _ := Saga.step_of_next? hnext
    exact hstep.precedes

theorem precedes_follow (s : System) (places : List Nat) :
    s.world.ids.Precedes (s.follow places).world.ids := by
  induction places generalizing s with
  | nil => exact .refl _
  | cons place places ih => exact (s.precedes_go place).trans (ih (s.go place))

theorem precedes_play (config : Config) (s : System) (turns : List Turn) :
    s.world.ids.Precedes (s.play config turns).world.ids := by
  induction turns generalizing s with
  | nil => exact .refl _
  | cons turn turns ih =>
      apply IdSource.Precedes.trans _ (ih (s.turn config turn))
      cases turn with
      | start request => exact .refl _
      | go place => exact s.precedes_go place
      | restart => exact .refl _

theorem home_unrepeated {later : IdSource} (h : home.world.ids.Precedes later)
    (hfew : later.drawn ≤ 8) : later.Unrepeated :=
  h.unrepeated_of_counted rfl (Nat.le_trans hfew (by decide))

/-!
# Answers
-/

def answer? (place : Nat) (s : System) : Option (Except TriggerError Answer) :=
  match s.threads[place]? with
  | some ⟨_, _, some (.done r)⟩ => some r
  | _ => none

theorem answer?_of_done {r : Except TriggerError Answer}
    (h : s.threads[place]? = some ⟨request, st, some (.done r)⟩) : s.answer? place = some r := by
  rw [answer?, h]

theorem answer?_eq_some {r : Except TriggerError Answer} (h : s.answer? place = some r) :
    exists request st, s.threads[place]? = some ⟨request, st, some (.done r)⟩ := by
  simp only [answer?] at h
  split at h
  · rename_i request st r' hplace
    cases h
    exact ⟨request, st, hplace⟩
  · cases h

theorem go_of_answer {r : Except TriggerError Answer} (h : s.answer? place = some r) :
    s.go place = s := by
  rcases answer?_eq_some h with ⟨request, st, hplace⟩
  simp only [go, go?, hplace, Saga.next?, Option.map_none, Option.getD_none]

theorem answer?_go {r : Except TriggerError Answer} (h : s.answer? place = some r)
    (other : Nat) : (s.go other).answer? place = some r := by
  by_cases hsame : other = place
  · subst hsame
    rw [go_of_answer h]
    exact h
  · rw [answer?, s.getElem?_go_of_ne hsame]
    exact h

theorem answer?_follow {r : Except TriggerError Answer} (h : s.answer? place = some r)
    (places : List Nat) : (s.follow places).answer? place = some r := by
  induction places generalizing s with
  | nil => exact h
  | cons other places ih => exact ih (answer?_go h other)

def Ended (first : Nat) (s : System) : Prop :=
  forall place, first ≤ place -> place < s.threads.length -> (s.answer? place).isSome = true

def Asks (request : Request) (place : Nat) (s : System) : Prop :=
  exists st work, s.threads[place]? = some ⟨request, st, some work⟩

theorem Asks.go (h : s.Asks request place) (other : Nat) : (s.go other).Asks request place := by
  rcases h with ⟨st, work, hplace⟩
  by_cases hsame : other = place
  · subst hsame
    rcases s.go_cases other with hsame | ⟨_, _, st', _, _, work', hmine, hnext, _⟩
    · rw [hsame]
      exact ⟨st, work, hplace⟩
    · rw [hplace] at hmine
      cases hmine
      exact ⟨st', work', getElem?_go_self hplace hnext⟩
  · refine ⟨st, work, ?_⟩
    rw [s.getElem?_go_of_ne hsame]
    exact hplace

theorem Asks.follow (h : s.Asks request place) (places : List Nat) :
    (s.follow places).Asks request place := by
  induction places generalizing s with
  | nil => exact h
  | cons other places ih => exact ih (h.go other)

def InPlace (place : Nat) (s : System) : Prop :=
  exists request st work, s.threads[place]? = some ⟨request, st, some work⟩

theorem InPlace.follow (h : s.InPlace place) (places : List Nat) :
    (s.follow places).InPlace place := by
  rcases h with ⟨request, hasks⟩
  exact ⟨request, Asks.follow hasks places⟩

theorem exists_answer_of_next (hplace : s.threads[place]? = some ⟨request, st, some work⟩)
    (hnext : work.next? st s.world = some (st', v, work'))
    (hlater : forall {t : System} {st : Standing},
      t.threads[place]? = some ⟨request, st, some work'⟩ ->
        exists n, ((t.follow (List.replicate n place)).answer? place).isSome = true) :
    exists n, ((s.follow (List.replicate n place)).answer? place).isSome = true := by
  rcases hlater (getElem?_go_self hplace hnext) with ⟨n, hn⟩
  exact ⟨n + 1, hn⟩

theorem exists_answer (hplace : s.threads[place]? = some ⟨request, st, some work⟩) :
    exists n, ((s.follow (List.replicate n place)).answer? place).isSome = true := by
  induction work generalizing s st with
  | done r =>
      refine ⟨0, ?_⟩
      rw [List.replicate_zero, follow, List.foldl_nil, answer?_of_done hplace]
      rfl
  | acquire id next ih =>
      cases hlocks : s.world.locks.acquire? id with
      | none =>
          have hnext : (Saga.acquire id next).next? st s.world =
              some (st, s.world, next false) := by
            rw [Saga.next?, hlocks]
          exact exists_answer_of_next hplace hnext (ih false)
      | some locks =>
          have hnext : (Saga.acquire id next).next? st s.world =
              some ({ st with locks := id :: st.locks }, { s.world with locks }, next true) := by
            rw [Saga.next?, hlocks]
          exact exists_answer_of_next hplace hnext (ih true)
  | release id next ih | detach next ih => exact exists_answer_of_next hplace rfl ih
  | call c next ih | isHeld id next ih | draw next ih =>
      exact exists_answer_of_next hplace rfl (ih _)

theorem exists_follow_answer {ending : List Nat}
    (h : forall place, place ∈ ending -> s.InPlace place) :
    exists places, (forall place, place ∈ places -> place ∈ ending) ∧
      forall place, place ∈ ending -> ((s.follow places).answer? place).isSome = true := by
  induction ending generalizing s with
  | nil => exact ⟨[], nofun, nofun⟩
  | cons place ending ih =>
      rcases h place List.mem_cons_self with ⟨_, _, _, hplace⟩
      rcases exists_answer hplace with ⟨n, hn⟩
      have hothers : forall other, other ∈ ending ->
          (s.follow (List.replicate n place)).InPlace other :=
        fun other hother => (h other (List.mem_cons_of_mem place hother)).follow _
      rcases ih hothers with ⟨places, hplaces, hanswers⟩
      refine ⟨List.replicate n place ++ places, ?_, ?_⟩
      · intro other hother
        rcases List.mem_append.mp hother with hfirst | hlater
        · rw [List.eq_of_mem_replicate hfirst]
          exact List.mem_cons_self
        · exact List.mem_cons_of_mem place (hplaces other hlater)
      · intro other hother
        rw [follow_append]
        rcases List.mem_cons.mp hother with rfl | hlater
        · rcases Option.isSome_iff_exists.mp hn with ⟨r, hr⟩
          rw [answer?_follow hr]
          rfl
        · exact hanswers other hlater

/-!
# Who takes which identifiers
-/

def takenBy (place : Nat) : System -> List Nat -> List Uuid
  | _, [] => []
  | s, next :: places =>
      (if next = place then s.world.ids.gaveUntil (s.go next).world.ids else []) ++
        takenBy place (s.go next) places

theorem takenBy_self (s : System) (place : Nat) (places : List Nat) :
    s.takenBy place (place :: places) =
      s.world.ids.gaveUntil (s.go place).world.ids ++ (s.go place).takenBy place places := by
  rw [takenBy, if_pos rfl]

theorem takenBy_of_ne (s : System) (h : other ≠ place) (places : List Nat) :
    s.takenBy place (other :: places) = (s.go other).takenBy place places := by
  rw [takenBy, if_neg h]
  rfl

theorem takenBy_of_answer {r : Except TriggerError Answer} (h : s.answer? place = some r)
    (places : List Nat) : s.takenBy place places = [] := by
  induction places generalizing s with
  | nil => rfl
  | cons other places ih =>
      have hlater := ih (answer?_go h other)
      by_cases hsame : other = place
      · subst hsame
        rw [takenBy_self, hlater, go_of_answer h, IdSource.gaveUntil_self]
        rfl
      · rw [takenBy_of_ne s hsame, hlater]

/-!
# Who is given a lock
-/

structure Admission where
  place : Nat
  request : Request
  taken : List Uuid

/-- The request at a place with what its operation has drawn, if its next step takes a
lock that is free. -/
def admission? (place : Nat) (s : System) : Option (Request × List Uuid) :=
  match s.threads[place]? with
  | some ⟨request, st, some (.acquire id _)⟩ =>
      if s.world.locks.isHeld id then none else some (request, st.drawn)
  | _ => none

def admitted : System -> List Nat -> List Admission
  | _, [] => []
  | s, place :: places =>
      match s.admission? place with
      | some (request, drawn) =>
          ⟨place, request, drawn ++ (s.go place).takenBy place places⟩ ::
            admitted (s.go place) places
      | none => admitted (s.go place) places

theorem admission?_of_acquire {id : TriggerId} {next : Bool -> Saga (Except TriggerError Answer)}
    (hplace : s.threads[place]? = some ⟨request, st, some (.acquire id next)⟩)
    (hfree : s.world.locks.isHeld id = false) :
    s.admission? place = some (request, st.drawn) := by
  simp only [admission?, hplace, hfree, Bool.false_eq_true, if_false]

theorem admission?_eq_some {drawn : List Uuid} (h : s.admission? place = some (request, drawn)) :
    exists st id next, s.threads[place]? = some ⟨request, st, some (.acquire id next)⟩ ∧
      s.world.locks.isHeld id = false ∧ drawn = st.drawn := by
  simp only [admission?] at h
  split at h
  · rename_i request' st id next hplace
    split at h
    · cases h
    · rename_i hfree
      cases h
      exact ⟨st, id, next, hplace, Bool.eq_false_iff.mpr hfree, rfl⟩
  · cases h

theorem isHeld_of_not_admitted (h : s.admission? place = none)
    (hplace : s.threads[place]? = some ⟨request, st, some work⟩) (id : TriggerId)
    (next : Bool -> Saga (Except TriggerError Answer)) (hwork : work = .acquire id next) :
    s.world.locks.isHeld id = true := by
  subst hwork
  by_contra hfree
  rw [admission?_of_acquire hplace (Bool.eq_false_iff.mpr hfree)] at h
  cases h

end System
end TelemetryTriggers
