import TelemetryTriggers.Proofs.Orchestrator.Interleaving
import TelemetryTriggers.Proofs.Orchestrator.Stages

/-!
# Changes side by side

When operations for changes do their steps in any order, each of them is at a stage of
its own, and a step of one of them leaves the stages of the others alone, as well as all
that belongs to triggers whose lock it does not hold.

Main definition: `System.Course`, an orchestrator in the middle of a schedule.  The main
statements are `System.Course.go`, that a course goes on after every step, and
`System.Course.unchanged`, that an operation which is never given a lock changes nothing.
-/

namespace TelemetryTriggers

/-!
# What a step leaves alone
-/

namespace Stage

/-- What a step of a change does to the services and the locks. -/
inductive Effect (naming : ResourceNaming) (H : History) (w : World) (st st' : Standing)
    (work work' : Saga (Except TriggerError Answer)) : World -> Prop
  | quiet (ids : IdSource) (hkept : st'.locks = st.locks) :
      Effect naming H w st st' work work' { w with ids }
  | call {c : Call} {id : TriggerId} {fresh : List Uuid} (hlocks : st.locks = [id])
      (hkept : st'.locks = st.locks) (hc : c.Confined naming H id fresh) :
      Effect naming H w st st' work work' (c.perform w).2
  | acquire {id : TriggerId} {next : Bool -> Saga (Except TriggerError Answer)}
      (hwork : work = .acquire id next) (hfree : w.locks.isHeld id = false)
      (hlocks : st.locks = []) (locks : LockTable) :
      Effect naming H w st st' work work' { w with locks }
  | release {id : TriggerId} (hlocks : st.locks = [id]) (r : Except TriggerError Answer)
      (hended : work' = .done r) :
      Effect naming H w st st' work work' { w with locks := w.locks.release id }

variable {config : Config} {H : History} {before : LockTable} {spent spent' : Uuid -> Prop}
  {w v : World} {request rival : Request} {st st' mine : Standing}
  {work work' own : Saga (Except TriggerError Answer)}

/-- Reading and drawing are quiet, a lock is taken from a free one, and all else happens
under it. -/
theorem effect (h : Stage config H before spent request w st work)
    (hnext : work.next? st w = some (st', v, work')) :
    Effect config.naming H w st st' work work' v := by
  cases h with
  | asking =>
      rw [Operation.run_ask_bind] at hnext
      cases hnext
      exact .quiet w.ids rfl
  | reading =>
      rw [run_removalAfter] at hnext
      cases hnext
      exact .quiet w.ids rfl
  | waiting hlocks happroach =>
      cases work with
      | done r => cases hnext
      | acquire id next =>
          simp only [Saga.next?] at hnext
          split at hnext
          · rename_i locks hacquire
            cases hnext
            exact .acquire rfl (LockTable.acquire?_eq_some hacquire).1 hlocks locks
          · cases hnext
            exact .quiet w.ids rfl
      | draw next =>
          cases hnext
          exact .quiet _ rfl
      | detach next =>
          cases hnext
          exact .quiet w.ids rfl
      | call c next | release id next | isHeld id next => exact happroach.elim
  | @holding id draws fresh inner hlocks _ hinner =>
      cases inner with
      | done r =>
          cases hnext
          exact .release hlocks r rfl
      | call c next =>
          cases hnext
          exact .call hlocks rfl hinner.1
      | draw next =>
          cases hnext
          exact .quiet _ rfl
      | acquire id next | release id next | isHeld id next | detach next => exact hinner.elim
  | ended hlocks r => cases hnext

theorem Effect.things (h : Effect config.naming H w st st' work work' v) :
    v.store.things = w.store.things := by
  cases h with
  | @call c => exact (c.perform_records w).1
  | quiet | acquire | release => rfl

theorem Effect.share (h : Effect config.naming H w st st' work work' v)
    (hw : w.Assigned config.naming H) (hH : H.Distinct) {owner : Option TriggerId}
    (howner : forall id, id ∈ st.locks -> owner ≠ some id) :
    v.share config.naming (· == owner) = w.share config.naming (· == owner) := by
  cases h with
  | @call c id fresh hlocks _ hc =>
      apply Call.share_perform _ hw.integrity (hc.about hw hH)
      rw [beq_eq_false_iff_ne]
      apply (howner id _).symm
      rw [hlocks]
      exact List.mem_singleton_self id
  | quiet | acquire | release => rfl

theorem Effect.locks (h : Effect config.naming H w st st' work work' v)
    (hbusy : forall id next, work = .acquire id next -> w.locks.isHeld id = true) :
    v.locks = w.locks ∨ exists id, st.locks = [id] ∧ v.locks = w.locks.release id := by
  cases h with
  | quiet => exact Or.inl rfl
  | @call c => exact Or.inl (c.perform_locks w)
  | acquire hwork hfree =>
      rw [hbusy _ _ hwork] at hfree
      cases hfree
  | release hlocks => exact Or.inr ⟨_, hlocks, rfl⟩

theorem Effect.idle (h : Effect config.naming H w st st' work work' v) (hlocks : st.locks = [])
    (hbusy : forall id next, work = .acquire id next -> w.locks.isHeld id = true) :
    st'.locks = [] ∧ v = { w with ids := v.ids } := by
  cases h with
  | quiet _ hkept => exact ⟨hkept.trans hlocks, rfl⟩
  | call hid =>
      rw [hlocks] at hid
      cases hid
  | acquire hwork hfree =>
      rw [hbusy _ _ hwork] at hfree
      cases hfree
  | release hid =>
      rw [hlocks] at hid
      cases hid

theorem Effect.keeps (h : Effect config.naming H w st st' work work' v)
    (hlocks : st.locks ≠ []) : st'.locks = st.locks ∨ exists r, work' = .done r := by
  cases h with
  | quiet _ hkept | call _ hkept => exact Or.inl hkept
  | acquire _ _ hnone => exact absurd hnone hlocks
  | release _ r hended => exact Or.inr ⟨r, hended⟩

theorem isHeld_before (h : Stage config H before spent request w st work) {id : TriggerId}
    (hid : id ∈ st.locks) : before.isHeld id = false := by
  cases h with
  | asking _ hlocks | reading _ hlocks | waiting hlocks | ended hlocks =>
      rw [hlocks] at hid
      exact absurd hid List.not_mem_nil
  | holding hlocks hnew =>
      rw [hlocks] at hid
      rw [List.mem_singleton.mp hid]
      exact hnew

theorem others (h : Stage config H before spent rival w mine own)
    (hstep : Advance config H before spent spent' request w v st st' work')
    (hapart : forall u, u ∈ mine.drawn -> u ∉ st.drawn) :
    Stage config H before spent' rival v mine own := by
  cases h with
  | asking hrequest hlocks hdrawn => exact .asking hrequest hlocks hdrawn
  | reading hrequest hlocks hdrawn hissued hspent =>
      exact .reading hrequest hlocks hdrawn hissued (hstep.grows _ hspent)
  | waiting hlocks happroach hreplay hcleared hsettled =>
      refine .waiting hlocks happroach hreplay ?_ (hsettled.mono hstep.grows)
      exact fun id hseeks => hstep.cleared rival id (hcleared id hseeks) hsettled
  | holding hlocks hnew hinner hdraws hown =>
      refine .holding hlocks hnew hinner hdraws ?_
      intro u hu
      rcases hown u hu with ⟨hdrawn, hfresh⟩
      refine ⟨hdrawn, ?_⟩
      intro hspent
      rcases hstep.used u hspent with hold | htheirs
      · exact hfresh hold
      · exact hapart u hdrawn htheirs
  | ended hlocks r => exact .ended hlocks r

theorem acquire {id : TriggerId} {next : Bool -> Saga (Except TriggerError Answer)}
    (h : Stage config H before spent request w st (.acquire id next)) :
    st.locks = [] ∧ (Saga.acquire id next).Approach config.naming H request st.drawn ∧
      (Saga.acquire id next).Replays config H request st.drawn ∧ request.Cleared H id w := by
  generalize hwork : Saga.acquire id next = work at h
  cases h with
  | asking =>
      rw [Operation.run_ask_bind] at hwork
      cases hwork
  | reading =>
      rw [run_removalAfter] at hwork
      cases hwork
  | waiting hlocks happroach hreplay hcleared =>
      subst hwork
      exact ⟨hlocks, happroach, hreplay, hcleared id rfl⟩
  | @holding _ _ _ inner _ _ hinner =>
      cases inner with
      | done r | call c next | draw next => cases hwork
      | acquire id next | release id next | isHeld id next | detach next => exact hinner.elim
  | ended hlocks r => cases hwork

end Stage

/-!
# All operations together
-/

namespace System

structure Running (config : Config) (H : History) (before : LockTable) (first : Nat)
    (spent : Uuid -> Prop) (s : System) : Prop where
  stages : forall (place : Nat) request st work, first ≤ place ->
    s.threads[place]? = some ⟨request, st, some work⟩ ->
      Stage config H before spent request s.world st work
  rows : forall r, r ∈ s.world.store.targets -> spent r.id.uuid
  gave : forall u, spent u -> s.world.ids.Gave u
  locked : forall id, before.isHeld id = true -> s.world.locks.isHeld id = true

/-- An orchestrator from which on the operations at the places do their steps. -/
structure Course (config : Config) (before : LockTable) (first : Nat) (s : System)
    (places : List Nat) : Prop where
  reachable : exists fails things ids, Reachable config fails things ids s
  inside : forall place, place ∈ places -> first ≤ place
  unrepeated : (s.follow places).world.ids.Unrepeated
  running : exists spent, Running config (s.follow places).Drew before first spent s

namespace Course

variable {config : Config} {before : LockTable} {first place other : Nat} {s : System}
  {places : List Nat} {request : Request} {st st' : Standing} {v : World}
  {work work' : Saga (Except TriggerError Answer)}

theorem drawn (h : Course config before first s places) : Drawn s := by
  rcases h.reachable with ⟨_, _, _, hs⟩
  exact hs.drawn ((s.precedes_follow places).unrepeated h.unrepeated)

theorem distinct (h : Course config before first s places) :
    History.Distinct (s.follow places).Drew := by
  rcases h.reachable with ⟨_, _, _, hs⟩
  exact ((hs.follow places).drawn h.unrepeated).distinct

theorem assigned (h : Course config before first s places) :
    s.world.Assigned config.naming (s.follow places).Drew := by
  rcases h.reachable with ⟨_, _, _, hs⟩
  exact hs.ordered.inv.assigned hs.named fun request drawn hdrawn => hdrawn.follow places

theorem held (h : Course config before first s places)
    (hplace : s.threads[place]? = some ⟨request, st, some work⟩) {id : TriggerId}
    (hid : id ∈ st.locks) : s.world.locks.isHeld id = true := by
  rcases h.reachable with ⟨_, _, _, hs⟩
  exact hs.ordered.held place _ hplace id hid

theorem apart (h : Course config before first s places) (hne : place ≠ other)
    {thread rival : Thread} (hplace : s.threads[place]? = some thread)
    (hother : s.threads[other]? = some rival) {id : TriggerId}
    (hid : id ∈ thread.standing.locks) : id ∉ rival.standing.locks := by
  rcases h.reachable with ⟨_, _, _, hs⟩
  exact hs.ordered.apart place other thread rival hne hplace hother id hid

theorem stage (h : Course config before first s places) (hfirst : first ≤ place)
    (hplace : s.threads[place]? = some ⟨request, st, some work⟩) :
    exists spent, Stage config (s.follow places).Drew before spent request s.world st work := by
  rcases h.running with ⟨spent, hrunning⟩
  exact ⟨spent, hrunning.stages place request st work hfirst hplace⟩

theorem effect (h : Course config before first s (place :: places)) :
    s.go place = s ∨ exists request st st' work work',
      s.threads[place]? = some ⟨request, st, some work⟩ ∧
        (s.go place).threads[place]? = some ⟨request, st', some work'⟩ ∧
          Stage.Effect config.naming (s.follow (place :: places)).Drew s.world st st' work work'
            (s.go place).world := by
  rcases s.go_cases place with hsame | ⟨request, st, st', _, work, work', hplace, hnext, hgo⟩
  · exact Or.inl hsame
  · rcases h.stage (h.inside place List.mem_cons_self) hplace with ⟨_, hstage⟩
    refine Or.inr ⟨request, st, st', work, work', hplace, getElem?_go_self hplace hnext, ?_⟩
    rw [hgo]
    exact hstage.effect hnext

theorem move {spent : Uuid -> Prop} (h : Course config before first s (place :: places))
    (hrunning : Running config (s.follow (place :: places)).Drew before first spent s)
    (hplace : s.threads[place]? = some ⟨request, st, some work⟩)
    (hnext : work.next? st s.world = some (st', v, work')) :
    exists spent', Running config (s.follow (place :: places)).Drew before first spent'
      ⟨v, s.threads.set place ⟨request, st', some work'⟩⟩ := by
  have hgo := go_of_next hplace hnext
  have hprecedes : s.world.ids.Precedes v.ids := by
    have hstep : Saga.Step anyFault _ _ _ _ _ _ := Saga.step_of_next? hnext
    exact hstep.precedes
  have hids : v.ids.Unrepeated := by
    have hlater := ((s.go place).precedes_follow places).unrepeated h.unrepeated
    rw [hgo] at hlater
    exact hlater
  have hstage := hrunning.stages place request st work (h.inside place List.mem_cons_self) hplace
  rcases hstage.step h.assigned h.distinct hrunning.rows hrunning.gave hrunning.locked hnext
    (drew_of_next hplace hnext places) hids with ⟨spent', hadvance⟩
  refine ⟨spent', ?_, hadvance.rows, ?_, hadvance.locked⟩
  · intro other rival mine own hfirst hother
    rcases getElem?_set_cases hother with ⟨_, hthread⟩ | ⟨hne, hold⟩
    · cases hthread
      exact hadvance.stage
    · apply (hrunning.stages other rival mine own hfirst hold).others hadvance
      exact h.drawn.apart other place _ _ hne.symm hold hplace
  · intro u hu
    rcases hadvance.used u hu with hold | hdrawn
    · exact hprecedes.gave (hrunning.gave u hold)
    · exact hprecedes.gave (h.drawn.past place _ hplace u hdrawn)

theorem go (h : Course config before first s (place :: places)) :
    Course config before first (s.go place) places where
  reachable := by
    rcases h.reachable with ⟨fails, things, ids, hs⟩
    exact ⟨fails, things, ids, hs.go place⟩
  inside other hother := h.inside other (List.mem_cons_of_mem place hother)
  unrepeated := h.unrepeated
  running := by
    rcases h.running with ⟨spent, hrunning⟩
    rcases s.go_cases place with hsame | ⟨_, _, _, _, _, _, hplace, hnext, hgo⟩
    · have hlater : Running config ((s.go place).follow places).Drew before first spent s :=
        hrunning
      refine ⟨spent, ?_⟩
      rw [hsame] at hlater ⊢
      exact hlater
    · rcases h.move hrunning hplace hnext with ⟨spent', hlater⟩
      rw [← hgo] at hlater
      exact ⟨spent', hlater⟩

end Course

/-!
# Operations with and without a lock
-/

section Admissions

variable {config : Config} {before : LockTable} {first place other : Nat} {s : System}
  {places : List Nat} {request : Request} {st : Standing}
  {work : Saga (Except TriggerError Answer)}

theorem mem_admitted_of_go (h : place ∈ ((s.go other).admitted places).map (·.place)) :
    place ∈ (s.admitted (other :: places)).map (·.place) := by
  rw [admitted]
  split
  · exact List.mem_cons_of_mem _ h
  · exact h

theorem admission?_of_not_mem (h : place ∉ (s.admitted (place :: places)).map (·.place)) :
    s.admission? place = none := by
  cases hadmission : s.admission? place with
  | none => rfl
  | some known =>
      rw [admitted, hadmission] at h
      exact absurd List.mem_cons_self h

namespace Course

theorem world_go (h : Course config before first s (place :: places))
    (hlocks : forall thread, s.threads[place]? = some thread -> thread.standing.locks = [])
    (hnone : s.admission? place = none) :
    (s.go place).world = { s.world with ids := (s.go place).world.ids } := by
  rcases h.effect with hsame | ⟨_, _, _, _, _, hplace, _, heffect⟩
  · rw [hsame]
  · exact (heffect.idle (hlocks _ hplace) (isHeld_of_not_admitted hnone hplace)).2

theorem unchanged {earlier later : List Nat}
    (h : Course config before first s (earlier ++ place :: later))
    (hlocks : forall thread, s.threads[place]? = some thread -> thread.standing.locks = [])
    (hnever : place ∉ (s.admitted (earlier ++ place :: later)).map (·.place)) :
    ((s.follow earlier).go place).world =
      { (s.follow earlier).world with ids := ((s.follow earlier).go place).world.ids } := by
  induction earlier generalizing s with
  | nil =>
      exact h.world_go hlocks (admission?_of_not_mem hnever)
  | cons other earlier ih =>
      apply ih h.go _ fun hmem => hnever (mem_admitted_of_go hmem)
      by_cases hsame : other = place
      · subst hsame
        have hnone := admission?_of_not_mem hnever
        rcases h.effect with hsame | ⟨_, _, _, _, _, hplace, hthread, heffect⟩
        · rw [hsame]
          exact hlocks
        · rw [hthread]
          rintro _ ⟨⟩
          exact (heffect.idle (hlocks _ hplace) (isHeld_of_not_admitted hnone hplace)).1
      · rw [s.getElem?_go_of_ne hsame]
        exact hlocks

theorem not_mem_admitted (h : Course config before first s places) (hfirst : first ≤ place)
    (hplace : s.threads[place]? = some ⟨request, st, some work⟩)
    (hpast : st.locks ≠ [] ∨ exists r, work = .done r) :
    place ∉ (s.admitted places).map (·.place) := by
  induction places generalizing s st work with
  | nil => exact List.not_mem_nil
  | cons other places ih =>
      have hlater : place ∉ ((s.go other).admitted places).map (·.place) := by
        by_cases hsame : other = place
        · subst hsame
          rcases hpast with hlocks | ⟨r, rfl⟩
          · rcases h.effect with hsame | ⟨_, _, _, _, _, hmine, hthread, heffect⟩
            · have hcourse := h.go
              rw [hsame] at hcourse ⊢
              exact ih hcourse hplace (Or.inl hlocks)
            · cases hplace.symm.trans hmine
              apply ih h.go hthread
              rcases heffect.keeps hlocks with heq | hended
              · left
                rw [heq]
                exact hlocks
              · exact Or.inr hended
          · have hcourse := h.go
            rw [go_of_answer (answer?_of_done hplace)] at hcourse ⊢
            exact ih hcourse hplace (Or.inr ⟨r, rfl⟩)
        · apply ih h.go _ hpast
          rw [s.getElem?_go_of_ne hsame]
          exact hplace
      rw [admitted]
      split
      · rename_i admission hadmission
        rw [List.map_cons, List.mem_cons, not_or]
        refine ⟨?_, hlater⟩
        rintro rfl
        rcases admission?_eq_some hadmission with ⟨_, _, _, hmine, _⟩
        cases hplace.symm.trans hmine
        rcases h.stage hfirst hplace with ⟨_, hstage⟩
        rcases hpast with hlocks | ⟨r, hwork⟩
        · exact hlocks hstage.acquire.1
        · cases hwork
      · exact hlater

theorem nodup_admitted (h : Course config before first s places) :
    ((s.admitted places).map (·.place)).Nodup := by
  induction places generalizing s with
  | nil => exact List.nodup_nil
  | cons place places ih =>
      rw [admitted]
      split
      · rename_i request drawn hadmission
        rw [List.map_cons, List.nodup_cons]
        refine ⟨?_, ih h.go⟩
        have hfirst := h.inside place List.mem_cons_self
        rcases admission?_eq_some hadmission with ⟨st, id, next, hplace, hfree, _⟩
        have hnext : (Saga.acquire id next).next? st s.world =
            some ({ st with locks := id :: st.locks },
              { s.world with locks := ⟨id :: s.world.locks.held⟩ }, next true) := by
          rw [Saga.next?, LockTable.acquire?_of_free hfree]
        exact h.go.not_mem_admitted hfirst (getElem?_go_self hplace hnext)
          (Or.inl (List.cons_ne_nil _ _))
      · exact ih h.go

end Course
end Admissions
end System
end TelemetryTriggers
