import Mathlib.Logic.Relation
import TelemetryTriggers.Proofs.Orchestrator.Deleting

/-!
# Triggers that are gone for good

A trigger that was deleted does not come back.  Only its creation could bring it back, and
that has ended when the deletion does; so nothing is there for another deletion to find.

Main definitions: `System.Founded`, the creation of a trigger has begun; `System.Closed`, it
has ended; `System.Decided`, one deletion of the trigger has ended well.  The main statements
are `System.Reachable.rooted`, `System.Reachable.outcome` and `System.Deleted.forever`.
-/

namespace TelemetryTriggers

theorem World.Fresh.perform {naming : ResourceNaming} {id : TriggerId} {w : World} {c : Call}
    (h : w.Fresh naming id) (hc : ¬ c.Founds) : (c.perform w).2.Fresh naming id where
  row t ht := h.row t (Call.mem_triggers_of_perform hc ht)
  topic := by
    intro t ht
    rcases Call.topic_origin ht with hold | ⟨name, rfl, _⟩
    · exact h.topic t hold
    · exact absurd trivial hc
  rule := by
    intro r hr
    rcases Call.rule_origin hr with hold | ⟨name, predicate, topic, rfl, _⟩
    · exact h.rule r hold
    · exact absurd trivial hc

theorem World.Fresh.same {naming : ResourceNaming} {id : TriggerId} {w v : World}
    (h : w.Fresh naming id) (hv : w.SameServices v) : v.Fresh naming id :=
  World.ofEstate_fresh w v (World.estate_of_services hv) h

theorem Request.aims_of_head {H : History} {id : TriggerId} {drawn : List Uuid}
    {request : Request} (hcreates : request.Creates) (h : drawn.head? = some id.uuid) :
    request.Aims H id drawn := by
  cases request with
  | create request => exact h
  | _ => exact hcreates.elim

theorem Thread.Founder.of_history {H H' : History} {id : TriggerId} {thread : Thread}
    (h : thread.Founder H id) : thread.Founder H' id :=
  ⟨h.creates, Request.aims_of_head h.creates (h.aims.head h.creates), h.begun⟩

def Thread.Over (thread : Thread) : Prop :=
  forall work, thread.rest = some work -> exists r, work = .done r

namespace System

def Founded (s : System) (id : TriggerId) : Prop :=
  exists thread, thread ∈ s.threads ∧ forall H, thread.Founder H id

section Creation

variable {config : Config} {fails : Call -> ServiceError -> Prop} {things : List Thing}
  {ids : IdSource} {s t : System} {w v : World} {threads : List Thread} {place : Nat}
  {request : Request} {st st' : Standing} {work work' : Saga (Except TriggerError Answer)}
  {id : TriggerId}

theorem Reachable.drew_of_held (hs : Reachable config fails things ids s)
    (hfaults : forall c e, fails c e -> e.isAbsence = false) (hids : s.world.ids.Unrepeated)
    (hplace : s.threads[place]? = some ⟨request, st, some work⟩) (hcreates : request.Creates)
    (hheld : id ∈ st.locks) : st.drawn.head? = some id.uuid := by
  cases (hs.inStep hfaults hids).phases place request st work hplace hcreates.changes with
  | coming hlocks _ =>
      rw [hlocks] at hheld
      cases hheld
  | working hlocks haims _ =>
      rw [hlocks] at hheld
      rcases List.mem_singleton.mp hheld with rfl
      exact haims.head hcreates

theorem Reachable.fresh_of_move (hs : Reachable config fails things ids ⟨w, threads⟩)
    (hids : w.ids.Unrepeated) (hplace : threads[place]? = some ⟨request, st, some work⟩)
    (hstep : work.Step fails st w st' v work') (hfresh : w.Fresh config.naming id) :
    v.Fresh config.naming id ∨ (request.Creates ∧ id ∈ st.locks ∧ st' = st) := by
  by_cases hheld : id ∈ st.locks
  · cases hstep with
    | call c next =>
        by_cases hfounds : c.Founds
        · have hmakes := hs.wellNamed.rest _ (List.mem_of_getElem? hplace) _ rfl
          exact Or.inr ⟨hmakes.1.creates hfounds, hheld, rfl⟩
        · exact Or.inl (hfresh.perform hfounds)
    | failure | busy | isHeld | detach => exact Or.inl hfresh
    | acquire | release | draw => exact Or.inl (hfresh.same ⟨rfl, rfl, rfl, rfl⟩)
  · left
    apply World.ofEstate_fresh w v _ hfresh
    exact estate_of_step hs.ordered (hs.drawn hids).distinct hplace hstep hheld

theorem Reachable.fresh_of_step (hs : Reachable config fails things ids s)
    (hids : s.world.ids.Unrepeated) (hstep : Step config fails s t)
    (hfresh : s.world.Fresh config.naming id) :
    t.world.Fresh config.naming id ∨
      exists (place : Nat) (request : Request) (st : Standing)
          (work work' : Saga (Except TriggerError Answer)),
        s.threads[place]? = some ⟨request, st, some work⟩ ∧ request.Creates ∧ id ∈ st.locks ∧
          t.threads = s.threads.set place ⟨request, st, some work'⟩ := by
  cases hstep with
  | start | abandon => exact Or.inl hfresh
  | replan | restart => exact Or.inl (hfresh.same ⟨rfl, rfl, rfl, rfl⟩)
  | dispatch u w threads => exact Or.inl (hfresh.same (w.sameServices_dispatch u))
  | move hmoves =>
      cases hmoves with
      | @move w v threads request st st' work work' hplace hstep =>
          rcases hs.fresh_of_move hids hplace hstep hfresh with hfresh | ⟨hcreates, hheld, rfl⟩
          · exact Or.inl hfresh
          · exact Or.inr ⟨_, request, st', work, work', hplace, hcreates, hheld, rfl⟩

theorem Founded.step (hs : Reachable config fails things ids s)
    (hfaults : forall c e, fails c e -> e.isAbsence = false) (hids : t.world.ids.Unrepeated)
    (hstep : Step config fails s t) (h : s.Founded id) : t.Founded id := by
  have hidsBefore := hstep.precedes.unrepeated hids
  have hin := hs.inStep hfaults hidsBefore
  apply exists_mem_step hstep _ _ h
  · intro place request st st' work work' hplace hstep hfounds H
    have hmine := hfounds s.Drew
    have hmakes := hs.wellNamed.rest _ (List.mem_of_getElem? hplace) work rfl
    have hadvance := hin.advance hs.ordered (hs.drawn hidsBefore) hplace hmakes
      hmine.creates.changes hstep hids
    exact (InStep.founder_of_advance hstep hadvance hmine).of_history
  · exact fun thread hfounds H => ⟨(hfounds H).creates, (hfounds H).aims, nofun⟩

theorem Reachable.rooted (hs : Reachable config fails things ids s)
    (hfaults : forall c e, fails c e -> e.isAbsence = false) (hids : s.world.ids.Unrepeated)
    (id : TriggerId) : s.world.Fresh config.naming id ∨ s.Founded id := by
  induction hs with
  | start =>
      left
      constructor
      · rw [show (World.ofThings things ids).store.triggers = [] from
          (World.rows_ofThings things ids).1]
        exact nofun
      · exact nofun
      · exact nofun
  | step hs hstep ih =>
      have hidsBefore := hstep.precedes.unrepeated hids
      rcases ih hidsBefore with hfresh | hfounded
      · rcases hs.fresh_of_step hidsBefore hstep hfresh with
          hfresh | ⟨place, request, st, work, work', hplace, hcreates, hheld, hthreads⟩
        · exact Or.inl hfresh
        · right
          have hhead := hs.drew_of_held hfaults hidsBefore hplace hcreates hheld
          refine ⟨⟨request, st, some work'⟩, ?_, fun H => ⟨hcreates, ?_, ?_⟩⟩
          · rw [hthreads]
            exact List.mem_set (List.getElem?_eq_some_iff.mp hplace).1 _
          · exact Request.aims_of_head hcreates hhead
          · intro _ _ hnone
            rw [show st.locks = [] from hnone] at hheld
            cases hheld
      · exact Or.inr (hfounded.step hs hfaults hids hstep)

/-!
# The end of a creation
-/

def Closed (s : System) (id : TriggerId) : Prop :=
  exists thread, thread ∈ s.threads ∧ (forall H, thread.Founder H id) ∧ thread.Over

theorem Closed.step (hstep : Step config fails s t) (h : s.Closed id) : t.Closed id := by
  apply exists_mem_step hstep _ _ h
  · rintro place request st st' work work' _ hstep ⟨_, hover⟩
    rcases hover work rfl with ⟨r, rfl⟩
    cases hstep
  · exact fun thread hclosed =>
      ⟨fun H => ⟨(hclosed.1 H).creates, (hclosed.1 H).aims, nofun⟩, nofun⟩

/-- Whoever else holds the lock of a trigger whose creation has begun, that creation has
ended. -/
theorem Founded.closed (hs : Reachable config fails things ids s)
    (hfaults : forall c e, fails c e -> e.isAbsence = false) (hids : s.world.ids.Unrepeated)
    (hplace : s.threads[place]? = some ⟨request, st, some work⟩) (hother : ¬ request.Creates)
    (hheld : id ∈ st.locks) (h : s.Founded id) : s.Closed id := by
  rcases h with ⟨thread, hthread, hfounds⟩
  refine ⟨thread, hthread, hfounds, ?_⟩
  intro work' hrest
  have hmine := hfounds s.Drew
  by_cases hnone : thread.standing.locks = []
  · exact hmine.begun work' hrest hnone
  · rcases thread with ⟨creation, st', rest⟩
    cases hrest
    rcases List.mem_iff_getElem?.mp hthread with ⟨place', hplace'⟩
    -- it would hold the lock of the same trigger
    rcases List.exists_mem_of_ne_nil _ hnone with ⟨mine, hmem⟩
    have hdrew := hs.drew_of_held hfaults hids hplace' hmine.creates hmem
    have hsame : mine = id := by
      have hhead : st'.drawn.head? = some id.uuid := hmine.aims.head hmine.creates
      rw [hdrew] at hhead
      exact congrArg TriggerId.mk (Option.some.inj hhead)
    subst hsame
    have hne : place' ≠ place := by
      rintro rfl
      rw [hplace] at hplace'
      cases hplace'
      exact hother hmine.creates
    exact absurd hheld (hs.ordered.apart place' place _ _ hne hplace' hplace mine hmem)

theorem Closed.fresh_of_step (hs : Reachable config fails things ids s)
    (hfaults : forall c e, fails c e -> e.isAbsence = false) (hids : s.world.ids.Unrepeated)
    (hstep : Step config fails s t) (h : s.Closed id)
    (hfresh : s.world.Fresh config.naming id) : t.world.Fresh config.naming id := by
  rcases hs.fresh_of_step hids hstep hfresh with
    hfresh | ⟨place, request, st, work, _, hplace, hcreates, hheld, _⟩
  · exact hfresh
  · rcases h with ⟨thread, hthread, hfounds, hover⟩
    rcases List.mem_iff_getElem?.mp hthread with ⟨place', hplace'⟩
    have hmine := hfounds s.Drew
    by_cases hsame : place' = place
    · subst hsame
      rw [hplace] at hplace'
      cases hplace'
      rcases hover work rfl with ⟨r, rfl⟩
      have hnone : st.locks = [] := hs.ordered.meets place' request st _ hplace
      rw [hnone] at hheld
      cases hheld
    · have hdrew := hs.drew_of_held hfaults hids hplace hcreates hheld
      have hagain := hmine.aims.head hmine.creates
      exact absurd (List.mem_of_head? hdrew) ((hs.drawn hids).apart place' place _ _ hsame hplace'
        hplace id.uuid (List.mem_of_head? hagain))

end Creation

/-!
# Who wins
-/

def Deleted (s : System) (id : TriggerId) (place : Nat) : Prop :=
  exists user st answer,
    s.threads[place]? = some ⟨.delete user id, st, some (.done (.ok answer))⟩

def pending (naming : ResourceNaming) (id : TriggerId) (founded : Prop) : Terms :=
  ⟨anyCall, fun w => w.Fresh naming id ∧ founded, fun _ => True⟩

def late : Terms :=
  ⟨anyCall, fun _ => False, fun _ => True⟩

structure Decided (config : Config) (fails : Call -> ServiceError -> Prop) (id : TriggerId)
    (winner : Nat) (s : System) : Prop where
  fresh : s.world.Fresh config.naming id
  closed : s.Closed id
  others : s.Deleting config.naming fails late id (· ≠ winner)

inductive Outcome (config : Config) (fails : Call -> ServiceError -> Prop) (id : TriggerId)
    (s : System) : Prop
  | pending (h : s.Deleting config.naming fails (pending config.naming id (s.Founded id)) id
      fun _ => True)
  | decided (winner : Nat) (h : s.Decided config fails id winner)

section Winner

variable {config : Config} {fails : Call -> ServiceError -> Prop} {things : List Thing}
  {ids : IdSource} {s t : System} {id : TriggerId} {winner : Nat}

theorem ofEstate_pending (naming : ResourceNaming) (founded : Prop) :
    OfEstate naming id (pending naming id founded).wins :=
  fun w v hv h => ⟨World.ofEstate_fresh w v hv h.1, h.2⟩

theorem Reachable.pending_deletion (hs : Reachable config fails things ids s)
    (hfaults : forall c e, fails c e -> e.isAbsence = false) (hids : s.world.ids.Unrepeated)
    {founded : Prop} (hfounded : s.Founded id -> founded) (user : UserId) (st : Standing)
    (locks : LockTable) :
    (Lifecycle.deletion config.naming user id).Meets (deleting config.naming fails anyCall id)
      (pending config.naming id founded).ends st { s.world with locks } := by
  rcases hs.rooted hfaults hids id with hfresh | hbegun
  · apply deletion_refused (pending config.naming id founded)
    · exact fun _ _ => trivial
    · trivial
    · exact fun _ _ _ => trivial
    · exact hfresh.same ⟨rfl, rfl, rfl, rfl⟩
  · apply deletion_clears none hfaults nofun
    · exact fun w h => ⟨h, hfounded hbegun⟩
    · exact fun _ _ => trivial
    · exact nofun

theorem Decided.step (hs : Reachable config fails things ids s)
    (hfaults : forall c e, fails c e -> e.isAbsence = false) (hids : s.world.ids.Unrepeated)
    (hstep : Step config fails s t) (h : s.Decided config fails id winner) :
    t.Decided config fails id winner := by
  refine ⟨h.closed.fresh_of_step hs hfaults hids hstep h.fresh, h.closed.step hstep, ?_⟩
  have hwins : OfEstate config.naming id late.wins := fun _ _ _ h => h
  cases hstep with
  | start => exact h.others.start
  | move hmoves =>
      cases hmoves with
      | @move w v threads request st st' work work' hplace hstep =>
          have hmove := h.others.move hs hids hwins trivial (fun user st locks _ => ?_) hplace hstep
          · rcases hmove with hothers | ⟨_, _, hwin⟩
            · exact hothers
            · exact hwin.wins.elim
          · apply deletion_refused late
            · exact fun _ _ => trivial
            · trivial
            · exact fun _ _ _ => trivial
            · exact h.fresh.same ⟨rfl, rfl, rfl, rfl⟩
  | abandon => exact h.others.abandon
  | replan => exact h.others.around hwins ⟨rfl, rfl, rfl, rfl⟩
  | dispatch u w threads => exact h.others.around hwins (w.sameServices_dispatch u)
  | restart => exact .restart

theorem Deleting.late_of_wins {w v : World} {threads : List Thread} {place : Nat}
    {request : Request} {st st' : Standing} {work work' : Saga (Except TriggerError Answer)}
    {founded : Prop}
    (h : Deleting config.naming fails (pending config.naming id founded) id (fun _ => True)
      ⟨w, threads⟩)
    (hs : Reachable config fails things ids ⟨w, threads⟩) (hids : w.ids.Unrepeated)
    (hplace : threads[place]? = some ⟨request, st, some work⟩)
    (hstep : work.Step fails st w st' v work') (hheld : id ∈ st.locks) :
    Deleting config.naming fails late id (· ≠ place)
      ⟨v, threads.set place ⟨request, st', some work'⟩⟩ := by
  have hothers := h.others hs hids (ofEstate_pending _ _) hplace hstep
  intro other user rival rest hother hrest
  -- the deletion that ends well had the lock, so no other one has begun
  apply (hothers other user rival rest ⟨trivial, hother⟩ hrest).of_not_held fun _ _ => trivial
  rcases getElem?_set_cases hrest with ⟨hsame, _⟩ | ⟨hne, hold⟩
  · exact absurd hsame.symm hother
  · exact hs.ordered.apart place other _ _ hne hplace hold id hheld

theorem Reachable.outcome (hs : Reachable config fails things ids s)
    (hfaults : forall c e, fails c e -> e.isAbsence = false) (hids : s.world.ids.Unrepeated)
    (id : TriggerId) : s.Outcome config fails id := by
  induction hs with
  | start => exact .pending nofun
  | @step s t hs hstep ih =>
      have hidsBefore := hstep.precedes.unrepeated hids
      cases ih hidsBefore with
      | decided winner h => exact .decided winner (h.step hs hfaults hidsBefore hstep)
      | pending h =>
          have hwins : OfEstate config.naming id (pending config.naming id (s.Founded id)).wins :=
            ofEstate_pending _ _
          have hgrows : forall w, (pending config.naming id (s.Founded id)).wins w ->
              (pending config.naming id (t.Founded id)).wins w :=
            fun w hw => ⟨hw.1, hw.2.step hs hfaults hids hstep⟩
          have hclosed : s.Closed id -> t.Closed id := Closed.step hstep
          cases hstep with
          | start => exact .pending (h.start.mono hgrows)
          | move hmoves =>
              cases hmoves with
              | @move w v threads request st st' work work' hplace hstep =>
                  rcases h.move hs hidsBefore hwins trivial
                      (fun user st locks _ =>
                        hs.pending_deletion hfaults hidsBefore (fun hfounded => hfounded) user st
                          locks)
                      hplace hstep with
                    hgoes | ⟨_, ⟨user, rfl⟩, hwin⟩
                  · exact .pending (hgoes.mono hgrows)
                  · have hheld : id ∈ st.locks := by simp [hwin.held]
                    have hover := hwin.wins.2.closed hs hfaults hidsBefore hplace
                      (fun hcreates => hcreates) hheld
                    refine .decided _ ⟨?_, hclosed hover,
                      h.late_of_wins hs hidsBefore hplace hstep hheld⟩
                    rw [hwin.world]
                    exact hwin.wins.1.same ⟨rfl, rfl, rfl, rfl⟩
          | abandon => exact .pending (h.abandon.mono hgrows)
          | replan faults w threads =>
              have hsame : w.SameServices { w with faults } := ⟨rfl, rfl, rfl, rfl⟩
              exact .pending ((h.around hwins hsame).mono hgrows)
          | dispatch u w threads =>
              exact .pending ((h.around hwins (w.sameServices_dispatch u)).mono hgrows)
          | restart => exact .pending .restart

theorem Deleted.decided {place : Nat} (h : s.Deleted id place)
    (hs : Reachable config fails things ids s)
    (hfaults : forall c e, fails c e -> e.isAbsence = false) (hids : s.world.ids.Unrepeated) :
    s.Decided config fails id place := by
  rcases h with ⟨user, st, answer, hplace⟩
  cases hs.outcome hfaults hids id with
  | pending hpending =>
      rcases (hpending place user st _ trivial hplace).of_done with ⟨_, herror, _⟩
      cases herror
  | decided winner hdecided =>
      by_cases hsame : place = winner
      · rw [hsame]
        exact hdecided
      · have hlate := hdecided.others place user st _ hsame hplace
        rcases hlate.of_done with ⟨_, herror, _⟩
        cases herror

/-- At most one deletion of a trigger ever ends well, and nothing of the trigger exists after
that. -/
theorem Deleted.forever {place : Nat} (h : s.Deleted id place)
    (hs : Reachable config fails things ids s)
    (hfaults : forall c e, fails c e -> e.isAbsence = false)
    (hlater : Relation.ReflTransGen (Step config fails) s t) (hids : t.world.ids.Unrepeated) :
    (forall item, t.world.Holds item -> item.owner? config.naming ≠ some id) ∧
      forall other, t.Deleted id other -> other = place := by
  have hdecided : Reachable config fails things ids t ∧ t.Decided config fails id place := by
    induction hlater with
    | refl => exact ⟨hs, h.decided hs hfaults hids⟩
    | tail _ hstep ih =>
        have hidsBefore := hstep.precedes.unrepeated hids
        rcases ih hidsBefore with ⟨hreached, hdecided⟩
        exact ⟨hreached.step hstep, hdecided.step hreached hfaults hidsBefore hstep⟩
  rcases hdecided with ⟨ht, hdecided⟩
  refine ⟨fun item => hdecided.fresh.owner_ne ht.regular.integrity, ?_⟩
  rintro other ⟨user, st, answer, hother⟩
  by_contra hne
  have hlate := hdecided.others other user st _ hne hother
  rcases hlate.of_done with ⟨_, herror, _⟩
  cases herror

end Winner
end System
end TelemetryTriggers
