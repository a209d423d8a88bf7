import TelemetryTriggers.Proofs.Orchestrator.Courses

/-!
# Changes are serializable

Changes that run side by side come to the same as those of them that are given their
locks come to one after the other, in the order in which they are given them; the others
change nothing.

While an operation holds the lock of a trigger, nobody else touches what belongs to it.
So the operation could do all its steps at once when it takes the lock, on services that
already hold of every locked trigger what its lock holder will leave there.  What a
removal has read before it took its lock is still true then.

Main definitions: `System.outcome`, what belongs to a trigger when its lock is free next;
`System.Serialized`.  The main statements are `System.Course.replay`, for one operation,
and `System.Reachable.serialized`.
-/

namespace TelemetryTriggers

/-!
# One operation after the other
-/

def playAll (config : Config) :
    List Request -> World -> List (Except TriggerError Answer) × World
  | [], w => ([], w)
  | request :: requests, w =>
      let first := (request.operation config).run.play w
      let later := playAll config requests first.2
      (first.1 :: later.1, later.2)

def IdSource.ofList (us : List Uuid) : IdSource :=
  ⟨fun k => us.getD k (Uuid.ofNat 0), 0⟩

theorem IdSource.supplies_ofList (us : List Uuid) : (IdSource.ofList us).Supplies us := by
  intro k u hu
  show us.getD (0 + k) _ = u
  rw [Nat.zero_add, List.getD_eq_getElem?_getD, hu, Option.getD_some]

namespace Saga

variable {naming : ResourceNaming} {H : History} {id : TriggerId} {draws : Prop}
  {own : List Uuid} {inner : Saga (Except TriggerError Answer)}

theorem Confined.next_eq {c : Call}
    {next : Except ServiceError c.Reply -> Saga (Except TriggerError Answer)}
    (h : (Saga.call c next).Confined naming H id draws (fun _ => True) own)
    {r r' : Except ServiceError c.Reply}
    (heq : r.map (c.view naming id) = r'.map (c.view naming id)) : next r = next r' := by
  have hview : forall r, next (r.map (c.view naming id)) = next r := by
    intro r
    cases r with
    | ok reply => exact h.2.1 reply
    | error e => rfl
  rw [← hview r, heq, hview r']

theorem under_ne_done (r : Except TriggerError Answer) : inner.under id ≠ .done r := by
  intro h
  cases inner with
  | _ => cases h

theorem play_under {r : Except TriggerError Answer} {w v : World} (h : inner.play w = (r, v)) :
    (inner.under id).play w = (r, { v with locks := v.locks.release id }) := by
  rw [under, play_bind, h]
  rfl

end Saga

/-!
# Locked triggers
-/

/-- The trigger is locked, but was not when the given locks were held. -/
def World.isBusy (before : LockTable) (w : World) : Option TriggerId -> Bool
  | some id => w.locks.isHeld id && !before.isHeld id
  | none => false

theorem World.isBusy_of_ne {w : World} {before : LockTable} {id : TriggerId}
    {owner : Option TriggerId} (h : owner ≠ some id)
    (hbusy : isBusy before { w with locks := ⟨id :: w.locks.held⟩ } owner = true) :
    w.isBusy before owner = true := by
  cases owner with
  | none => cases hbusy
  | some other =>
      have hne : other ≠ id := fun heq => h (congrArg some heq)
      simpa [isBusy, LockTable.isHeld, hne] using hbusy

namespace System

/-- What belongs to a trigger when its lock is free next. -/
def outcome (naming : ResourceNaming) (before : LockTable) (owner : Option TriggerId) :
    System -> List Nat -> Share
  | s, [] => s.world.share naming (· == owner)
  | s, place :: places =>
      if s.world.isBusy before owner then outcome naming before owner (s.go place) places
      else s.world.share naming (· == owner)

variable {config : Config} {naming : ResourceNaming} {before : LockTable}
  {owner : Option TriggerId} {first place : Nat} {s : System} {places : List Nat}
  {request : Request} {st st' : Standing} {v : World}
  {work work' : Saga (Except TriggerError Answer)} {id : TriggerId}

theorem outcome_of_free (h : s.world.isBusy before owner = false) (places : List Nat) :
    s.outcome naming before owner places = s.world.share naming (· == owner) := by
  cases places with
  | nil => rfl
  | cons place places =>
      rw [outcome, h]
      rfl

theorem outcome_of_busy (h : s.world.isBusy before owner = true) (place : Nat)
    (places : List Nat) :
    s.outcome naming before owner (place :: places) =
      (s.go place).outcome naming before owner places := by
  rw [outcome, if_pos h]

namespace Course

theorem isBusy_of_locked (h : Course config before first s places) (hfirst : first ≤ place)
    (hplace : s.threads[place]? = some ⟨request, st, some work⟩) (hid : id ∈ st.locks) :
    s.world.isBusy before (some id) = true := by
  rcases h.stage hfirst hplace with ⟨_, hstage⟩
  rw [World.isBusy, h.held hplace hid, hstage.isHeld_before hid]
  rfl

theorem outcome_go (h : Course config before first s (place :: places))
    (hkept : (s.go place).world.isBusy before owner = true ->
      s.world.isBusy before owner = true) :
    s.outcome config.naming before owner (place :: places) =
      (s.go place).outcome config.naming before owner places := by
  cases hbusy : s.world.isBusy before owner with
  | true => exact outcome_of_busy hbusy place places
  | false =>
      have hfree : (s.go place).world.isBusy before owner = false := by
        rw [Bool.eq_false_iff]
        intro hlater
        rw [hkept hlater] at hbusy
        cases hbusy
      rw [outcome_of_free hbusy, outcome_of_free hfree]
      rcases h.effect with hsame | ⟨_, _, _, _, _, hplace, _, heffect⟩
      · rw [hsame]
      · refine (heffect.share h.assigned h.distinct ?_).symm
        rintro id hid rfl
        rw [h.isBusy_of_locked (h.inside place List.mem_cons_self) hplace hid] at hbusy
        cases hbusy

theorem isBusy_of_go (h : Course config before first s (place :: places))
    (hnone : s.admission? place = none)
    (hbusy : (s.go place).world.isBusy before owner = true) :
    s.world.isBusy before owner = true := by
  rcases h.effect with hsame | ⟨_, _, _, _, _, hplace, _, heffect⟩
  · rw [hsame] at hbusy
    exact hbusy
  · rcases heffect.locks (isHeld_of_not_admitted hnone hplace) with heq | ⟨id, hlocks, heq⟩
    · cases owner with
      | none => cases hbusy
      | some other =>
          simp only [World.isBusy, heq] at hbusy
          exact hbusy
    · cases owner with
      | none => cases hbusy
      | some other =>
          by_cases hother : other = id
          · apply h.isBusy_of_locked (h.inside place List.mem_cons_self) hplace
            rw [hlocks, hother]
            exact List.mem_singleton_self id
          · simp only [World.isBusy, heq, LockTable.isHeld_release_of_ne _ hother] at hbusy
            exact hbusy

end Course
end System

/-!
# An operation in one go
-/

structure World.Worked (naming : ResourceNaming) (H : History) (id : TriggerId) (estate : Share)
    (rest : List Uuid) (w v : World) : Prop where
  assigned : v.Assigned naming H
  estate : v.estate naming id = estate
  outside : w.SameOutside naming id v
  locks : v.locks = w.locks
  ids : v.ids.Supplies rest

theorem World.Worked.after {naming : ResourceNaming} {H : History} {id : TriggerId}
    {estate : Share} {rest : List Uuid} {w u v : World} (h : u.Worked naming H id estate rest v)
    (hu : w.SameOutside naming id u) (hlocks : u.locks = w.locks) :
    w.Worked naming H id estate rest v where
  assigned := h.assigned
  estate := h.estate
  outside := hu.trans h.outside
  locks := h.locks.trans hlocks
  ids := h.ids

namespace System
namespace Course

variable {config : Config} {before : LockTable} {first place other : Nat} {s : System}
  {places : List Nat} {request : Request} {st : Standing} {v : World} {id : TriggerId}
  {draws : Prop} {own : List Uuid} {inner : Saga (Except TriggerError Answer)}

theorem alike_go (h : Course config before first s (other :: places)) (hne : other ≠ place)
    (hplace : s.threads[place]? = some ⟨request, st, some (inner.under id)⟩)
    (hlocks : st.locks = [id]) (halike : s.world.Alike config.naming id v) :
    (s.go other).world.Alike config.naming id v := by
  rcases h.effect with hsame | ⟨_, _, _, _, _, hother, _, heffect⟩
  · rw [hsame]
    exact halike
  · constructor
    · exact halike.things.trans heffect.things.symm
    · refine halike.estate.trans (heffect.share h.assigned h.distinct ?_).symm
      intro taken htaken heq
      cases heq
      apply h.apart hne hother hplace htaken
      rw [hlocks]
      exact List.mem_singleton_self id

theorem worked_of_release {H : History} {r : Except TriggerError Answer} {rest : List Uuid}
    (hplace : s.threads[place]? = some ⟨request, st, some ((Saga.done r).under id)⟩)
    (hv : v.Assigned config.naming H) (halike : s.world.Alike config.naming id v)
    (hids : v.ids.Supplies (s.takenBy place (place :: places) ++ rest)) :
    (s.follow (place :: places)).answer? place = some r ∧
      v.Worked config.naming H id
        ((s.go place).outcome config.naming before (some id) places) rest v := by
  have hgo := go_of_next hplace rfl
  have hanswer := answer?_of_done (getElem?_go_self hplace rfl)
  rw [takenBy_self, takenBy_of_answer hanswer, hgo, IdSource.gaveUntil_self] at hids
  have hfree : (s.go place).world.isBusy before (some id) = false := by
    rw [hgo]
    exact congrArg (· && _) (s.world.locks.isHeld_release_self id)
  refine ⟨answer?_follow hanswer places, hv, ?_, .refl _ _ _, rfl, hids⟩
  rw [outcome_of_free hfree, hgo]
  exact halike.estate

theorem issued_of_draw {next : Uuid -> Saga (Except TriggerError Answer)}
    (hplace : s.threads[place]? = some ⟨request, st, some ((Saga.draw next).under id)⟩)
    (hnames : request.Names id st.drawn) (places : List Nat) :
    History.Issued (s.follow (place :: places)).Drew id s.world.ids.next.1 :=
  ⟨request, _, drew_of_next hplace rfl places, hnames.append _,
    List.mem_append_right _ (List.mem_singleton_self _)⟩

theorem replay (h : Course config before first s places) (hfirst : first ≤ place)
    (hplace : s.threads[place]? = some ⟨request, st, some (inner.under id)⟩)
    (hlocks : st.locks = [id])
    (hinner : inner.Confined config.naming (s.follow places).Drew id draws (fun _ => True) own)
    (hdraws : draws -> request.Names id st.drawn)
    (hv : v.Assigned config.naming (s.follow places).Drew)
    (halike : s.world.Alike config.naming id v) {rest : List Uuid}
    (hids : v.ids.Supplies (s.takenBy place places ++ rest)) {r : Except TriggerError Answer}
    (hr : (s.follow places).answer? place = some r) :
    exists v', inner.play v = (r, v') ∧
      v.Worked config.naming (s.follow places).Drew id
        (s.outcome config.naming before (some id) places) rest v' := by
  induction places generalizing s st inner own v with
  | nil =>
      rcases answer?_eq_some hr with ⟨_, _, hended⟩
      have hrest := congrArg Thread.rest (Option.some.inj (hplace.symm.trans hended))
      exact absurd (Option.some.inj hrest) (Saga.under_ne_done r)
  | cons other places ih =>
      have hid : id ∈ st.locks := by
        rw [hlocks]
        exact List.mem_singleton_self id
      rw [outcome_of_busy (h.isBusy_of_locked hfirst hplace hid)]
      -- the operation does its own steps in both worlds; others do not touch its trigger
      by_cases hsame : other = place
      · subst hsame
        cases inner with
        | done r' =>
            rcases worked_of_release hplace hv halike hids with ⟨hanswer, hworked⟩
            cases hanswer.symm.trans hr
            exact ⟨v, rfl, hworked⟩
        | call c next =>
            have hthread := getElem?_go_self hplace rfl
            have hworld : (s.go other).world = (c.perform s.world).2 := by
              rw [go_of_next hplace rfl]
            rw [takenBy_self, List.append_assoc, hworld] at hids
            rcases hinner.1.alike h.distinct h.assigned hv halike hids with
              ⟨hreply, hlater, hrest⟩
            rw [← hworld] at hlater
            rcases ih h.go hthread hlocks (hinner.2.2 s.world h.assigned) hdraws
              (hv.perform hinner.1) hlater hrest hr with ⟨v', hplay, hworked⟩
            refine ⟨v', ?_, hworked.after ?_ (c.perform_locks v)⟩
            · rw [Saga.play, hinner.next_eq hreply]
              exact hplay
            · apply World.SameOutside.perform (.refl _ _ v) hv.integrity
              exact hinner.1.about hv h.distinct
        | draw next =>
            have hthread := getElem?_go_self hplace rfl
            have hworld : (s.go other).world = { s.world with ids := s.world.ids.next.2 } := by
              rw [go_of_next hplace rfl]
            rw [takenBy_self, List.append_assoc, hworld, IdSource.gaveUntil_next] at hids
            have hnames := hdraws hinner.1
            have hissued := issued_of_draw hplace hnames places
            have hlater : (s.go other).world.Alike config.naming id
                { v with ids := v.ids.next.2 } := by
              rw [hworld]
              exact ⟨halike.things, halike.estate⟩
            rcases ih h.go hthread hlocks (hinner.2 _ hissued) (fun _ => hnames.append _)
              (hv.around _ _ _) hlater hids.next hr with ⟨v', hplay, hworked⟩
            refine ⟨v', ?_, hworked.after ⟨rfl, rfl, rfl⟩ rfl⟩
            rw [Saga.play, hids.head]
            exact hplay
        | acquire id next | release id next | isHeld id next | detach next => exact hinner.elim
      · rw [takenBy_of_ne s hsame] at hids
        apply ih h.go _ hlocks hinner hdraws hv (h.alike_go hsame hplace hlocks halike) hids hr
        rw [s.getElem?_go_of_ne hsame]
        exact hplace

end Course

/-!
# The serial run
-/

/-- The operations that have been given their locks so far have run.  Of a trigger whose
lock is not free, the world already has what the holder of the lock will leave. -/
structure Serial (config : Config) (before : LockTable) (s : System) (places : List Nat)
    (v : World) : Prop where
  assigned : v.Assigned config.naming (s.follow places).Drew
  things : v.store.things = s.world.store.things
  locks : v.locks = before
  shares : forall owner, v.share config.naming (· == owner) =
    s.outcome config.naming before owner places

section Serial

variable {config : Config} {before : LockTable} {first place : Nat} {s : System}
  {places : List Nat} {request : Request} {v : World} {drawn : List Uuid} {id : TriggerId}

theorem Course.things_go (h : Course config before first s (place :: places)) :
    (s.go place).world.store.things = s.world.store.things := by
  rcases h.effect with hsame | ⟨_, _, _, _, _, _, _, heffect⟩
  · rw [hsame]
  · exact heffect.things

theorem Serial.go (hv : Serial config before s (place :: places) v)
    (h : Course config before first s (place :: places)) (hnone : s.admission? place = none) :
    Serial config before (s.go place) places v where
  assigned := hv.assigned
  things := hv.things.trans h.things_go.symm
  locks := hv.locks
  shares owner := (hv.shares owner).trans (h.outcome_go fun hbusy => h.isBusy_of_go hnone hbusy)

theorem Course.isHeld_of_free (h : Course config before first s places)
    (hfree : s.world.locks.isHeld id = false) : before.isHeld id = false := by
  rcases h.running with ⟨_, hrunning⟩
  rw [Bool.eq_false_iff]
  intro hheld
  rw [hrunning.locked id hheld] at hfree
  cases hfree

theorem Serial.alike (hv : Serial config before s places v)
    (hfree : s.world.locks.isHeld id = false) : s.world.Alike config.naming id v where
  things := hv.things
  estate := by
    apply (hv.shares (some id)).trans (outcome_of_free _ _)
    rw [World.isBusy, hfree]
    rfl

/-- When an operation is given its lock, the serial run does the whole operation. -/
theorem Serial.admit (hv : Serial config before s (place :: places) v)
    (h : Course config before first s (place :: places))
    (hadmission : s.admission? place = some (request, drawn)) {rest : List Uuid}
    (hids : v.ids.Supplies (drawn ++ (s.go place).takenBy place places ++ rest))
    {r : Except TriggerError Answer} (hr : (s.follow (place :: places)).answer? place = some r) :
    exists v', (request.operation config).run.play v = (r, v') ∧
      Serial config before (s.go place) places v' ∧ v'.ids.Supplies rest := by
  rcases admission?_eq_some hadmission with ⟨st, id, next, hplace, hfree, rfl⟩
  have hfirst := h.inside place List.mem_cons_self
  rcases h.stage hfirst hplace with ⟨_, hstage⟩
  rcases hstage.acquire with ⟨hnone, ⟨_, inner, hinner, hconfined⟩, hreplays, hcleared⟩
  have hopen : v.locks.isHeld id = false := by
    rw [hv.locks]
    exact h.isHeld_of_free hfree
  -- nobody works on the trigger, so the serial run has all that belongs to it
  have halike := hv.alike hfree
  have hnext : (Saga.acquire id next).next? st s.world =
      some ({ st with locks := [id] }, { s.world with locks := ⟨id :: s.world.locks.held⟩ },
        inner.under id) := by
    rw [Saga.next?, LockTable.acquire?_of_free hfree, hinner, hnone]
  have hgo := go_of_next hplace hnext
  -- the world in which the operation has taken its lock
  have hlater : (s.go place).world.Alike config.naming id
      { v with locks := ⟨id :: v.locks.held⟩, ids := v.ids.skip st.drawn.length } := by
    rw [hgo]
    exact ⟨halike.things, halike.estate⟩
  rw [List.append_assoc] at hids
  rcases h.go.replay hfirst (getElem?_go_self hplace hnext) rfl hconfined
    (fun hnames => hnames) (hv.assigned.around _ _ _) hlater hids.skip hr with ⟨v', hplay, hworked⟩
  have hreleased : v'.locks.release id = before := by
    rw [hworked.locks, ← hv.locks]
    exact LockTable.release_cons hopen
  refine ⟨{ v' with locks := v'.locks.release id }, ?_, ?_, hworked.ids⟩
  · have hstart := hreplays v v.ids hv.assigned hids.front ?_
    · refine hstart.trans ?_
      rw [Saga.play, LockTable.acquire?_of_free hopen]
      show (next true).play _ = _
      rw [hinner]
      exact Saga.play_under hplay
    · rintro _ rfl
      exact ⟨hcleared.alike h.distinct hv.assigned halike, hopen⟩
  · refine ⟨hworked.assigned.around _ _ _, ?_, hreleased, ?_⟩
    · exact hworked.outside.things.trans (hv.things.trans h.things_go.symm)
    · intro owner
      by_cases howner : owner = some id
      · subst howner
        exact hworked.estate
      · have hother : (some id == owner) = false := by
          rw [beq_eq_false_iff_ne]
          exact fun heq => howner heq.symm
        have hkept := World.share_of_outside (p := (· == owner)) hother hworked.outside.outside
        refine hkept.trans ((hv.shares owner).trans (h.outcome_go ?_))
        rw [hgo]
        exact World.isBusy_of_ne howner

theorem Course.serial (h : Course config before first s places)
    (hended : Ended first (s.follow places)) (hv : Serial config before s places v)
    (hids : v.ids.Supplies ((s.admitted places).flatMap (·.taken))) :
    (playAll config ((s.admitted places).map (·.request)) v).1.map some =
        (s.admitted places).map (fun a => (s.follow places).answer? a.place) ∧
      forall owner, (playAll config ((s.admitted places).map (·.request)) v).2.share
          config.naming (· == owner) =
        (s.follow places).world.share config.naming (· == owner) := by
  induction places generalizing s v with
  | nil => exact ⟨rfl, hv.shares⟩
  | cons place places ih =>
      cases hadmission : s.admission? place with
      | none =>
          rw [admitted, hadmission] at hids ⊢
          exact ih h.go hended (hv.go h hadmission) hids
      -- the serial run does the whole operation when its lock is given
      | some known =>
          rcases known with ⟨request, drawn⟩
          rw [admitted, hadmission] at hids ⊢
          have hinside : place < (s.follow (place :: places)).threads.length := by
            rcases admission?_eq_some hadmission with ⟨_, _, _, hplace, _⟩
            rw [length_follow]
            exact (List.getElem?_eq_some_iff.mp hplace).1
          have hanswered := hended place (h.inside place List.mem_cons_self) hinside
          rcases Option.isSome_iff_exists.mp hanswered with ⟨r, hr⟩
          rcases hv.admit h hadmission hids hr with ⟨v', hplay, hserial, hrest⟩
          rcases ih h.go hended hserial hrest with ⟨hanswers, hshares⟩
          simp only [List.map_cons, playAll, hplay]
          refine ⟨?_, hshares⟩
          rw [hanswers]
          exact congrArg (· :: _) hr.symm

end Serial

/-!
# From a reachable system on
-/

/-- The operations that are given their locks in a schedule, run one after the other in
that order, each with the identifiers that it takes in the schedule. -/
def serialRun (config : Config) (s : System) (places : List Nat) :
    List (Except TriggerError Answer) × World :=
  playAll config ((s.admitted places).map (·.request))
    { s.world with ids := .ofList ((s.admitted places).flatMap (·.taken)) }

/-- A schedule comes to the same as the serial run of those operations that are given
their locks in it. -/
structure Serialized (config : Config) (s : System) (places : List Nat) : Prop where
  answers : (s.serialRun config places).1.map some =
    (s.admitted places).map fun a => (s.follow places).answer? a.place
  /-- Rows, topics, subscriptions and rules are the same as sets. -/
  holds : forall item, (s.serialRun config places).2.Holds item ↔
    (s.follow places).world.Holds item
  targets : forall id, (s.serialRun config places).2.store.targetsOf id =
    (s.follow places).world.store.targetsOf id
  once : ((s.admitted places).map (·.place)).Nodup
  /-- The steps of all others change nothing. -/
  unchanged : forall earlier place later, places = earlier ++ place :: later ->
    place ∉ (s.admitted places).map (·.place) ->
      ((s.follow earlier).go place).world =
        { (s.follow earlier).world with ids := ((s.follow earlier).go place).world.ids }

section Reachable

variable {config : Config} {fails : Call -> ServiceError -> Prop} {things : List Thing}
  {ids : IdSource} {s : System} {requests : List Request} {places : List Nat}

theorem exists_request_of_started {place : Nat} {thread : Thread}
    (hthread : (s.play config (requests.map .start)).threads[place]? = some thread)
    (hfirst : s.threads.length ≤ place) :
    exists request, request ∈ requests ∧ thread = .start config request := by
  rw [play_starts, List.getElem?_append_right hfirst] at hthread
  rcases List.mem_map.mp (List.mem_of_getElem? hthread) with ⟨request, hrequest, rfl⟩
  exact ⟨request, hrequest, rfl⟩

theorem exists_ended (config : Config) (s : System) (requests : List Request)
    (places : List Nat) :
    exists more, (forall place, place ∈ more -> s.threads.length ≤ place) ∧
      Ended s.threads.length
        ((s.play config (requests.map .start)).follow (places ++ more)) := by
  have hinPlace : forall place, place ∈ List.range' s.threads.length requests.length ->
      ((s.play config (requests.map .start)).follow places).InPlace place := by
    intro place hplace
    apply InPlace.follow
    rcases List.mem_range'_1.mp hplace with ⟨hfirst, hlast⟩
    have hinside : place < (s.play config (requests.map .start)).threads.length := by
      rw [play_starts, List.length_append, List.length_map]
      exact hlast
    rcases exists_request_of_started (List.getElem?_eq_getElem hinside) hfirst with
      ⟨request, _, hthread⟩
    exact ⟨request, _, _, (List.getElem?_eq_getElem hinside).trans (congrArg some hthread)⟩
  rcases exists_follow_answer hinPlace with ⟨more, hmore, hanswers⟩
  refine ⟨more, fun place hplace => (List.mem_range'_1.mp (hmore place hplace)).1, ?_⟩
  intro place hfirst hinside
  rw [length_follow, play_starts, List.length_append, List.length_map] at hinside
  rw [follow_append]
  exact hanswers place (List.mem_range'_1.mpr ⟨hfirst, hinside⟩)

theorem Reachable.course (hs : Reachable config fails things ids s)
    (hrequests : forall request, request ∈ requests -> request.Changes)
    (hplaces : forall place, place ∈ places -> s.threads.length ≤ place)
    (hids : ((s.play config (requests.map .start)).follow places).world.ids.Unrepeated) :
    Course config s.world.locks s.threads.length (s.play config (requests.map .start))
      places := by
  have ht := hs.play (requests.map .start)
  have hdrawn := ht.drawn ((precedes_follow _ places).unrepeated hids)
  refine ⟨⟨fails, things, ids, ht⟩, hplaces, hids,
    (s.play config (requests.map .start)).world.ids.Gave, ?_⟩
  constructor
  · intro place request st work hfirst hplace
    rcases exists_request_of_started hplace hfirst with ⟨_, hrequest, hthread⟩
    cases hthread
    exact (hrequests _ hrequest).stage
  · intro r hr
    rcases (ht.ordered.inv.targets r hr).issued with
      ⟨_, _, ⟨thread, hthread, _, hearlier⟩, _, hmem⟩
    rcases List.mem_iff_getElem?.mp hthread with ⟨place, hplace⟩
    exact hdrawn.past place thread hplace _ (hearlier.subset hmem)
  · exact fun u hu => hu
  · intro id hid
    rw [play_starts]
    exact hid

/-- Changes are serializable: from any reachable system on, in any order of their steps,
they come to what those of them that are given their locks come to one after the other.
No identifier must be drawn twice, and the schedule must let them all end. -/
theorem Reachable.serialized (hs : Reachable config fails things ids s)
    (hrequests : forall request, request ∈ requests -> request.Changes)
    (hplaces : forall place, place ∈ places -> s.threads.length ≤ place)
    (hids : ((s.play config (requests.map .start)).follow places).world.ids.Unrepeated)
    (hended : Ended s.threads.length ((s.play config (requests.map .start)).follow places)) :
    (s.play config (requests.map .start)).Serialized config places := by
  have hcourse := hs.course hrequests hplaces hids
  have hworld : (s.play config (requests.map .start)).world = s.world := by
    rw [play_starts]
  generalize ht : s.play config (requests.map .start) = t at *
  have hstart : Serial config s.world.locks t places
      { t.world with ids := .ofList ((t.admitted places).flatMap (·.taken)) } := by
    constructor
    case assigned => exact hcourse.assigned.around _ _ _
    case things => rfl
    case locks => rw [← hworld]
    case shares =>
      intro owner
      refine (outcome_of_free ?_ places).symm
      rw [hworld]
      cases owner with
      | none => rfl
      | some id => exact Bool.and_not_self _
  rcases hcourse.serial hended hstart (IdSource.supplies_ofList _) with
    ⟨hanswers, hshares⟩
  constructor
  case answers => exact hanswers
  case once => exact hcourse.nodup_admitted
  case holds =>
    intro item
    constructor
    · intro hitem
      exact World.holds_of_share (hshares _) hitem (beq_self_eq_true (item.owner? config.naming))
    · intro hitem
      exact World.holds_of_share (hshares _).symm hitem
        (beq_self_eq_true (item.owner? config.naming))
  case targets =>
    intro id
    have hrows := congrArg Share.targets (hshares (some id))
    simp only [World.share, Option.some_beq_some] at hrows
    exact hrows
  case unchanged =>
    rintro earlier place later rfl hnever
    apply hcourse.unchanged _ hnever
    intro thread hthread
    rw [← ht] at hthread
    have hfirst := hplaces place (List.mem_append_right _ List.mem_cons_self)
    rcases exists_request_of_started hthread hfirst with ⟨request, _, rfl⟩
    rfl

end Reachable

/-- The owner of an alarm asks for a second target, the removal of the first one, another
alarm, and the deletion of the alarm. -/
def crowd : List Request :=
  [.addTarget ⟨7⟩ ⟨Uuid.ofNat 0⟩ ⟨"sms", "+4912345678"⟩, .removeTarget ⟨7⟩ ⟨Uuid.ofNat 2⟩,
    .create Lifecycle.heatAlarm, .delete ⟨7⟩ ⟨Uuid.ofNat 0⟩]

/-- The removal reads its target before the second target is added, and locks its trigger
after that.  The deletion finds the trigger locked. -/
def crush : List Nat :=
  [2, 2, 2, 3, 3, 1, 1, 4, 4, 3, 1, 3, 1, 3, 1, 3, 1, 3, 1, 3, 1, 3, 1, 3, 1, 3, 2, 3, 2, 3, 2,
    3, 2, 2, 2]

theorem crowd_serialized :
    (((guarded.play .standard (crowd.map .start)).admitted crush).map (·.place)) = [1, 3, 2] ∧
      (guarded.play .standard (crowd.map .start)).Serialized .standard crush := by
  refine ⟨by decide +kernel, ?_⟩
  have hs : Reachable .standard (fun _ _ => False) _ _ guarded := home_reachable.play _
  have hlength : guarded.threads.length = 1 := by decide +kernel
  apply hs.serialized
  · simp only [crowd, List.forall_mem_cons]
    exact ⟨trivial, trivial, trivial, trivial, nofun⟩
  · rw [hlength]
    decide
  · have hguarded : home.world.ids.Precedes guarded.world.ids := by
      rw [guarded]
      exact home.precedes_play .standard _
    have hstarted := hguarded.trans (guarded.precedes_play .standard (crowd.map .start))
    have hsequence := (hstarted.trans (precedes_follow _ crush)).sequence
    have hdrawn : ((guarded.play .standard (crowd.map .start)).follow crush).world.ids.drawn =
        8 := by
      decide +kernel
    have hdistinct : forall i, i < 8 -> forall j, j < 8 ->
        Uuid.ofNat i = Uuid.ofNat j -> i = j := by
      decide +kernel
    intro i j hi hj
    rw [hdrawn] at hi hj
    rw [hsequence]
    exact hdistinct i hi j hj
  · have hended : forall place, place < 5 -> 1 ≤ place ->
        (((guarded.play .standard (crowd.map .start)).follow crush).answer? place).isSome =
          true := by
      decide +kernel
    intro place hfirst hinside
    rw [length_follow, play_starts, List.length_append, hlength] at hinside
    rw [hlength] at hfirst
    exact hended place hinside hfirst

end System
end TelemetryTriggers
