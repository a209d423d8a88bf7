import TelemetryTriggers.Proofs.Orchestrator.Insertion
import TelemetryTriggers.Proofs.Orchestrator.Interleaving

/-!
# Questions without a lock

A question for a trigger reads its row first and the rows of its targets later, and other
operations go on in between.  What it answers was nevertheless true at one instant: the row
of a visible trigger never changes, and it goes only when no target is left, so what is read
late is either current or what had been there when the row went.

Main definitions: `World.Shows`, what the store holds of a trigger; `Observing`, how far a
question has come.  The main statement is `System.Reachable.snapshot`.
-/

namespace TelemetryTriggers

/-!
# What the store holds of a trigger
-/

/-- Exactly this row stands for the trigger, which the account may see, and its targets are
exactly these, in this order. -/
structure World.Shows (user : UserId) (id : TriggerId) (details : TriggerDetails)
    (w : World) : Prop where
  row : w.store.triggers.filter (·.id == id) = [details.trigger]
  owned : details.trigger.user = user
  provisioned : details.trigger.isProvisioned = true
  targets : w.store.targetsOf id = details.targets

theorem World.shows_of_mem {w : World} (hw : w.Integrity) {user : UserId} {row : Trigger}
    (hrow : row ∈ w.store.triggers) (hvisible : Lifecycle.isVisibleTo user row = true) :
    w.Shows user row.id ⟨row, w.store.targetsOf row.id⟩ := by
  rw [Lifecycle.isVisibleTo, Bool.and_eq_true, beq_iff_eq] at hvisible
  exact ⟨hw.store.filter_id hrow, hvisible.1, hvisible.2, rfl⟩

/-- The row of a provisioned trigger goes only as a whole and after its targets. -/
theorem Call.row_gone {c : Call} {w : World} (hw : w.Integrity) {row : Trigger}
    (hrow : row ∈ w.store.triggers) (hprovisioned : row.isProvisioned = true)
    (hgone : row ∉ (c.perform w).2.store.triggers) :
    w.store.targetsOf row.id = [] ∧
      forall other, other ∈ (c.perform w).2.store.triggers -> other.id ≠ row.id := by
  rcases hperform : c.perform w with ⟨reply, v⟩
  rw [hperform] at hgone
  cases performed hperform with
  | insertTrigger => exact absurd (List.mem_append_left _ hrow) hgone
  | @setHandles id handles hdraft =>
      -- handles are written once
      rcases hdraft with ⟨draft, hdraft, hunset⟩
      have hother : row.id ≠ id := by
        rintro rfl
        rw [hw.store.trigger?_eq_some hrow] at hdraft
        cases hdraft
        rw [hprovisioned] at hunset
        cases hunset
      apply absurd _ hgone
      exact List.mem_map.mpr ⟨row, hrow, if_neg hother⟩
  | @deleteTrigger id hempty =>
      have hid : row.id = id := by
        by_contra hother
        exact hgone (List.mem_filter.mpr ⟨hrow, by simpa using hother⟩)
      subst hid
      constructor
      · rw [Store.targetsOf, List.filter_eq_nil_iff]
        exact fun target htarget => by simpa using hempty target htarget
      · intro other hother
        simpa using (List.mem_filter.mp hother).2
  | _ => exact absurd hrow hgone

theorem Operation.step_ask_bind {α : Type} {fails : Call -> ServiceError -> Prop} {c : Call}
    {f : c.Reply -> Operation α} {st st' : Standing} {w v : World}
    {work : Saga (Except TriggerError α)} (hreads : c.Reads)
    (h : (Operation.ask c >>= f).run.Step fails st w st' v work) :
    st' = st ∧ v = w ∧ ((exists e, work = .done (.error e)) ∨
      exists r, (c.perform w).1 = .ok r ∧ work = (f r).run) := by
  rw [Operation.run_ask_bind] at h
  cases h with
  | call =>
      refine ⟨rfl, hreads.perform_eq w, ?_⟩
      cases (c.perform w).1 with
      | ok r => exact Or.inr ⟨r, rfl, rfl⟩
      | error e => exact Or.inl ⟨_, rfl⟩
  | failure => exact ⟨rfl, rfl, Or.inl ⟨_, rfl⟩⟩

/-!
# How far a question has come
-/

section Question

variable {config : Config} {fails : Call -> ServiceError -> Prop} {user : UserId}
  {id : TriggerId} {row : Trigger} {st st' : Standing} {w v : World}
  {work : Saga (Except TriggerError Answer)}

def Lifecycle.listing (id : TriggerId) (row : Trigger) : Operation Answer := do
  let targets : List Target ← .ask (.listTargets id)
  pure (.trigger ⟨row, targets⟩)

theorem getTrigger_eq :
    (Request.getTrigger user id).operation config =
      (Operation.ask (.getTrigger id) >>= fun row : Option Trigger =>
        .orFail (row.filter (Lifecycle.isVisibleTo user)) (Lifecycle.noTrigger id) >>=
          Lifecycle.listing id) := by
  simp only [Request.operation, Lifecycle.getTrigger, Lifecycle.visibleTrigger, bind_assoc,
    pure_bind]
  rfl

theorem Saga.Step.of_getTrigger
    (h : ((Request.getTrigger user id).operation config).run.Step fails st w st' v work) :
    st' = st ∧ v = w ∧ ((exists e, work = .done (.error e)) ∨
      exists row, row ∈ w.store.triggers ∧ row.id = id ∧
        Lifecycle.isVisibleTo user row = true ∧ work = (Lifecycle.listing id row).run) := by
  have hreads : (Call.getTrigger id).Reads := trivial
  rw [getTrigger_eq] at h
  rcases Operation.step_ask_bind hreads h with ⟨hst, hv, hfailed | ⟨row, hreply, rfl⟩⟩
  · exact ⟨hst, hv, Or.inl hfailed⟩
  · refine ⟨hst, hv, ?_⟩
    have hreply : Except.ok (w.store.trigger? id) = Except.ok row := hreply
    cases hreply
    cases hfound : (w.store.trigger? id).filter (Lifecycle.isVisibleTo user) with
    | none => exact Or.inl ⟨_, rfl⟩
    | some row =>
        rcases Option.filter_eq_some_iff.mp hfound with ⟨hrow, hvisible⟩
        rcases Store.trigger?_eq_some hrow with ⟨hmem, hid⟩
        exact Or.inr ⟨row, hmem, hid, hvisible, rfl⟩

theorem Saga.Step.of_listing
    (h : (Lifecycle.listing id row).run.Step fails st w st' v work) :
    st' = st ∧ v = w ∧ ((exists e, work = .done (.error e)) ∨
      work = .done (.ok (.trigger ⟨row, w.store.targetsOf id⟩))) := by
  have hreads : (Call.listTargets id).Reads := trivial
  rcases Operation.step_ask_bind hreads h with ⟨hst, hv, hfailed | ⟨targets, hreply, rfl⟩⟩
  · exact ⟨hst, hv, Or.inl hfailed⟩
  · have hreply : Except.ok (w.store.targetsOf id) = Except.ok targets := hreply
    cases hreply
    exact ⟨hst, hv, Or.inr rfl⟩

end Question

namespace System

variable {config : Config} {fails : Call -> ServiceError -> Prop} {things : List Thing}
  {ids : IdSource} {s t : System} {user : UserId} {id : TriggerId} {row : Trigger}
  {seen seen' : TriggerDetails -> Prop} {place : Nat}

/-- The row that a question has read still stands, or it went when no target was left, and no
other row has come in its place. -/
def Stands (seen : TriggerDetails -> Prop) (row : Trigger) (s : System) : Prop :=
  row ∈ s.world.store.triggers ∨
    (seen ⟨row, []⟩ ∧ s.Settled row.id ∧
      forall other, other ∈ s.world.store.triggers -> other.id ≠ row.id)

theorem Step.row_gone (hstep : Step config fails s t) (hw : s.world.Integrity)
    (hrow : row ∈ s.world.store.triggers) (hprovisioned : row.isProvisioned = true)
    (hgone : row ∉ t.world.store.triggers) :
    s.world.store.targetsOf row.id = [] ∧
      forall other, other ∈ t.world.store.triggers -> other.id ≠ row.id := by
  cases hstep with
  | move hmoves =>
      cases hmoves with
      | move hplace hmove =>
          cases hmove with
          | call c next => exact c.row_gone hw hrow hprovisioned hgone
          | _ => exact absurd hrow hgone
  | _ => exact absurd hrow hgone

theorem Stands.step (h : s.Stands seen row) (hs : Reachable config fails things ids s)
    (hstep : Step config fails s t) (ht : t.world.ids.Unrepeated)
    (hvisible : Lifecycle.isVisibleTo user row = true)
    (hseen : forall details, seen details -> seen' details)
    (hnow : forall details, s.world.Shows user row.id details -> seen' details) :
    t.Stands seen' row := by
  have hearlier := hstep.precedes.unrepeated ht
  rcases h with hrow | ⟨hshown, hsettled, habsent⟩
  · by_cases hkept : row ∈ t.world.store.triggers
    · exact Or.inl hkept
    · have hw := hs.ordered.inv.integrity
      have hshows := World.shows_of_mem hw hrow hvisible
      rcases hstep.row_gone hw hrow hshows.provisioned hkept with ⟨hnone, habsent⟩
      rw [hnone] at hshows
      exact Or.inr ⟨hnow _ hshows, (hs.settled hearlier hrow).step hstep ht, habsent⟩
  · refine Or.inr ⟨hseen _ hshown, hsettled.step hstep ht, ?_⟩
    intro other hother hid
    rcases hsettled.row_origin hs hstep hother hid with ⟨old, hold, hid⟩
    exact habsent old hold hid

theorem Stands.shown (h : s.Stands seen row) (hw : s.world.Integrity)
    (hvisible : Lifecycle.isVisibleTo user row = true)
    (hseen : forall details, seen details -> seen' details)
    (hnow : forall details, s.world.Shows user row.id details -> seen' details) :
    seen' ⟨row, s.world.store.targetsOf row.id⟩ := by
  rcases h with hrow | ⟨hshown, _, habsent⟩
  · exact hnow _ (World.shows_of_mem hw hrow hvisible)
  · rw [hw.store.targetsOf_of_absent habsent]
    exact hseen _ hshown

inductive Observing (config : Config) (user : UserId) (id : TriggerId)
    (seen : TriggerDetails -> Prop) (s : System) :
    Option (Saga (Except TriggerError Answer)) -> Prop
  | asking :
      Observing config user id seen s
        (some ((Request.getTrigger user id).operation config).run)
  | listing (row : Trigger) (hid : row.id = id)
      (hvisible : Lifecycle.isVisibleTo user row = true) (hstands : s.Stands seen row) :
      Observing config user id seen s (some (Lifecycle.listing id row).run)
  | answered (details : TriggerDetails) (hseen : seen details) :
      Observing config user id seen s (some (.done (.ok (.trigger details))))
  | failed (e : TriggerError) : Observing config user id seen s (some (.done (.error e)))
  | dropped : Observing config user id seen s none

namespace Observing

variable {request : Request} {st st' : Standing} {v : World} {threads : List Thread}
  {work work' : Saga (Except TriggerError Answer)}
  {rest : Option (Saga (Except TriggerError Answer))}

theorem move (h : Observing config user id seen s (some work))
    (hmove : work.Step fails st s.world st' v work') (hw : s.world.Integrity)
    (hplace : s.threads[place]? = some ⟨request, st, some work⟩)
    (hseen : forall details, seen details -> seen' details)
    (hnow : s.answer? place = none ->
      forall details, s.world.Shows user id details -> seen' details) :
    Observing config user id seen' ⟨v, threads⟩ (some work') := by
  cases h with
  | asking =>
      rcases hmove.of_getTrigger with ⟨_, rfl, ⟨e, rfl⟩ | ⟨row, hrow, hid, hvisible, rfl⟩⟩
      · exact .failed e
      · exact .listing row hid hvisible (Or.inl hrow)
  | listing row hrow hvisible hstands =>
      subst hrow
      have hopen : s.answer? place = none := by
        rw [answer?, hplace]
        rfl
      rcases hmove.of_listing with ⟨_, rfl, ⟨e, rfl⟩ | rfl⟩
      · exact .failed e
      · exact .answered _ (hstands.shown hw hvisible hseen (hnow hopen))
  | answered => cases hmove
  | failed => cases hmove

theorem later (h : Observing config user id seen s rest)
    (hplace : s.threads[place]? = some ⟨request, st, rest⟩)
    (hs : Reachable config fails things ids s) (hstep : Step config fails s t)
    (ht : t.world.ids.Unrepeated) (hseen : forall details, seen details -> seen' details)
    (hnow : s.answer? place = none ->
      forall details, s.world.Shows user id details -> seen' details) :
    Observing config user id seen' t rest := by
  cases h with
  | asking => exact .asking
  | listing row hrow hvisible hstands =>
      subst hrow
      have hopen : s.answer? place = none := by
        rw [answer?, hplace]
        rfl
      exact .listing row rfl hvisible (hstands.step hs hstep ht hvisible hseen (hnow hopen))
  | answered details hshown => exact .answered details (hseen details hshown)
  | failed e => exact .failed e
  | dropped => exact .dropped

theorem step (h : Observing config user id seen s rest)
    (hplace : s.threads[place]? = some ⟨request, st, rest⟩)
    (hs : Reachable config fails things ids s) (hstep : Step config fails s t)
    (ht : t.world.ids.Unrepeated) (hseen : forall details, seen details -> seen' details)
    (hnow : s.answer? place = none ->
      forall details, s.world.Shows user id details -> seen' details) :
    exists st' rest', t.threads[place]? = some ⟨request, st', rest'⟩ ∧
      Observing config user id seen' t rest' := by
  have hlater := h.later hplace hs hstep ht hseen hnow
  rcases List.getElem?_eq_some_iff.mp hplace with ⟨hinside, _⟩
  cases hstep with
  | start started w threads =>
      refine ⟨st, rest, ?_, hlater⟩
      rw [List.getElem?_append_left hinside]
      exact hplace
  | @move other _ _ hmoves =>
      cases hmoves with
      | move hother hmove =>
          by_cases hsame : other = place
          · subst hsame
            cases hother.symm.trans hplace
            exact ⟨_, _, List.getElem?_set_self hinside,
              h.move hmove hs.ordered.inv.integrity hplace hseen hnow⟩
          · refine ⟨st, rest, ?_, hlater⟩
            rw [List.getElem?_set_ne hsame]
            exact hplace
  | @abandon other w threads thread hother =>
      by_cases hsame : other = place
      · subst hsame
        cases hother.symm.trans hplace
        exact ⟨_, none, List.getElem?_set_self hinside, .dropped⟩
      · refine ⟨st, rest, ?_, hlater⟩
        rw [List.getElem?_set_ne hsame]
        exact hplace
  | replan => exact ⟨st, rest, hplace, hlater⟩
  | dispatch => exact ⟨st, rest, hplace, hlater⟩
  | restart w threads =>
      refine ⟨{ st with locks := [] }, none, ?_, .dropped⟩
      show (threads.map Thread.dropped)[place]? = _
      rw [List.getElem?_map, hplace]
      rfl

end Observing

/-!
# Snapshots
-/

section History

variable {states : Nat -> System} {last : Nat} {details : TriggerDetails}

def ShownBefore (states : Nat -> System) (place : Nat) (user : UserId) (id : TriggerId)
    (instant : Nat) (details : TriggerDetails) : Prop :=
  exists i, i < instant ∧ (states i).answer? place = none ∧
    (states i).world.Shows user id details

theorem precedes_of_steps
    (hsteps : forall i, i < last -> Step config fails (states i) (states (i + 1))) {n : Nat}
    (hn : n ≤ last) : (states n).world.ids.Precedes (states last).world.ids := by
  induction hn using Nat.decreasingInduction with
  | self => exact .refl _
  | of_succ n hn ih => exact (hsteps n hn).precedes.trans ih

theorem Reachable.of_steps (hs : Reachable config fails things ids (states 0))
    (hsteps : forall i, i < last -> Step config fails (states i) (states (i + 1))) {n : Nat}
    (hn : n ≤ last) : Reachable config fails things ids (states n) := by
  induction n with
  | zero => exact hs
  | succ n ih => exact (ih (Nat.le_of_succ_le hn)).step (hsteps n hn)

theorem Reachable.observing (hs : Reachable config fails things ids (states 0))
    (hcalled : (states 0).threads[place]? = some (.start config (.getTrigger user id)))
    (hsteps : forall i, i < last -> Step config fails (states i) (states (i + 1)))
    (hids : (states last).world.ids.Unrepeated) {n : Nat} (hn : n ≤ last) :
    exists st rest, (states n).threads[place]? = some ⟨.getTrigger user id, st, rest⟩ ∧
      Observing config user id (ShownBefore states place user id n) (states n) rest := by
  induction n with
  | zero => exact ⟨_, _, hcalled, .asking⟩
  | succ n ih =>
      have hearlier : n ≤ last := Nat.le_of_succ_le hn
      rcases ih hearlier with ⟨st, rest, hplace, hobserving⟩
      apply hobserving.step hplace (hs.of_steps hsteps hearlier) (hsteps n hn)
      · exact (precedes_of_steps hsteps hn).unrepeated hids
      · rintro shown ⟨i, hi, hshown⟩
        exact ⟨i, Nat.lt_succ_of_lt hi, hshown⟩
      · exact fun hopen shown hshows => ⟨n, Nat.lt_succ_self n, hopen, hshows⟩

/-- What a question for a trigger answers is what the store held of the trigger at one
instant while the question was open. -/
theorem Reachable.snapshot (hs : Reachable config fails things ids (states 0))
    (hcalled : (states 0).threads[place]? = some (.start config (.getTrigger user id)))
    (hsteps : forall i, i < last -> Step config fails (states i) (states (i + 1)))
    (hids : (states last).world.ids.Unrepeated)
    (hanswer : (states last).answer? place = some (.ok (.trigger details))) :
    exists i, i < last ∧ (states i).answer? place = none ∧
      (states i).world.Shows user id details := by
  rcases hs.observing hcalled hsteps hids (Nat.le_refl last) with ⟨st, rest, hplace, hobserving⟩
  rcases answer?_eq_some hanswer with ⟨request, st', hdone⟩
  cases hplace.symm.trans hdone
  generalize hrest : some (Saga.done (Except.ok (Answer.trigger details))) = rest at hobserving
  cases hobserving with
  | answered shown hseen =>
      cases hrest
      exact hseen
  | asking => cases hrest
  | listing => cases hrest
  | failed => cases hrest
  | dropped => cases hrest

end History

theorem step_follow {places : List Nat} {i : Nat} (hi : i < places.length)
    (hgo : ((s.follow (places.take i)).go? places[i]).isSome = true) :
    Step config fails (s.follow (places.take i)) (s.follow (places.take (i + 1))) := by
  have hmoves : Moves fails places[i] (s.follow (places.take i))
      ((s.follow (places.take i)).turn config (.go places[i])) := moves_turn hgo
  rw [List.take_succ_eq_append_getElem hi, follow_append]
  exact .move hmoves

def shown? : Except TriggerError Answer -> Option TriggerDetails
  | .ok (.trigger details) => some details
  | _ => none

theorem eq_of_shown {r : Except TriggerError Answer} {details : TriggerDetails}
    (h : shown? r = some details) : r = .ok (.trigger details) := by
  unfold shown? at h
  split at h
  · cases h
    rfl
  · cases h

def asked : System :=
  guarded.play .standard ([.getTrigger ⟨7⟩ ⟨Uuid.ofNat 0⟩, .delete ⟨7⟩ ⟨Uuid.ofNat 0⟩].map .start)

/-- The whole deletion happens between the two reads of the question. -/
def overtaken : List Nat :=
  1 :: List.replicate 9 2 ++ [1]

def overtaking (i : Nat) : System :=
  asked.follow (overtaken.take i)

theorem overtaking_snapshot :
    exists details, (overtaking 0).threads[1]? =
        some (.start .standard (.getTrigger ⟨7⟩ ⟨Uuid.ofNat 0⟩)) ∧
      (forall i, i < 11 ->
        Step .standard (fun _ _ => False) (overtaking i) (overtaking (i + 1))) ∧
      (overtaking 11).world.ids.Unrepeated ∧
      (overtaking 11).answer? 1 = some (.ok (.trigger details)) ∧
      (overtaking 11).world.store.triggers = [] ∧
      exists i, i < 11 ∧ (overtaking i).answer? 1 = none ∧
        (overtaking i).world.Shows ⟨7⟩ ⟨Uuid.ofNat 0⟩ details := by
  have hasked : Reachable .standard (fun _ _ => False) _ _ asked :=
    (home_reachable.play _).play _
  have hs : Reachable .standard (fun _ _ => False) _ _ (overtaking 0) :=
    hasked.follow (overtaken.take 0)
  have hplace : (overtaking 0).threads[1]? =
      some (.start .standard (.getTrigger ⟨7⟩ ⟨Uuid.ofNat 0⟩)) := by
    have hlength : guarded.threads.length = 1 := by decide +kernel
    rw [overtaking, List.take_zero, follow, List.foldl_nil, asked, play_starts,
      List.getElem?_append_right (by omega), hlength]
    rfl
  have hsteps : forall i, i < 11 ->
      Step .standard (fun _ _ => False) (overtaking i) (overtaking (i + 1)) := by
    have hgo : forall i, (hi : i < overtaken.length) ->
        ((asked.follow (overtaken.take i)).go? overtaken[i]).isSome = true := by
      decide +kernel
    exact fun i hi => step_follow hi (hgo i hi)
  have hids : (overtaking 11).world.ids.Unrepeated := by
    have hguarded : home.world.ids.Precedes guarded.world.ids := by
      rw [guarded]
      exact home.precedes_play .standard _
    have hasked : guarded.world.ids.Precedes asked.world.ids := by
      rw [asked]
      exact guarded.precedes_play .standard _
    have hlast : asked.world.ids.Precedes (overtaking 11).world.ids := by
      rw [overtaking]
      exact asked.precedes_follow _
    exact home_unrepeated ((hguarded.trans hasked).trans hlast) (by decide +kernel)
  have hanswer : exists details, (overtaking 11).answer? 1 = some (.ok (.trigger details)) := by
    have hshown : (((overtaking 11).answer? 1).bind shown?).isSome = true := by
      decide +kernel
    rcases Option.isSome_iff_exists.mp hshown with ⟨details, hdetails⟩
    rcases Option.bind_eq_some_iff.mp hdetails with ⟨r, hr, hdetails⟩
    exact ⟨details, by rw [hr, eq_of_shown hdetails]⟩
  have hgone : (overtaking 11).world.store.triggers.isEmpty = true := by decide +kernel
  rcases hanswer with ⟨details, hanswer⟩
  exact ⟨details, hplace, hsteps, hids, hanswer, List.isEmpty_iff.mp hgone,
    hs.snapshot hplace hsteps hids hanswer⟩

end System
end TelemetryTriggers
