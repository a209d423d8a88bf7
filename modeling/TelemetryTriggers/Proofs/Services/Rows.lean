import Mathlib.Data.List.Forall2
import Mathlib.Data.List.Infix
import TelemetryTriggers.Proofs.Services.Change

/-!
# Rows over time

Whatever is done to the services and whatever fails, rows stay in their order and new rows
come last.  The row of a target is never written again, and the row of a trigger once, when
it gets its handles.

Main definitions: `World.Event` with `World.after` and `World.afterAll`, a history of the
services; `RowsFollow`, how a list of rows comes out of another one; `Trigger.Matures`, what
may become of a row.  The main statement is `World.rows_over_time`.
-/

namespace TelemetryTriggers

/-!
# Histories
-/

namespace World

inductive Event
  | register (thing : Thing)
  | call (deadline : Option Nat) (c : Call)
  | publish (topic : TopicHandle) (message : String)
  | plan (faults : FaultPlan)

def after (w : World) : Event -> World
  | .register thing => { w with store := w.store.addThing thing }
  | .call deadline c => (c.attempt deadline w).2
  | .publish topic message => { w with broker := (w.broker.publish topic message).2 }
  | .plan faults => { w with faults }

def afterAll (w : World) (events : List Event) : World :=
  events.foldl after w

end World

theorem World.Integrity.after {w : World} (h : w.Integrity) (event : World.Event) :
    (w.after event).Integrity := by
  cases event with
  | register thing => exact ⟨h.store.addThing thing, h.broker, h.engine⟩
  | publish topic message => exact ⟨h.store, h.broker.publish topic message, h.engine⟩
  | plan faults => exact ⟨h.store, h.broker, h.engine⟩
  | call deadline c =>
      have hstart : (c.start w).2.Integrity := ⟨h.store, h.broker, h.engine⟩
      show (c.attempt deadline w).2.Integrity
      rcases c.attempt_cases deadline w with ⟨e, heq⟩ | heq
      · rw [heq]
        exact hstart
      · rw [heq]
        exact c.integrity_perform hstart

theorem World.Integrity.afterAll {w : World} (h : w.Integrity) (events : List World.Event) :
    (w.afterAll events).Integrity := by
  induction events generalizing w with
  | nil => exact h
  | cons event events ih => exact ih (h.after event)

/-!
# Rows that stay, rows that go and rows that come
-/

section RowsFollow

variable {α β : Type} [DecidableEq β] {key : α -> β} {R : α -> α -> Prop} {rows rows' : List α}

/-- A list of rows comes out of another one: the rows whose keys are still there are in their
order, each as it may become, and after them come rows with keys that were not there. -/
def RowsFollow (key : α -> β) (R : α -> α -> Prop) (rows rows' : List α) : Prop :=
  exists kept new, rows' = kept ++ new ∧
    List.Forall₂ R (rows.filter fun r => rows'.any fun r' => key r' == key r) kept ∧
    forall r, r ∈ new -> forall q, q ∈ rows -> key q ≠ key r

theorem RowsFollow.of_forall₂ (h : List.Forall₂ R rows rows')
    (hkey : forall r r', R r r' -> key r' = key r) : RowsFollow key R rows rows' := by
  have hall : forall r, r ∈ rows -> (rows'.any fun r' => key r' == key r) = true := by
    intro r hr
    induction h with
    | nil => cases hr
    | cons hrel _ ih =>
        rw [List.any_cons, Bool.or_eq_true]
        rcases List.mem_cons.mp hr with rfl | hrest
        · exact Or.inl (beq_iff_eq.mpr (hkey _ _ hrel))
        · exact Or.inr (ih hrest)
  refine ⟨rows', [], (List.append_nil _).symm, ?_, fun r hr => absurd hr List.not_mem_nil⟩
  rw [List.filter_eq_self.mpr hall]
  exact h

theorem RowsFollow.concat (hR : forall r, R r r) {r : α}
    (hnew : forall q, q ∈ rows -> key q ≠ key r) : RowsFollow key R rows (rows ++ [r]) := by
  refine ⟨rows, [r], rfl, ?_, fun q hq => List.mem_singleton.mp hq ▸ hnew⟩
  have hall : forall q, q ∈ rows -> ((rows ++ [r]).any fun r' => key r' == key q) = true :=
    fun q hq => List.any_eq_true.mpr ⟨q, List.mem_append_left _ hq, beq_self_eq_true _⟩
  rw [List.filter_eq_self.mpr hall]
  exact List.forall₂_same.mpr fun q _ => hR q

theorem RowsFollow.filter (hR : forall r, R r r) (k : β) :
    RowsFollow key R rows (rows.filter fun r => key r != k) := by
  refine ⟨_, [], (List.append_nil _).symm, ?_, fun r hr => absurd hr List.not_mem_nil⟩
  have hstill : (rows.filter fun r =>
      (rows.filter fun r => key r != k).any fun r' => key r' == key r) =
        rows.filter fun r => key r != k := by
    apply List.filter_congr
    intro r hr
    rw [Bool.eq_iff_iff, List.any_eq_true, bne_iff_ne]
    constructor
    · rintro ⟨q, hq, hsame⟩
      rw [← eq_of_beq hsame]
      exact bne_iff_ne.mp (List.mem_filter.mp hq).2
    · intro hne
      exact ⟨r, List.mem_filter.mpr ⟨hr, bne_iff_ne.mpr hne⟩, beq_self_eq_true _⟩
  rw [hstill]
  exact List.forall₂_same.mpr fun r _ => hR r

theorem exists_of_mem_forall₂ {rows rows' : List α} (h : List.Forall₂ R rows rows') {r' : α}
    (hr' : r' ∈ rows') : exists r, r ∈ rows ∧ R r r' := by
  induction h with
  | nil => cases hr'
  | cons hrel _ ih =>
      rcases List.mem_cons.mp hr' with rfl | hrest
      · exact ⟨_, List.mem_cons_self, hrel⟩
      · rcases ih hrest with ⟨r, hr, hbecomes⟩
        exact ⟨r, List.mem_cons_of_mem _ hr, hbecomes⟩

theorem RowsFollow.of_mem (h : RowsFollow key R rows rows')
    (hkey : forall r r', R r r' -> key r' = key r) (hrows : (rows.map key).Nodup) {r r' : α}
    (hr : r ∈ rows) (hr' : r' ∈ rows') (hsame : key r' = key r) : R r r' := by
  rcases h with ⟨kept, new, rfl, hkept, hnew⟩
  rcases List.mem_append.mp hr' with hold | hlast
  · rcases exists_of_mem_forall₂ hkept hold with ⟨q, hq, hbecomes⟩
    have hone : q = r := List.inj_on_of_nodup_map hrows (List.mem_of_mem_filter hq) hr
      ((hkey q r' hbecomes).symm.trans hsame)
    rw [← hone]
    exact hbecomes
  · exact absurd hsame.symm (hnew r' hlast r hr)

end RowsFollow

/-!
# What an operation of the store does to its rows
-/

/-- What may become of the row of a trigger: it gets its handles if it has none, and nothing
else in it changes. -/
def Trigger.Matures (t t' : Trigger) : Prop :=
  t' = t ∨ t.handles = none ∧ exists handles, t' = { t with handles := some handles }

theorem Trigger.Matures.refl (t : Trigger) : t.Matures t :=
  Or.inl rfl

theorem Trigger.Matures.id_eq {t t' : Trigger} (h : t.Matures t') : t'.id = t.id := by
  rcases h with rfl | ⟨_, _, rfl⟩
  · rfl
  · rfl

theorem Trigger.Matures.trans {t t' t'' : Trigger} (h : t.Matures t') (h' : t'.Matures t'') :
    t.Matures t'' := by
  rcases h' with rfl | ⟨hdraft, handles, rfl⟩
  · exact h
  · rcases h with rfl | ⟨_, before, rfl⟩
    · exact Or.inr ⟨hdraft, handles, rfl⟩
    · cases hdraft

namespace Store

variable {s s' : Store}

structure Follows (s s' : Store) : Prop where
  triggers : RowsFollow (·.id) Trigger.Matures s.triggers s'.triggers
  targets : RowsFollow (·.id) Eq s.targets s'.targets

theorem triggers_follow_self (rows : List Trigger) :
    RowsFollow (·.id) Trigger.Matures rows rows :=
  .of_forall₂ (List.forall₂_same.mpr fun t _ => .refl t) fun _ _ h => h.id_eq

theorem targets_follow_self (rows : List Target) : RowsFollow (·.id) Eq rows rows :=
  .of_forall₂ (List.forall₂_same.mpr fun _ _ => rfl) fun _ _ h => congrArg Target.id h.symm

theorem Follows.of_rows (htriggers : s'.triggers = s.triggers) (htargets : s'.targets = s.targets) :
    s.Follows s' where
  triggers := htriggers ▸ triggers_follow_self s.triggers
  targets := htargets ▸ targets_follow_self s.targets

theorem insertTrigger_follows {t : Trigger} (h : s.insertTrigger t = .ok s') : s.Follows s' := by
  rcases insertTrigger_eq_ok h with ⟨hfree, rfl⟩
  exact ⟨.concat .refl hfree, targets_follow_self _⟩

theorem setHandles_follows {id : TriggerId} {handles : Handles} (hs : s.Integrity)
    (h : s.setHandles id handles = .ok s') : s.Follows s' := by
  rcases setHandles_eq_ok h with ⟨⟨draft, hfound, hdraft⟩, rfl⟩
  refine ⟨.of_forall₂ ?_ fun _ _ h => h.id_eq, targets_follow_self _⟩
  rw [withHandles, List.forall₂_map_right_iff, List.forall₂_same]
  intro t ht
  by_cases hid : t.id = id
  · rw [if_pos hid]
    rcases trigger?_eq_some hfound with ⟨hmem, hsame⟩
    -- no other row has the identifier of the draft
    rcases List.inj_on_of_nodup_map hs.trigger_ids hmem ht (hsame.trans hid.symm) with rfl
    exact Or.inr ⟨by simpa [Trigger.isProvisioned] using hdraft, handles, rfl⟩
  · rw [if_neg hid]
    exact .refl t

theorem deleteTrigger_follows {id : TriggerId} (h : s.deleteTrigger id = .ok s') :
    s.Follows s' := by
  rcases deleteTrigger_eq_ok h with ⟨_, rfl⟩
  exact ⟨.filter .refl id, targets_follow_self _⟩

theorem insertTarget_follows {r : Target} (h : s.insertTarget r = .ok s') : s.Follows s' := by
  rcases insertTarget_eq_ok h with ⟨_, hfree, rfl⟩
  exact ⟨triggers_follow_self _, .concat (fun _ => rfl) hfree⟩

theorem deleteTarget_follows {id : TargetId} (h : s.deleteTarget id = .ok s') :
    s.Follows s' := by
  rcases deleteTarget_eq_ok h with rfl
  exact ⟨triggers_follow_self _, .filter (fun _ => rfl) id⟩

end Store

theorem Call.follows_perform (c : Call) {w : World} (h : w.store.Integrity) :
    w.store.Follows (c.perform w).2.store := by
  have hstore : forall r : Except ServiceError Store,
      (forall s, r = .ok s -> w.store.Follows s) -> w.store.Follows (onStore w r).2.store := by
    intro r hr
    cases r with
    | error e => exact .of_rows rfl rfl
    | ok s => exact hr s rfl
  by_cases hservice : c.service = .store
  · cases c with
    | insertTrigger row => exact hstore _ fun s => Store.insertTrigger_follows
    | setHandles id handles => exact hstore _ fun s => Store.setHandles_follows h
    | deleteTrigger id => exact hstore _ fun s => Store.deleteTrigger_follows
    | insertTarget row => exact hstore _ fun s => Store.insertTarget_follows
    | deleteTarget id => exact hstore _ fun s => Store.deleteTarget_follows
    | createTopic _ | deleteTopic _ | subscribe _ _ _ | unsubscribe _ | listTopics
    | installRule _ _ _ | removeRule _ | listRules => cases hservice
    | _ => exact .of_rows rfl rfl
  · rw [store_perform hservice]
    exact .of_rows rfl rfl

/-!
# Rows in a history
-/

namespace World

variable {w : World}

theorem Integrity.follows_after (h : w.Integrity) (event : Event) :
    w.store.Follows (w.after event).store := by
  cases event with
  | register thing => exact .of_rows rfl rfl
  | publish topic message => exact .of_rows rfl rfl
  | plan faults => exact .of_rows rfl rfl
  | call deadline c =>
      show w.store.Follows (c.attempt deadline w).2.store
      rcases c.attempt_cases deadline w with ⟨e, heq⟩ | heq
      · rw [heq]
        exact .of_rows rfl rfl
      · rw [heq]
        exact c.follows_perform (w := (c.start w).2) h.store

theorem Integrity.matures_afterAll (h : w.Integrity) {later : List Event} {t t' : Trigger}
    (ht : t ∈ w.store.triggers) (ht' : t' ∈ (w.afterAll later).store.triggers)
    (hid : t'.id = t.id)
    (hstays : forall before, before <+: later ->
      (w.afterAll before).store.hasTrigger t.id = true) : t.Matures t' := by
  induction later generalizing w t with
  | nil =>
      rcases List.inj_on_of_nodup_map h.store.trigger_ids ht' ht hid with rfl
      exact .refl t'
  | cons event later ih =>
      rcases List.any_eq_true.mp (hstays [event] (by simp)) with ⟨next, hnext, hsame⟩
      have hmatures : t.Matures next := (h.follows_after event).triggers.of_mem
        (fun _ _ h => h.id_eq) h.store.trigger_ids ht hnext (eq_of_beq hsame)
      apply hmatures.trans (ih (h.after event) hnext ht' (hid.trans hmatures.id_eq.symm) _)
      intro before hbefore
      rw [hmatures.id_eq]
      exact hstays (event :: before) (List.prefix_cons_inj event |>.mpr hbefore)

theorem Integrity.same_afterAll (h : w.Integrity) {later : List Event} {r r' : Target}
    (hr : r ∈ w.store.targets) (hr' : r' ∈ (w.afterAll later).store.targets) (hid : r'.id = r.id)
    (hstays : forall before, before <+: later ->
      (w.afterAll before).store.hasTarget r.id = true) : r' = r := by
  induction later generalizing w with
  | nil => exact List.inj_on_of_nodup_map h.store.target_ids hr' hr hid
  | cons event later ih =>
      rcases List.any_eq_true.mp (hstays [event] (by simp)) with ⟨next, hnext, hsame⟩
      rcases (h.follows_after event).targets.of_mem (fun _ _ h => congrArg Target.id h.symm)
        h.store.target_ids hr hnext (eq_of_beq hsame) with rfl
      exact ih (h.after event) hnext hr' fun before hbefore =>
        hstays (event :: before) (List.prefix_cons_inj event |>.mpr hbefore)

/-- After any history of the services, with any arguments and faults, identifiers of rows are
unique and each target has its trigger.  Whatever happens next, the rows that stay are in
their order and new ones come after them, and a call that fails leaves the store as it was.
A trigger whose row stays keeps its identifier, its user, its device, its condition and its
message, and its handles are written once, when it has none; a target whose row stays keeps
it as it is. -/
theorem rows_over_time (things : List Thing) (ids : IdSource) (events : List Event) :
    let w := (World.ofThings things ids).afterAll events
    w.store.Integrity ∧
      (forall event, w.store.Follows (w.after event).store) ∧
      (forall deadline c e, (c.attempt deadline w).1 = .error e ->
        (w.after (.call deadline c)).store = w.store) ∧
      (forall later t t', t ∈ w.store.triggers -> t' ∈ (w.afterAll later).store.triggers ->
        t'.id = t.id ->
        (forall before, before <+: later ->
          (w.afterAll before).store.hasTrigger t.id = true) -> t.Matures t') ∧
      forall later r r', r ∈ w.store.targets -> r' ∈ (w.afterAll later).store.targets ->
        r'.id = r.id ->
        (forall before, before <+: later ->
          (w.afterAll before).store.hasTarget r.id = true) -> r' = r := by
  intro w
  have h : w.Integrity := (integrity_ofThings things ids).afterAll events
  refine ⟨h.store, h.follows_after, ?_, ?_, ?_⟩
  · intro deadline c e herror
    show (c.attempt deadline w).2.store = w.store
    rw [Call.attempt_error herror]
    rfl
  · exact fun later t t' => h.matures_afterAll
  · exact fun later r r' => h.same_afterAll

/-!
# An example
-/

def draftRow : Trigger :=
  ⟨⟨Uuid.ofNat 5⟩, ⟨7⟩, ⟨1⟩, ⟨"temperature", .greaterThan, 30⟩, "Too warm", none⟩

def draftTarget : Target :=
  ⟨⟨Uuid.ofNat 6⟩, draftRow.id, .sms, "+4912345678", ⟨"1"⟩⟩

def drafted : List Event :=
  [.call none (.insertTrigger draftRow), .call none (.insertTarget draftTarget)]

/-- The handles of the draft are written, but not at once, and then the trigger cannot be
deleted while it has a target. -/
def committed : List Event :=
  let handles : Handles := ⟨⟨"topic"⟩, ⟨"rule"⟩⟩
  let busy := FaultPlan.empty.set "store.update_trigger_handles" (.times (.unavailable "down") 1)
  [.plan busy, .call (some 20) (.setHandles draftRow.id handles),
    .call (some 20) (.setHandles draftRow.id handles), .call none (.deleteTrigger draftRow.id)]

theorem draft_over_time :
    let w := (ofThings [] ⟨Uuid.ofNat, 0⟩).afterAll drafted
    let row := { draftRow with handles := some ⟨⟨"topic"⟩, ⟨"rule"⟩⟩ }
    draftRow ∈ w.store.triggers ∧ draftTarget ∈ w.store.targets ∧
      row ∈ (w.afterAll committed).store.triggers ∧
      draftTarget ∈ (w.afterAll committed).store.targets ∧
      w.store.Integrity ∧ draftRow.Matures row ∧
      (forall r, r ∈ (w.afterAll committed).store.targets -> r.id = draftTarget.id ->
        r = draftTarget) ∧
      (w.after (.call none (.deleteTrigger draftRow.id))).store = w.store := by
  intro w row
  have hrow : draftRow ∈ w.store.triggers := by decide +kernel
  have htarget : draftTarget ∈ w.store.targets := by decide +kernel
  have hlater : row ∈ (w.afterAll committed).store.triggers := by decide +kernel
  have hkept : draftTarget ∈ (w.afterAll committed).store.targets := by decide +kernel
  have hrefused : ((Call.deleteTrigger draftRow.id).attempt none w).1 =
      .error (.rejected ("trigger " ++ draftRow.id.text ++ " still has targets")) := by
    rfl
  have hstays : (committed.inits.all fun before =>
      (w.afterAll before).store.hasTrigger draftRow.id &&
        (w.afterAll before).store.hasTarget draftTarget.id) = true := by
    decide +kernel
  have hboth : forall before, before <+: committed ->
      (w.afterAll before).store.hasTrigger draftRow.id = true ∧
        (w.afterAll before).store.hasTarget draftTarget.id = true := by
    intro before hbefore
    have hthere := List.all_eq_true.mp hstays before ((List.mem_inits _ _).mpr hbefore)
    exact Bool.and_eq_true_iff.mp hthere
  rcases rows_over_time [] ⟨Uuid.ofNat, 0⟩ drafted with
    ⟨hintegrity, _, hfailed, hmatures, hsame⟩
  refine ⟨hrow, htarget, hlater, hkept, hintegrity, ?_, ?_, hfailed none _ _ hrefused⟩
  · exact hmatures committed draftRow row hrow hlater rfl fun before h => (hboth before h).1
  · exact fun r hr hid =>
      hsame committed draftTarget r htarget hr hid fun before h => (hboth before h).2

end World
end TelemetryTriggers
