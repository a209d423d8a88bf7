import TelemetryTriggers.Proofs.Saga.Alone
import TelemetryTriggers.Proofs.Services.Removal
import TelemetryTriggers.Proofs.Services.Share

/-!
# Stacks that take back what a creation made

The stack of a creation covers everything that belongs to its trigger: each item
that belongs to it is removed by an action of the stack.  The row of the trigger is
removed last, since the store keeps a row that has targets.  Each action that is
done shortens the stack and keeps this, so the whole stack leaves nothing; an action
that fails still keeps everything else as it was.

Main definitions: `World.CoveredBy`; `World.Residue`, what a creation can leave
behind.  The main statement is `unwind_residue`.
-/

namespace TelemetryTriggers

def Item.removal : Item -> Undo
  | .trigger row => .deleteTrigger row.id
  | .target row => .deleteTarget row.id
  | .topic t => .deleteTopic t.handle
  | .subscription s => .unsubscribe s.handle
  | .rule r => .removeRule r.handle

def rowLast : List Undo -> Prop
  | [] => True
  | .deleteTrigger _ :: undos => undos = []
  | _ :: undos => rowLast undos

theorem rowLast_tail {undo : Undo} {undos : List Undo} (h : rowLast (undo :: undos)) :
    rowLast undos := by
  cases undo with
  | deleteTrigger id =>
      have hnil : undos = [] := h
      rw [hnil]
      trivial
  | _ => exact h

/-!
# What an action does
-/

theorem Call.Clears.perform_eq {c : Call} {w v : World} (h : c.Clears w v) :
    (c.perform w).2 = v := by
  rcases h with ⟨r, hr⟩ | ⟨e, _, hr⟩
  · rw [hr]
  · rw [hr]

namespace Undo

variable {w : World} {item : Item}

theorem holds_of_perform {undo : Undo} (hw : w.Integrity)
    (h : (undo.toCall.perform w).2.Holds item) : w.Holds item := by
  cases undo with
  | deleteTrigger id =>
      simp only [toCall, Call.perform] at h
      cases hs : w.store.deleteTrigger id with
      | error e =>
          rw [hs] at h
          exact h
      | ok s =>
          rw [hs, (Store.deleteTrigger_eq_ok hs).2] at h
          cases item with
          | trigger row => exact List.mem_of_mem_filter h
          | _ => exact h
  | deleteTarget id =>
      rw [toCall, (Call.clears_deleteTarget id w).perform_eq] at h
      cases item with
      | target row => exact List.mem_of_mem_filter h
      | _ => exact h
  | deleteTopic topic =>
      rw [toCall, (Call.clears_deleteTopic hw.broker topic).perform_eq] at h
      cases item with
      | topic t => exact List.mem_of_mem_filter h
      | subscription s => exact List.mem_of_mem_filter h
      | _ => exact h
  | unsubscribe handle =>
      rw [toCall, (Call.clears_unsubscribe handle w).perform_eq] at h
      cases item with
      | subscription s => exact List.mem_of_mem_filter h
      | _ => exact h
  | removeRule handle =>
      rw [toCall, (Call.clears_removeRule handle w).perform_eq] at h
      cases item with
      | rule r => exact List.mem_of_mem_filter h
      | _ => exact h

theorem removal_ne_of_perform {undo : Undo} (hw : w.Integrity)
    (hempty : forall id, undo = .deleteTrigger id ->
      forall r, r ∈ w.store.targets -> r.trigger ≠ id)
    (h : (undo.toCall.perform w).2.Holds item) : item.removal ≠ undo := by
  intro heq
  rcases heq with rfl
  cases item with
  | trigger row =>
      rw [Item.removal, toCall,
        (Call.clears_deleteTrigger (hempty row.id rfl)).perform_eq] at h
      simpa using (List.mem_filter.mp h).2
  | target row =>
      rw [Item.removal, toCall, (Call.clears_deleteTarget row.id w).perform_eq] at h
      simpa using (List.mem_filter.mp h).2
  | topic t =>
      rw [Item.removal, toCall, (Call.clears_deleteTopic hw.broker t.handle).perform_eq] at h
      simpa using (List.mem_filter.mp h).2
  | subscription s =>
      rw [Item.removal, toCall, (Call.clears_unsubscribe s.handle w).perform_eq] at h
      simpa using (List.mem_filter.mp h).2
  | rule r =>
      rw [Item.removal, toCall, (Call.clears_removeRule r.handle w).perform_eq] at h
      simpa using (List.mem_filter.mp h).2

end Undo

/-!
# Stacks that cover what belongs to a trigger
-/

namespace World

def CoveredBy (naming : ResourceNaming) (id : TriggerId) (undos : List Undo)
    (w : World) : Prop :=
  forall item, w.Holds item -> item.owner? naming = some id -> item.removal ∈ undos

variable {naming : ResourceNaming} {id : TriggerId} {undos : List Undo} {undo : Undo}
  {w v : World}

theorem Fresh.coveredBy (h : w.Fresh naming id) (hw : w.Integrity) (undos : List Undo) :
    w.CoveredBy naming id undos :=
  fun _ hitem howner => absurd howner (h.owner_ne hw hitem)

theorem CoveredBy.perform (h : w.CoveredBy naming id (undo :: undos)) (hw : w.Integrity)
    (hlast : rowLast (undo :: undos)) (habout : undo.toCall.About naming id w) :
    (undo.toCall.perform w).2.CoveredBy naming id undos := by
  have hempty : forall other, undo = .deleteTrigger other ->
      forall r, r ∈ w.store.targets -> r.trigger ≠ other := by
    intro other heq r hr hid
    rcases heq with rfl
    have hother : other = id := habout
    have hnil : undos = [] := hlast
    have hmem := h (.target r) hr (congrArg some (hid.trans hother))
    rw [hnil] at hmem
    cases List.mem_singleton.mp hmem
  intro item hitem howner
  have hmem := h item (Undo.holds_of_perform hw hitem) howner
  exact List.mem_of_ne_of_mem (Undo.removal_ne_of_perform hw hempty hitem) hmem

theorem CoveredBy.add {item : Item} (h : w.CoveredBy naming id undos)
    (hadd : forall other, v.Holds other -> w.Holds other ∨ other.removal = item.removal) :
    v.CoveredBy naming id (item.removal :: undos) := by
  intro other hother howner
  rcases hadd other hother with hold | hnew
  · exact List.mem_cons_of_mem _ (h other hold howner)
  · rw [hnew]
    exact List.mem_cons_self

/-!
# What a creation can leave behind
-/

/-- Apart from a draft and the items that belong to it nothing is new.  The rows of
its targets name subscriptions to its topic. -/
structure Residue (naming : ResourceNaming) (id : TriggerId) (w v : World) : Prop where
  same : w.SameOutside naming id v
  draft : forall t, t ∈ v.store.triggers -> t.id = id -> t.isProvisioned = false
  suffixed : forall r, r ∈ v.store.targets -> r.trigger = id ->
    exists u, r.subscription = Broker.subscriptionHandle (naming.topicHandle id) u

theorem Fresh.residue (h : w.Fresh naming id) (hw : w.Integrity) :
    w.Residue naming id w where
  same := .refl naming id w
  draft t ht hid := absurd hid (h.row t ht)
  suffixed r hr hid :=
    absurd (congrArg some hid) (h.owner_ne hw (show w.Holds (.target r) from hr))

theorem Residue.perform_undo (h : w.Residue naming id v) (hv : v.Integrity)
    (habout : undo.toCall.About naming id v) :
    w.Residue naming id (undo.toCall.perform v).2 where
  same := h.same.perform hv habout
  draft t ht hid := by
    have hitem : (undo.toCall.perform v).2.Holds (.trigger t) := ht
    exact h.draft t (Undo.holds_of_perform hv hitem) hid
  suffixed r hr hid := by
    have hitem : (undo.toCall.perform v).2.Holds (.target r) := hr
    exact h.suffixed r (Undo.holds_of_perform hv hitem) hid

theorem Residue.around (h : w.Residue naming id v) (faults : FaultPlan) (locks : LockTable)
    (ids : IdSource) : w.Residue naming id { v with faults, locks, ids } :=
  ⟨⟨h.same.things, h.same.deliveries, h.same.outside⟩, h.draft, h.suffixed⟩

theorem CoveredBy.around (h : w.CoveredBy naming id undos) (faults : FaultPlan)
    (locks : LockTable) (ids : IdSource) :
    World.CoveredBy naming id undos { w with faults, locks, ids } := by
  intro item hitem
  apply h item
  cases item with
  | _ => exact hitem

end World

/-!
# Taking back alone
-/

/-- A creation that started in the first world holds the lock of its trigger, and a
stack of actions is left to take back what it made.  The stack covers all of it if
that is certain. -/
structure Underway (certain : Prop) (naming : ResourceNaming) (id : TriggerId)
    (base : World) (undos : List Undo) (st : Standing) (w : World) : Prop where
  held : st.locks = [id]
  free : base.locks.isHeld id = false
  locks : w.locks = ⟨id :: base.locks.held⟩
  residue : base.Residue naming id w
  about : forall undo, undo ∈ undos -> undo.toCall.About naming id base
  last : rowLast undos
  covered : certain -> w.CoveredBy naming id undos

section Alone

variable {fails : Call -> ServiceError -> Prop} {certain : Prop} {naming : ResourceNaming}
  {id : TriggerId} {base : World} {undos : List Undo}

theorem Underway.around {st : Standing} {w : World}
    (h : Underway certain naming id base undos st w) (drawn : List Uuid)
    (faults : FaultPlan) (ids : IdSource) :
    Underway certain naming id base undos { st with drawn } { w with faults, ids } :=
  ⟨h.held, h.free, h.locks, h.residue.around faults w.locks ids, h.about, h.last,
    fun hcertain => (h.covered hcertain).around faults w.locks ids⟩

theorem Underway.weaken {st : Standing} {w : World}
    (h : Underway True naming id base undos st w) :
    Underway certain naming id base undos st w :=
  ⟨h.held, h.free, h.locks, h.residue, h.about, h.last, fun _ => h.covered trivial⟩

theorem Underway.add {st : Standing} {w v : World}
    (h : Underway True naming id base undos st w) (item : Item)
    (hlocks : v.locks = w.locks) (hresidue : base.Residue naming id v)
    (habout : item.removal.toCall.About naming id base)
    (hlast : rowLast (item.removal :: undos))
    (hadd : forall other, v.Holds other -> w.Holds other ∨ other.removal = item.removal) :
    Underway True naming id base (item.removal :: undos) st v where
  held := h.held
  free := h.free
  locks := hlocks.trans h.locks
  residue := hresidue
  about := by
    intro undo hundo
    rcases List.mem_cons.mp hundo with rfl | hundo
    · exact habout
    · exact h.about undo hundo
  last := hlast
  covered _ := (h.covered trivial).add hadd

theorem underway_stable :
    (Setting.alone fails (base.Residue naming id)).Stable
      (Underway certain naming id base undos) := by
  apply Setting.alone_stable
  exact fun st w p h => h.around st.drawn p w.ids

/-- If the removals cannot fail, a stack that covers what belongs to the trigger
removes all of it. -/
theorem unwind_residue (hspared : certain -> forall undo : Undo, forall e,
      fails undo.toCall e -> False) :
    Saga.Triple (Setting.alone fails (base.Residue naming id))
      (Underway certain naming id base undos) (unwind undos)
      fun _ => Underway certain naming id base [] := by
  apply unwind_triple (P := Underway certain naming id base)
  · exact fun undos => underway_stable
  · exact fun undo undos st w h _ => h.residue
  -- an item whose removal failed is left, which cannot be if all is covered
  · intro undo undos st w e h _ he
    exact ⟨h.held, h.free, h.locks, h.residue,
      fun u hu => h.about u (List.mem_cons_of_mem undo hu), rowLast_tail h.last,
      fun hcertain => (hspared hcertain undo e he).elim⟩
  · intro undo undos st w h hw
    -- the item is gone, so the rest of the stack covers what is left
    have habout : undo.toCall.About naming id w :=
      h.residue.same.about (h.about undo List.mem_cons_self)
    exact ⟨h.held, h.free, (undo.toCall.perform_locks w).trans h.locks,
      h.residue.perform_undo hw habout,
      fun u hu => h.about u (List.mem_cons_of_mem undo hu), rowLast_tail h.last,
      fun hcertain => (h.covered hcertain).perform hw h.last habout⟩

end Alone
end TelemetryTriggers
