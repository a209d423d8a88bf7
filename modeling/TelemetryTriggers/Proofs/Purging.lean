import TelemetryTriggers.Proofs.Convergence
import TelemetryTriggers.Proofs.Lifecycle.Create
import TelemetryTriggers.Proofs.Saga.Spared

/-!
# Sweeps that cannot unsubscribe

A sweep removes the subscription of a target before the row of the target, and the
rows of its targets before a draft.  When a subscription cannot be removed, the purge of
that draft stops there: the draft stays with the row of that target and of those after it.
The other drafts, the rules and the topics are swept all the same.

Main definitions: `unsubscribing`, the faults that only unsubscribing meets;
`World.PurgedBut`, what the purge of drafts leaves; `World.SweptBut`, what a sweep leaves
and reports.  The main statement is `World.Reachable.sweep_but`.
-/

namespace TelemetryTriggers

/-!
# One draft
-/

abbrev unsubscribing : Call -> ServiceError -> Prop :=
  fun c _ => c.operation = "broker.unsubscribe"

theorem spared_of_ne {c : Call} (h : c.operation ≠ "broker.unsubscribe") :
    forall e, ¬unsubscribing c e :=
  fun _ hfails => h hfails

/-- The store where the triggers that are chosen lost their rows, except that some of
them were left with the last rows of their targets. -/
structure Store.PurgedBut (chosen : TriggerId -> Bool) (left : List TriggerId)
    (s s' : Store) : Prop where
  triggers : s'.triggers = s.triggers.filter fun t => !chosen t.id || left.contains t.id
  targetsKept : forall id, chosen id = false -> s'.targetsOf id = s.targetsOf id
  targetsPurged : forall id, chosen id = true -> id ∉ left -> s'.targetsOf id = []
  targetsLeft : forall id, id ∈ left -> chosen id = true ∧ s'.targetsOf id ≠ [] ∧
    s'.targetsOf id <:+ s.targetsOf id
  things : s'.things = s.things

/-- The world where the triggers that are chosen lost their rows but for what was left,
and some subscriptions are gone. -/
structure World.PurgedBut (chosen : TriggerId -> Bool) (left : List TriggerId)
    (w v : World) : Prop where
  store : w.store.PurgedBut chosen left v.store
  topics : v.broker.topics = w.broker.topics
  deliveries : v.broker.deliveries = w.broker.deliveries
  engine : v.engine = w.engine
  locks : v.locks = w.locks

def Store.withoutTargets (gone : List Target) (s : Store) : Store :=
  { s with targets := s.targets.filter fun r => !gone.any (·.id == r.id) }

section OneDraft

variable {deadline : Nat} {w : World}

theorem run_unsubscribe (hfaults : w.faults.Within unsubscribing deadline)
    (handle : SubscriptionHandle) :
    exists result subscriptions p, p.Within unsubscribing deadline ∧
      (Operation.ensureGone (.unsubscribe handle)).run.run deadline w =
        (result, { w with broker := { w.broker with subscriptions }, faults := p }) ∧
      (result = .ok () ∨ result ≠ .ok () ∧
        0 < (Operation.ensureGone (.unsubscribe handle)).run.harms deadline w) := by
  have hworn := hfaults.check "broker.unsubscribe"
  unfold Operation.ensureGone
  by_cases hworks : (Call.unsubscribe handle).Works deadline w
  · have hattempt := Call.attempt_of_works hworks
    refine ⟨.ok (), w.broker.subscriptions.filter (·.handle != handle), _, hworn, ?_,
      Or.inl rfl⟩
    rcases Call.clears_unsubscribe handle w with ⟨r, hr⟩ | ⟨e, he, hr⟩
    · rw [hr] at hattempt
      simp only [ExceptT.run_mk, Saga.run, hattempt]
      rfl
    · rw [hr] at hattempt
      simp only [ExceptT.run_mk, Saga.run, hattempt, he, if_true]
      rfl
  · rcases Saga.attempt_of_not_works hfaults hworks with ⟨e, _, hattempt⟩
    cases he : e.isAbsence with
    | true =>
        refine ⟨.ok (), w.broker.subscriptions, _, hworn, ?_, Or.inl rfl⟩
        simp only [ExceptT.run_mk, Saga.run, hattempt, he, if_true]
        rfl
    | false =>
        refine ⟨.error ((Call.unsubscribe handle).service.failure e),
          w.broker.subscriptions, _, hworn, ?_, Or.inr ⟨by simp, ?_⟩⟩
        · simp only [ExceptT.run_mk, Saga.run, hattempt, he, Bool.false_eq_true, if_false]
          rfl
        · simp only [ExceptT.run_mk, Saga.harms, if_neg hworks]
          omega

theorem run_purgeTargets (hfaults : w.faults.Within unsubscribing deadline)
    (rows : List Target) :
    exists result gone left subscriptions p, p.Within unsubscribing deadline ∧
      rows = gone ++ left ∧
      (purgeTargets rows).run.run deadline w =
        (result, { w with
          store := w.store.withoutTargets gone
          broker := { w.broker with subscriptions }
          faults := p }) ∧
      (result = .ok () ∧ left = [] ∨ result ≠ .ok () ∧ left ≠ [] ∧
        0 < (purgeTargets rows).run.harms deadline w) := by
  induction rows generalizing w with
  | nil =>
      refine ⟨.ok (), [], [], w.broker.subscriptions, w.faults, hfaults, rfl, ?_,
        Or.inl ⟨rfl, rfl⟩⟩
      simp only [purgeTargets, Store.withoutTargets, List.any_nil, Bool.not_false,
        List.filter_true]
      rfl
  | cons row rows ih =>
      rcases run_unsubscribe hfaults row.subscription with
        ⟨result, subscriptions, p, hp, hrun, hresult⟩
      rw [purgeTargets]
      cases result with
      | error e =>
          -- this row and all after it stay
          have hpos := (hresult.resolve_left (by simp)).2
          refine ⟨.error e, [], row :: rows, subscriptions, p, hp, rfl, ?_,
            Or.inr ⟨by simp, List.cons_ne_nil _ _, ?_⟩⟩
          · simp only [Store.withoutTargets, List.any_nil, Bool.not_false, List.filter_true]
            exact Operation.run_bind_of_error hrun
          · exact Nat.lt_of_lt_of_le hpos (Operation.harms_le_bind _ _ w)
      | ok _ =>
          have hspared : forall e, ¬unsubscribing (.deleteTarget row.id) e :=
            spared_of_ne (by simp [Call.operation])
          rcases Operation.run_of_spared (Operation.Only.ensureGone hspared)
            (w := { w with broker := { w.broker with subscriptions }, faults := p }) hp
            (Operation.play_ensureGone (Call.clears_deleteTarget row.id _)) with
            ⟨q, hq, hdelete⟩
          rcases ih (w := { w with
            store := { w.store with targets := w.store.targets.filter (·.id != row.id) }
            broker := { w.broker with subscriptions }
            faults := q }) hq with
            ⟨result, gone, left, subscriptions', q', hq', rfl, hrest, hend⟩
          refine ⟨result, row :: gone, left, subscriptions', q', hq', rfl, ?_, ?_⟩
          · rw [Operation.run_bind_of_ok hrun, Operation.run_bind_of_ok hdelete, hrest]
            simp only [Store.withoutTargets, List.filter_filter, List.any_cons, Bool.not_or, bne,
              Bool.and_comm, Bool.beq_comm]
          · refine hend.imp id fun hfailed => ⟨hfailed.1, hfailed.2.1, ?_⟩
            rw [Operation.harms_bind_of_ok hrun, Operation.harms_bind_of_ok hdelete]
            exact Nat.lt_of_lt_of_le hfailed.2.2
              (Nat.le_trans (Nat.le_add_left _ _) (Nat.le_add_left _ _))

namespace Store.Integrity

variable {s : Store} {id : TriggerId} {gone left : List Target}

theorem targetsOf_withoutTargets (h : s.Integrity) (hrows : s.targetsOf id = gone ++ left) :
    (s.withoutTargets gone).targetsOf id = left := by
  have hids : ((gone ++ left).map (·.id)).Nodup := hrows ▸ nodup_map_filter h.target_ids _
  rw [Store.targetsOf, withoutTargets, List.filter_filter,
    List.filter_congr fun r _ => Bool.and_comm _ _, ← List.filter_filter]
  rw [Store.targetsOf] at hrows
  rw [hrows, List.filter_append]
  have hgone : (gone.filter fun r => !gone.any (·.id == r.id)) = [] := by
    rw [List.filter_eq_nil_iff]
    intro r hr
    have hany : gone.any (·.id == r.id) = true :=
      List.any_eq_true.mpr ⟨r, hr, beq_self_eq_true _⟩
    rw [hany]
    exact Bool.false_ne_true
  have hleft : (left.filter fun r => !gone.any (·.id == r.id)) = left := by
    rw [List.filter_eq_self]
    intro r hr
    rw [Bool.not_eq_true', List.any_eq_false]
    intro q hq hid
    rw [List.map_append, List.nodup_append] at hids
    exact hids.2.2 _ (List.mem_map_of_mem hq) _ (List.mem_map_of_mem hr) (eq_of_beq hid)
  rw [hgone, hleft, List.nil_append]

theorem targetsOf_withoutTargets_of_ne (h : s.Integrity)
    (hrows : s.targetsOf id = gone ++ left) {other : TriggerId} (hother : other ≠ id) :
    (s.withoutTargets gone).targetsOf other = s.targetsOf other := by
  rw [Store.targetsOf, withoutTargets, List.filter_filter, Store.targetsOf]
  apply List.filter_congr
  intro r hr
  cases htrigger : r.trigger == other with
  | false => rfl
  | true =>
      rw [Bool.true_and, Bool.not_eq_true', List.any_eq_false]
      intro q hq hid
      have hmem : q ∈ s.targetsOf id := hrows ▸ List.mem_append_left left hq
      rcases Store.mem_targetsOf.mp hmem with ⟨hqs, hqid⟩
      rw [List.inj_on_of_nodup_map h.target_ids hqs hr (eq_of_beq hid)] at hqid
      exact hother ((eq_of_beq htrigger).symm.trans hqid)

theorem purgedBut_nothing (h : s.Integrity) (hrows : s.targetsOf id = gone ++ []) :
    s.PurgedBut (· == id) []
      { s.withoutTargets gone with triggers := s.triggers.filter (·.id != id) } where
  triggers := by
    simp only [List.contains_nil, Bool.or_false]
    rfl
  targetsKept := fun _ hother => h.targetsOf_withoutTargets_of_ne hrows (ne_of_beq_false hother)
  targetsPurged := by
    intro other hother _
    rw [eq_of_beq hother]
    exact h.targetsOf_withoutTargets hrows
  targetsLeft := fun _ hmem => absurd hmem List.not_mem_nil
  things := rfl

theorem purgedBut_last (h : s.Integrity) (hrows : s.targetsOf id = gone ++ left)
    (hne : left ≠ []) : s.PurgedBut (· == id) [id] (s.withoutTargets gone) where
  triggers := by
    refine (List.filter_eq_self.mpr ?_).symm
    intro t _
    rw [List.contains_cons, List.contains_nil, Bool.or_false, Bool.not_or_self]
  targetsKept := fun _ hother => h.targetsOf_withoutTargets_of_ne hrows (ne_of_beq_false hother)
  targetsPurged := fun _ hother hnew =>
    absurd (List.mem_singleton.mpr (eq_of_beq hother)) hnew
  targetsLeft := by
    intro other hother
    rw [List.mem_singleton.mp hother, h.targetsOf_withoutTargets hrows, hrows]
    exact ⟨beq_self_eq_true _, hne, List.suffix_append gone left⟩
  things := rfl

end Store.Integrity

theorem run_purgeDraft (hw : w.Integrity) (hfaults : w.faults.Within unsubscribing deadline)
    (id : TriggerId) :
    exists result left v, v.faults.Within unsubscribing deadline ∧
      (purgeDraft id).run.run deadline w = (result, v) ∧ w.PurgedBut (· == id) left v ∧
      (result = .ok () ∧ left = [] ∨ result ≠ .ok () ∧ left = [id] ∧
        0 < (purgeDraft id).run.harms deadline w) := by
  have hlisting : forall e, ¬unsubscribing (.listTargets id) e :=
    spared_of_ne (by simp [Call.operation])
  have hdeletion : forall e, ¬unsubscribing (.deleteTrigger id) e :=
    spared_of_ne (by simp [Call.operation])
  rcases Operation.run_of_spared (Operation.Only.ask hlisting) hfaults
    (Operation.play_ask_of_ok rfl) with ⟨p, hp, hlist⟩
  rcases run_purgeTargets (w := { w with faults := p }) hp (w.store.targetsOf id) with
    ⟨result, gone, left, subscriptions, q, hq, hrows, hpurge, hend⟩
  rcases hend with ⟨rfl, rfl⟩ | ⟨hfailed, hne, hpos⟩
  · have hnone : forall r, r ∈ (w.store.withoutTargets gone).targets -> r.trigger ≠ id := by
      intro r hr htrigger
      have hleft := hw.store.targetsOf_withoutTargets hrows
      exact List.filter_eq_nil_iff.mp hleft r hr (beq_iff_eq.mpr htrigger)
    rcases Operation.run_of_spared (Operation.Only.ensureGone hdeletion)
      (w := { w with
        store := w.store.withoutTargets gone
        broker := { w.broker with subscriptions }
        faults := q }) hq
      (Operation.play_ensureGone (Call.clears_deleteTrigger hnone)) with ⟨q', hq', hdelete⟩
    have hrun : (purgeDraft id).run.run deadline w = _ :=
      (Operation.run_bind_of_ok hlist).trans ((Operation.run_bind_of_ok hpurge).trans hdelete)
    exact ⟨.ok (), [], _, hq', hrun, ⟨hw.store.purgedBut_nothing hrows, rfl, rfl, rfl, rfl⟩,
      Or.inl ⟨rfl, rfl⟩⟩
  · cases result with
    | ok _ => exact absurd rfl hfailed
    | error e =>
        have hrun : (purgeDraft id).run.run deadline w = _ :=
          (Operation.run_bind_of_ok hlist).trans (Operation.run_bind_of_error hpurge)
        refine ⟨.error e, [id], _, hq, hrun,
          ⟨hw.store.purgedBut_last hrows hne, rfl, rfl, rfl, rfl⟩, Or.inr ⟨hfailed, rfl, ?_⟩⟩
        rw [purgeDraft, Operation.harms_bind_of_ok hlist]
        exact Nat.lt_of_lt_of_le hpos (Nat.le_trans (Operation.harms_le_bind _ _ _)
          (Nat.le_add_left _ _))

end OneDraft

/-!
# One draft after the other
-/

namespace World.PurgedBut

variable {p q : TriggerId -> Bool} {left rest : List TriggerId} {u v w : World}

theorem refl (w : World) : w.PurgedBut (fun _ => false) [] w where
  store := {
    triggers := by simp
    targetsKept := fun _ _ => rfl
    targetsPurged := fun _ h _ => absurd h Bool.false_ne_true
    targetsLeft := fun _ h => absurd h List.not_mem_nil
    things := rfl }
  topics := rfl
  deliveries := rfl
  engine := rfl
  locks := rfl

theorem contains_left (h : w.PurgedBut p left v) {id : TriggerId} (hid : p id = false) :
    left.contains id = false := by
  rw [List.contains_eq_mem, decide_eq_false_iff_not]
  intro hmem
  rw [(h.store.targetsLeft id hmem).1] at hid
  cases hid

theorem trans (h : w.PurgedBut p left u) (h' : u.PurgedBut q rest v)
    (hdistinct : forall id, p id = true -> q id = false) :
    w.PurgedBut (fun id => p id || q id) (left ++ rest) v := by
  have hdistinct' : forall id, q id = true -> p id = false := by
    intro id hq
    cases hp : p id with
    | false => rfl
    | true => exact absurd hq (by rw [hdistinct id hp]; exact Bool.false_ne_true)
  constructor
  case store =>
    constructor
    case triggers =>
      rw [h'.store.triggers, h.store.triggers, List.filter_filter]
      apply List.filter_congr
      intro t _
      rw [List.contains_append]
      cases hp : p t.id with
      | true => rw [h'.contains_left (hdistinct t.id hp), hdistinct t.id hp]; simp
      | false => rw [h.contains_left hp]; simp
    case targetsKept =>
      intro id hid
      rw [Bool.or_eq_false_iff] at hid
      rw [h'.store.targetsKept id hid.2, h.store.targetsKept id hid.1]
    case targetsPurged =>
      intro id hid hnew
      rw [List.mem_append, not_or] at hnew
      cases hp : p id with
      | true =>
          rw [h'.store.targetsKept id (hdistinct id hp)]
          exact h.store.targetsPurged id hp hnew.1
      | false =>
          rw [hp, Bool.false_or] at hid
          exact h'.store.targetsPurged id hid hnew.2
    case targetsLeft =>
      intro id hmem
      rcases List.mem_append.mp hmem with hmem | hmem
      · have hleft := h.store.targetsLeft id hmem
        rw [h'.store.targetsKept id (hdistinct id hleft.1), hleft.1]
        exact ⟨rfl, hleft.2⟩
      · have hrest := h'.store.targetsLeft id hmem
        rw [h.store.targetsKept id (hdistinct' id hrest.1)] at hrest
        rw [hrest.1, Bool.or_true]
        exact ⟨rfl, hrest.2⟩
    case things => exact h'.store.things.trans h.store.things
  case topics => exact h'.topics.trans h.topics
  case deliveries => exact h'.deliveries.trans h.deliveries
  case engine => exact h'.engine.trans h.engine
  case locks => exact h'.locks.trans h.locks

theorem trigger?_eq (h : w.PurgedBut p left v) {id : TriggerId} (hid : p id = false) :
    v.store.trigger? id = w.store.trigger? id := by
  rw [Store.trigger?, Store.trigger?, h.store.triggers, List.find?_filter]
  apply congrFun
  apply congrArg
  funext t
  cases ht : t.id == id with
  | false => simp
  | true => simp [eq_of_beq ht, hid]

theorem visit_eq (h : w.PurgedBut p left v) {id : TriggerId} (hid : p id = false) :
    v.visit id = w.visit id := by
  rw [World.visit, World.visit, Store.isCommitted, Store.isCommitted, h.trigger?_eq hid, h.locks]

end World.PurgedBut

section Drafts

variable {deadline : Nat} {w : World}

theorem run_visitDraft (hw : w.Integrity) (hfaults : w.faults.Within unsubscribing deadline)
    {t : Trigger} (htrigger : w.store.trigger? t.id = some t) (hdraft : t.isProvisioned = false) :
    exists visit left v, v.faults.Within unsubscribing deadline ∧
      (Candidate.visit ⟨t.id, purgeDraft t.id⟩).run deadline w = (visit, v) ∧
      w.PurgedBut (fun id => !w.locks.isHeld t.id && id == t.id) left v ∧
      (visit = w.visit t.id ∧ left = [] ∨ visit = .failed ∧ w.visit t.id = .removed ∧
        left = [t.id] ∧
        0 < (Candidate.visit ⟨t.id, purgeDraft t.id⟩).harms deadline w) := by
  have hlookup : forall e, ¬unsubscribing (.getTrigger t.id) e :=
    spared_of_ne (by simp [Call.operation])
  have hcommitted : w.store.isCommitted t.id = false := by
    rw [Store.isCommitted, htrigger]
    exact hdraft
  unfold Candidate.visit World.visit
  cases hlocks : w.locks.acquire? t.id with
  | none =>
      have hheld := LockTable.acquire?_eq_none.mp hlocks
      refine ⟨.busy, [], w, hfaults, ?_, ?_, Or.inl ⟨?_, rfl⟩⟩
      · simp only [Saga.run, hlocks]
        rfl
      · simp only [hheld, Bool.not_true, Bool.false_and]
        exact .refl w
      · rw [hheld]
        rfl
  | some locks =>
      rcases LockTable.acquire?_eq_some hlocks with ⟨hfree, rfl⟩
      rcases Call.attempt_of_spared hlookup (w := { w with locks := ⟨t.id :: w.locks.held⟩ })
        hfaults with ⟨p, hp, hattempt⟩
      have hfound : Call.perform (.getTrigger t.id) { w with locks := ⟨t.id :: w.locks.held⟩ } =
          (.ok (some t), { w with locks := ⟨t.id :: w.locks.held⟩ }) :=
        Prod.ext (congrArg Except.ok htrigger) rfl
      rw [hfound] at hattempt
      rcases run_purgeDraft
        (w := { w with locks := ⟨t.id :: w.locks.held⟩, faults := p })
        ⟨hw.store, hw.broker, hw.engine⟩ hp t.id with ⟨result, left, v, hv, hrun, hpurged, hend⟩
      have hback : v.locks.release t.id = w.locks := by
        rw [hpurged.locks]
        exact LockTable.release_cons hfree
      refine ⟨if result = .ok () then .removed else .failed, left, { v with locks := w.locks },
        hv, ?_, ?_, ?_⟩
      · simp only [Saga.run, hlocks, hattempt, if_true, Option.any_some, hdraft,
          Bool.false_eq_true, if_false, Saga.run_bind, hrun]
        cases result with
        | ok _ => simp only [Saga.run, hback, if_true]
        | error e =>
            simp only [Saga.run, hback]
            rfl
      · simp only [hfree, Bool.not_false, Bool.true_and]
        exact ⟨hpurged.store, hpurged.topics, hpurged.deliveries, hpurged.engine, rfl⟩
      · rw [hfree, hcommitted]
        refine hend.imp (fun hdone => ⟨if_pos hdone.1, hdone.2⟩)
          fun hfailed => ⟨if_neg hfailed.1, rfl, hfailed.2.1, ?_⟩
        simp only [Saga.harms, hlocks, hattempt, if_true, Option.any_some, hdraft,
          Bool.false_eq_true, if_false, Saga.harms_bind]
        exact Nat.lt_of_lt_of_le hfailed.2.2
          (Nat.le_trans (Nat.le_add_right _ _) (Nat.le_add_left _ _))

theorem run_visitAll_cons (c : Candidate) (cs : List Candidate) (w : World) :
    (visitAll (c :: cs)).run deadline w =
      ((c.visit.run deadline w).1 :: ((visitAll cs).run deadline (c.visit.run deadline w).2).1,
        ((visitAll cs).run deadline (c.visit.run deadline w).2).2) := by
  show (c.visit.bind fun visit =>
    (visitAll cs).bind fun visits => .done (visit :: visits)).run deadline w = _
  rw [Saga.run_bind, Saga.run_bind]
  rfl

theorem harms_visitAll_cons (c : Candidate) (cs : List Candidate) (w : World) :
    (visitAll (c :: cs)).harms deadline w =
      c.visit.harms deadline w +
        (visitAll cs).harms deadline (c.visit.run deadline w).2 := by
  show (c.visit.bind fun visit =>
    (visitAll cs).bind fun visits => .done (visit :: visits)).harms deadline w = _
  rw [Saga.harms_bind, Saga.harms_bind]
  rfl

structure VisitsBut (left : List TriggerId) (w : World) (rows : List Trigger)
    (visits : List Visit) : Prop where
  removed : visits.count .removed + left.length =
    (rows.map fun t => w.visit t.id).count .removed
  busy : visits.count .busy = (rows.map fun t => w.visit t.id).count .busy
  failed : visits.count .failed = left.length
  left : left.Sublist (rows.map (·.id))

theorem VisitsBut.congr {left : List TriggerId} {rows : List Trigger} {visits : List Visit}
    {u : World} (h : VisitsBut left u rows visits)
    (hvisit : forall t, t ∈ rows -> u.visit t.id = w.visit t.id) :
    VisitsBut left w rows visits := by
  have hmap : (rows.map fun t => u.visit t.id) = rows.map fun t => w.visit t.id :=
    List.map_congr_left hvisit
  exact ⟨hmap ▸ h.removed, hmap ▸ h.busy, h.failed, h.left⟩

theorem World.visit_ne_failed (w : World) {id : TriggerId} : w.visit id ≠ .failed := by
  unfold World.visit
  split
  · decide
  · split
    · decide
    · decide

theorem VisitsBut.kept {left : List TriggerId} {rows : List Trigger} {visits : List Visit}
    (h : VisitsBut left w rows visits) (t : Trigger) :
    VisitsBut left w (t :: rows) (w.visit t.id :: visits) where
  removed := by
    rw [List.map_cons, List.count_cons, List.count_cons, ← h.removed]
    omega
  busy := by rw [List.map_cons, List.count_cons, List.count_cons, h.busy]
  failed := by rw [List.count_cons_of_ne w.visit_ne_failed, h.failed]
  left := h.left.cons t.id

theorem VisitsBut.leave {left : List TriggerId} {rows : List Trigger} {visits : List Visit}
    (h : VisitsBut left w rows visits) {t : Trigger} (hvisit : w.visit t.id = .removed) :
    VisitsBut (t.id :: left) w (t :: rows) (.failed :: visits) where
  removed := by
    rw [List.map_cons, hvisit, List.count_cons_self, List.count_cons_of_ne (by decide),
      ← h.removed, List.length_cons]
    omega
  busy := by
    rw [List.map_cons, hvisit, List.count_cons_of_ne (by decide),
      List.count_cons_of_ne (by decide), h.busy]
  failed := by rw [List.count_cons_self, h.failed, List.length_cons]
  left := h.left.cons_cons t.id

theorem run_visitDrafts (hw : w.Reachable) (hfaults : w.faults.Within unsubscribing deadline)
    {rows : List Trigger} (hids : (rows.map (·.id)).Nodup)
    (hdrafts : forall t, t ∈ rows ->
      w.store.trigger? t.id = some t ∧ t.isProvisioned = false) :
    exists visits left v, v.Reachable ∧ v.faults.Within unsubscribing deadline ∧
      (visitAll (rows.map fun t => ⟨t.id, purgeDraft t.id⟩)).run deadline w = (visits, v) ∧
      w.PurgedBut (fun id => rows.any fun t => !w.locks.isHeld t.id && id == t.id) left v ∧
      VisitsBut left w rows visits ∧
      left.length ≤
        (visitAll (rows.map fun t => ⟨t.id, purgeDraft t.id⟩)).harms deadline w := by
  induction rows generalizing w with
  | nil =>
      exact ⟨[], [], w, hw, hfaults, rfl, .refl w, ⟨rfl, rfl, rfl, .slnil⟩, Nat.zero_le _⟩
  | cons t rows ih =>
      rcases List.nodup_cons.mp hids with ⟨hnew, hids⟩
      rcases hdrafts t List.mem_cons_self with ⟨htrigger, hdraft⟩
      rcases run_visitDraft hw.integrity hfaults htrigger hdraft with
        ⟨visit, first, u, hu, hrun, hpurged, hfirst⟩
      have hother : forall r, r ∈ rows ->
          (!w.locks.isHeld t.id && r.id == t.id) = false := by
        intro r hr
        rw [Bool.and_eq_false_iff, beq_eq_false_iff_ne]
        exact Or.inr fun hid => hnew (List.mem_map.mpr ⟨r, hr, hid⟩)
      have hureach : u.Reachable := by
        have hreach := Saga.reachable_run deadline
          (Candidate.visit ⟨t.id, purgeDraft t.id⟩) hw
        rw [hrun] at hreach
        exact hreach
      rcases ih hureach hu hids (fun r hr => by
        rw [hpurged.trigger?_eq (hother r hr)]
        exact hdrafts r (List.mem_cons_of_mem t hr)) with
        ⟨visits, rest, v, hvreach, hv, hruns, hpurgeds, hvisits, hharms⟩
      rw [hpurged.locks] at hpurgeds
      -- what becomes of the other drafts does not depend on this one
      have hvisits : VisitsBut rest w rows visits :=
        hvisits.congr fun r hr => hpurged.visit_eq (hother r hr)
      refine ⟨visit :: visits, first ++ rest, v, hvreach, hv, ?_,
        hpurged.trans hpurgeds ?_, ?_, ?_⟩
      · rw [List.map_cons, run_visitAll_cons, hrun, hruns]
      · intro id hid
        rw [Bool.and_eq_true, beq_iff_eq] at hid
        rw [List.any_eq_false]
        intro r hr hany
        rw [Bool.and_eq_true, beq_iff_eq, hid.2] at hany
        exact hnew (List.mem_map.mpr ⟨r, hr, hany.2.symm⟩)
      · rcases hfirst with ⟨rfl, rfl⟩ | ⟨rfl, hremoved, rfl, _⟩
        · exact hvisits.kept t
        · exact hvisits.leave hremoved
      · rw [List.map_cons, harms_visitAll_cons, hrun, List.length_append]
        rcases hfirst with ⟨_, rfl⟩ | ⟨_, _, rfl, hpos⟩
        · exact Nat.le_trans (Nat.le_of_eq (Nat.zero_add _))
            (Nat.le_trans hharms (Nat.le_add_left _ _))
        · exact Nat.add_le_add hpos hharms

end Drafts

/-!
# The drafts of a sweep
-/

namespace World.PurgedBut

variable {p q : TriggerId -> Bool} {left : List TriggerId} {v w : World}

theorem congr (h : w.PurgedBut p left v) (hw : w.Integrity) (hv : v.Integrity)
    (hpq : forall t, t ∈ w.store.triggers -> p t.id = q t.id) : w.PurgedBut q left v := by
  have hrow : forall id, p id = q id ∨
      v.store.targetsOf id = [] ∧ w.store.targetsOf id = [] := by
    intro id
    by_cases hmem : exists t, t ∈ w.store.triggers ∧ t.id = id
    · rcases hmem with ⟨t, ht, rfl⟩
      exact Or.inl (hpq t ht)
    · refine Or.inr ⟨hv.store.targetsOf_of_absent ?_, hw.store.targetsOf_of_absent ?_⟩
      · intro t ht hid
        rw [h.store.triggers] at ht
        exact hmem ⟨t, List.mem_of_mem_filter ht, hid⟩
      · exact fun t ht hid => hmem ⟨t, ht, hid⟩
  refine ⟨⟨?_, ?_, ?_, ?_, h.store.things⟩, h.topics, h.deliveries, h.engine, h.locks⟩
  · rw [h.store.triggers]
    apply List.filter_congr
    intro t ht
    rw [hpq t ht]
  · intro id hid
    rcases hrow id with heq | ⟨hv, hw⟩
    · exact h.store.targetsKept id (heq.trans hid)
    · rw [hv, hw]
  · intro id hid hnew
    rcases hrow id with heq | ⟨hv, _⟩
    · exact h.store.targetsPurged id (heq.trans hid) hnew
    · exact hv
  · intro id hmem
    have hleft := h.store.targetsLeft id hmem
    rcases hrow id with heq | ⟨hv, _⟩
    · exact ⟨heq ▸ hleft.1, hleft.2⟩
    · exact absurd hv hleft.2.1

theorem isCommitted_eq (h : w.PurgedBut w.abandoned left v) (hw : w.Integrity)
    (hv : v.Integrity) : v.store.isCommitted = w.store.isCommitted := by
  funext id
  rw [Bool.eq_iff_iff, hv.store.isCommitted_iff, hw.store.isCommitted_iff]
  constructor
  · rintro ⟨t, ht, hid, hprovisioned⟩
    rw [h.store.triggers] at ht
    exact ⟨t, List.mem_of_mem_filter ht, hid, hprovisioned⟩
  · rintro ⟨t, ht, hid, hprovisioned⟩
    have hkept : w.abandoned t.id = false := by
      rw [abandoned, hw.store.isCommitted_row ht, hprovisioned, Bool.not_true, Bool.and_false]
    refine ⟨t, ?_, hid, hprovisioned⟩
    rw [h.store.triggers]
    exact List.mem_filter.mpr ⟨ht, by rw [hkept]; rfl⟩

theorem visits_eq (h : w.PurgedBut w.abandoned left v) (hw : w.Integrity)
    (hv : v.Integrity) : v.visit = w.visit := by
  funext id
  rw [visit, visit, h.isCommitted_eq hw hv, h.locks]

theorem abandoned_eq (h : w.PurgedBut w.abandoned left v) (hw : w.Integrity)
    (hv : v.Integrity) : v.abandoned = w.abandoned := by
  funext id
  rw [abandoned, abandoned, h.isCommitted_eq hw hv, h.locks]

theorem ruleVisits_eq (h : w.PurgedBut w.abandoned left v) (hw : w.Integrity)
    (hv : v.Integrity) (naming : ResourceNaming) :
    ((v.ruleCandidates naming).map fun c => v.visit c.1) =
      (w.ruleCandidates naming).map fun c => w.visit c.1 := by
  simp only [ruleCandidates, strays, h.isCommitted_eq hw hv, h.visits_eq hw hv, h.engine]

theorem topicVisits_eq (h : w.PurgedBut w.abandoned left v) (hw : w.Integrity)
    (hv : v.Integrity) (naming : ResourceNaming) :
    ((v.topicCandidates naming).map fun c => v.visit c.1) =
      (w.topicCandidates naming).map fun c => w.visit c.1 := by
  simp only [topicCandidates, strays, h.isCommitted_eq hw hv, h.visits_eq hw hv,
    Broker.topicsByName, h.topics]

end World.PurgedBut

section Sweep

variable {deadline : Nat} {w : World}

theorem run_draftVisits (hw : w.Reachable) (hfaults : w.faults.Within unsubscribing deadline) :
    exists visits left v, v.Reachable ∧ v.faults.Within unsubscribing deadline ∧
      (visitAll (w.store.triggers.filterMap Candidate.ofRow?)).run deadline w = (visits, v) ∧
      w.PurgedBut w.abandoned left v ∧ VisitsBut left w w.draftCandidates visits ∧
      left.length ≤
        (visitAll (w.store.triggers.filterMap Candidate.ofRow?)).harms deadline w := by
  have hstore := hw.integrity.store
  have hdrafts : forall t, t ∈ w.draftCandidates ->
      w.store.trigger? t.id = some t ∧ t.isProvisioned = false := by
    intro t ht
    rcases List.mem_filter.mp ht with ⟨ht, hdraft⟩
    exact ⟨hstore.trigger?_eq_some ht, by simpa using hdraft⟩
  rcases run_visitDrafts hw hfaults (nodup_map_filter hstore.trigger_ids _) hdrafts with
    ⟨visits, left, v, hv, hworn, hrun, hpurged, hvisits, hharms⟩
  rw [filterMap_ofRow?]
  refine ⟨visits, left, v, hv, hworn, hrun, ?_, hvisits, hharms⟩
  apply hpurged.congr hw.integrity hv.integrity
  intro t ht
  rw [Bool.eq_iff_iff, List.any_eq_true, World.abandoned, hstore.isCommitted_row ht]
  constructor
  · rintro ⟨u, hu, hany⟩
    rcases List.mem_filter.mp hu with ⟨hu, hdraft⟩
    rw [Bool.and_eq_true, beq_iff_eq] at hany
    rw [List.inj_on_of_nodup_map hstore.trigger_ids ht hu hany.2, hany.1, hdraft]
    rfl
  · intro habandoned
    rw [Bool.and_eq_true] at habandoned
    refine ⟨t, List.mem_filter.mpr ⟨ht, habandoned.2⟩, ?_⟩
    rw [habandoned.1, beq_self_eq_true]
    rfl

/-!
# Rules and topics
-/

theorem spared_ruleVisits (naming : ResourceNaming) (provisioned : List TriggerId)
    (rules : List RuleInfo) :
    (visitAll (rules.filterMap (Candidate.ofRule? naming provisioned))).Only
      fun c => forall e, ¬unsubscribing c e := by
  apply only_visitAll
  · exact fun id => spared_of_ne (by simp [Call.operation])
  · intro c hc
    rcases List.mem_filterMap.mp hc with ⟨rule, _, hrule⟩
    unfold Candidate.ofRule? at hrule
    split at hrule
    · cases hrule
    · split at hrule
      · cases hrule
      · cases hrule
        exact .ensureGone (spared_of_ne (by simp [Call.operation]))

theorem spared_topicVisits (naming : ResourceNaming) (provisioned : List TriggerId)
    (topics : List Topic) :
    (visitAll (topics.filterMap (Candidate.ofTopic? naming provisioned))).Only
      fun c => forall e, ¬unsubscribing c e := by
  apply only_visitAll
  · exact fun id => spared_of_ne (by simp [Call.operation])
  · intro c hc
    rcases List.mem_filterMap.mp hc with ⟨topic, _, htopic⟩
    unfold Candidate.ofTopic? at htopic
    split at htopic
    · cases htopic
    · split at htopic
      · cases htopic
      · cases htopic
        exact .ensureGone (spared_of_ne (by simp [Call.operation]))

section Phases

variable {p : FaultPlan} {provisioned : List TriggerId}

theorem run_ruleVisits (naming : ResourceNaming) (hw : w.Integrity)
    (hp : p.Within unsubscribing deadline)
    (h : forall id, provisioned.contains id = w.store.isCommitted id) :
    exists q, q.Within unsubscribing deadline ∧
      (visitAll (w.engine.rulesByName.filterMap (Candidate.ofRule? naming provisioned))).run
          deadline { w with faults := p } =
        ((w.ruleCandidates naming).map fun c => w.visit c.1,
          { w.withoutRules naming w.abandoned with faults := q }) := by
  rcases Saga.run_of_spared (spared_ruleVisits naming provisioned w.engine.rulesByName)
    (w := { w with faults := p }) hp with ⟨q, hq, hrun⟩
  rw [Saga.play_withFaults, play_ruleVisits hw naming h] at hrun
  exact ⟨q, hq, hrun⟩

theorem run_topicVisits (naming : ResourceNaming) (hw : w.Integrity)
    (hp : p.Within unsubscribing deadline)
    (h : forall id, provisioned.contains id = w.store.isCommitted id) :
    exists q, q.Within unsubscribing deadline ∧
      (visitAll (w.broker.topicsByName.filterMap (Candidate.ofTopic? naming provisioned))).run
          deadline { w with faults := p } =
        ((w.topicCandidates naming).map fun c => w.visit c.1,
          { w.withoutTopics naming w.abandoned with faults := q }) := by
  rcases Saga.run_of_spared (spared_topicVisits naming provisioned w.broker.topicsByName)
    (w := { w with faults := p }) hp with ⟨q, hq, hrun⟩
  rw [Saga.play_withFaults, play_topicVisits hw naming h] at hrun
  exact ⟨q, hq, hrun⟩

end Phases

/-!
# The sweep
-/

/-- What a sweep leaves and reports that could purge all abandoned drafts but some. -/
structure World.SweptBut (naming : ResourceNaming) (left : List TriggerId) (w : World)
    (report : RecoveryReport) (v : World) : Prop where
  /-- The drafts that are left are abandoned, and each has targets left, the last ones.
  The other abandoned drafts are gone, with all their targets. -/
  rows : w.store.PurgedBut w.abandoned left v.store
  distinct : left.Nodup
  rules : v.engine.rules = w.engine.rules.filter fun r =>
    !(naming.triggerForRule? r.name).any w.abandoned
  topics : v.broker.topics = w.broker.topics.filter fun t =>
    !(naming.triggerForTopic? t.name).any w.abandoned
  draftsPurged : report.draftsPurged + report.failures =
    w.store.triggers.countP fun t => w.abandoned t.id
  rulesRemoved : report.rulesRemoved =
    w.engine.rules.countP fun r => (naming.triggerForRule? r.name).any w.abandoned
  topicsRemoved : report.topicsRemoved =
    w.broker.topics.countP fun t => (naming.triggerForTopic? t.name).any w.abandoned
  skippedInFlight : report.skippedInFlight = w.skipped naming
  failures : report.failures = left.length
  deliveries : v.broker.deliveries = w.broker.deliveries
  locks : v.locks = w.locks

theorem report_but (naming : ResourceNaming) {left : List TriggerId} {visits : List Visit}
    (h : VisitsBut left w w.draftCandidates visits) :
    RecoveryReport.ofVisits visits ((w.ruleCandidates naming).map fun c => w.visit c.1)
        ((w.topicCandidates naming).map fun c => w.visit c.1) =
      { w.sweepReport naming with
        draftsPurged := visits.count .removed
        failures := left.length } := by
  have hnone : forall o : Option TriggerId, (o.any fun _ => false) = false := by
    intro o
    cases o <;> rfl
  simp only [World.sweepReport, RecoveryReport.ofVisits, h.busy, h.failed, count_ruleVisits,
    count_topicVisits, World.meets_failed, hnone, List.countP_false]
  rfl

theorem sweptBut {naming : ResourceNaming} {left : List TriggerId} {visits : List Visit}
    {u : World} {p : FaultPlan} (hw : w.Integrity) (hu : u.Integrity)
    (hpurged : w.PurgedBut w.abandoned left u)
    (hvisits : VisitsBut left w w.draftCandidates visits) :
    w.SweptBut naming left
      { w.sweepReport naming with
        draftsPurged := visits.count .removed
        failures := left.length }
      { (u.withoutRules naming u.abandoned).withoutTopics naming u.abandoned with
        faults := p } := by
  have hreport := sweepReport_eq naming hw
  constructor
  case rows => exact hpurged.store
  case distinct => exact hvisits.left.nodup (nodup_map_filter hw.store.trigger_ids _)
  case rules =>
    rw [hpurged.abandoned_eq hw hu, ← hpurged.engine]
    rfl
  case topics =>
    rw [hpurged.abandoned_eq hw hu, ← hpurged.topics]
    rfl
  case draftsPurged =>
    show visits.count .removed + left.length = _
    rw [hvisits.removed, count_draftVisits hw, World.meets_removed]
  case rulesRemoved => rw [hreport]
  case topicsRemoved => rw [hreport]
  case skippedInFlight => rw [hreport]
  case failures => rfl
  case deliveries => exact hpurged.deliveries
  case locks => exact hpurged.locks

/-- A sweep succeeds also if it cannot unsubscribe, whatever is locked.  It removes all
rules and topics of abandoned triggers and all abandoned drafts, except for as many
drafts as it reports failures.  Each of these keeps its row with the rows of its last
targets, and costs at least one failing call. -/
theorem World.Reachable.sweep_but (hw : w.Reachable) (naming : ResourceNaming)
    (hfaults : w.faults.Within unsubscribing deadline) :
    exists report v left,
      (sweep naming).run.run deadline w = (.ok report, v) ∧ w.SweptBut naming left report v ∧
        left.length ≤ (sweep naming).run.harms deadline w := by
  have hcontains := hw.integrity.store.contains_provisioned
  have hrows : forall e, ¬unsubscribing .listAllTriggers e :=
    spared_of_ne (by simp [Call.operation])
  have hruleList : forall e, ¬unsubscribing .listRules e :=
    spared_of_ne (by simp [Call.operation])
  have htopicList : forall e, ¬unsubscribing .listTopics e :=
    spared_of_ne (by simp [Call.operation])
  rcases Operation.run_of_spared (Operation.Only.ask hrows) hfaults
    (Operation.play_ask_of_ok rfl) with ⟨p, hp, hlist⟩
  rcases run_draftVisits (w := { w with faults := p }) (hw.around _ _ _) hp with
    ⟨visits, left, u, hu, hup, hdrafts, hpurged, hvisits, hharms⟩
  have hpurged : w.PurgedBut w.abandoned left u :=
    ⟨hpurged.store, hpurged.topics, hpurged.deliveries, hpurged.engine, hpurged.locks⟩
  have hvisits : VisitsBut left w w.draftCandidates visits :=
    ⟨hvisits.removed, hvisits.busy, hvisits.failed, hvisits.left⟩
  rw [← hpurged.isCommitted_eq hw.integrity hu.integrity] at hcontains
  rcases Operation.run_of_spared (Operation.Only.ask hruleList) hup
    (Operation.play_ask_of_ok rfl) with ⟨q, hq, hruleInfos⟩
  rcases run_ruleVisits naming hu.integrity hq hcontains with ⟨q, hq, hrules⟩
  rcases Operation.run_of_spared (Operation.Only.ask htopicList)
    (w := { u.withoutRules naming u.abandoned with faults := q }) hq
    (Operation.play_ask_of_ok rfl) with ⟨q, hq, htopicInfos⟩
  rcases run_topicVisits naming (hu.integrity.withoutRules naming u.abandoned) hq hcontains with
    ⟨q, hq, htopics⟩
  have hreport := report_but naming hvisits
  rw [← hpurged.ruleVisits_eq hw.integrity hu.integrity,
    ← hpurged.topicVisits_eq hw.integrity hu.integrity] at hreport
  refine ⟨{ w.sweepReport naming with
      draftsPurged := visits.count .removed
      failures := left.length },
    { (u.withoutRules naming u.abandoned).withoutTopics naming u.abandoned with faults := q },
    left, ?_, sweptBut hw.integrity hu.integrity hpurged hvisits, ?_⟩
  · unfold sweep
    rw [Operation.run_bind_of_ok hlist, Operation.run_bind_of_ok (Operation.run_ofSaga hdrafts),
      Operation.run_bind_of_ok hruleInfos,
      Operation.run_bind_of_ok (Operation.run_ofSaga hrules),
      Operation.run_bind_of_ok htopicInfos,
      Operation.run_bind_of_ok (Operation.run_ofSaga htopics)]
    exact congrArg (fun report => (Except.ok report, _)) hreport
  · unfold sweep
    rw [Operation.harms_bind_of_ok hlist,
      Operation.harms_bind_of_ok (Operation.run_ofSaga hdrafts), Operation.harms_ofSaga]
    exact Nat.le_trans hharms (Nat.le_trans (Nat.le_add_right _ _) (Nat.le_add_left _ _))

end Sweep

/-!
# An example
-/

/-- The house after a creation that failed and could not delete the row of a target while
it was taken back.  By now, nothing can be unsubscribed. -/
def remnant : World :=
  let broken := { Lifecycle.house with
    faults := Lifecycle.house.faults.set "store.delete_target" (.times (.unavailable "outage") 1) }
  { ((Lifecycle.create .standard Lifecycle.heatAlarm).run.run 1000 broken).2 with
    faults := FaultPlan.empty.set "broker.unsubscribe" (.always (.unavailable "outage")) }

theorem remnant_reachable : remnant.Reachable :=
  (Saga.reachable_run _ _ (Lifecycle.house_reachable.around _ _ _)).around _ _ _

theorem remnant_swept_but :
    exists report v left,
      (sweep Config.standard.naming).run.run 1000 remnant = (.ok report, v) ∧
        remnant.SweptBut Config.standard.naming left report v ∧
        left.length ≤ (sweep Config.standard.naming).run.harms 1000 remnant :=
  remnant_reachable.sweep_but _ (FaultPlan.within_set _ _ _)

theorem remnant_kept :
    let v := ((sweep Config.standard.naming).run.run 1000 remnant).2
    remnant.Reachable ∧ remnant.faults.Within unsubscribing 1000 ∧
      exists t, t ∈ v.store.triggers ∧ t.isProvisioned = false ∧
        remnant.locks.isHeld t.id = false ∧ v.store.targetsOf t.id ≠ [] := by
  refine ⟨remnant_reachable, FaultPlan.within_set _ _ _, ?_⟩
  decide +kernel

end TelemetryTriggers
