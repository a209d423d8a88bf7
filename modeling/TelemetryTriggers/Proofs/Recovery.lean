import TelemetryTriggers.Proofs.Saga.Calm
import TelemetryTriggers.Proofs.Services.Removal
import TelemetryTriggers.Proofs.Services.Share
import TelemetryTriggers.Recovery

/-!
# What a sweep removes

A sweep that meets no fault removes what belongs to the abandoned triggers, those
that nobody is working on and that have no provisioned row, and leaves everything
else as it is.  A subscription also goes when the row of a target of such a trigger
names it.

Main definitions: `World.abandoned`; `World.swept`, what a sweep leaves.  The main
statement is `play_sweep`.
-/

namespace TelemetryTriggers

/-!
# Abandoned triggers
-/

def Store.isCommitted (s : Store) (id : TriggerId) : Bool :=
  (s.trigger? id).any Trigger.isProvisioned

theorem Store.Integrity.isCommitted_iff {s : Store} (h : s.Integrity) {id : TriggerId} :
    s.isCommitted id = true ↔
      exists t, t ∈ s.triggers ∧ t.id = id ∧ t.isProvisioned = true := by
  unfold Store.isCommitted
  constructor
  · intro hany
    rcases Option.any_eq_true_iff_get .. |>.mp hany with ⟨hsome, hprovisioned⟩
    rcases Store.trigger?_eq_some (Option.some_get hsome).symm with ⟨ht, hid⟩
    exact ⟨_, ht, hid, hprovisioned⟩
  · intro h
    rcases h with ⟨t, ht, rfl, hprovisioned⟩
    rw [h.trigger?_eq_some ht]
    exact hprovisioned

namespace World

/-- Nobody is working on the trigger, and it is not provisioned. -/
def abandoned (w : World) (id : TriggerId) : Bool :=
  !w.locks.isHeld id && !w.store.isCommitted id

def visit (w : World) (id : TriggerId) : Visit :=
  if w.locks.isHeld id then .busy else if w.store.isCommitted id then .owned else .removed

/-!
# What is left when the belongings of some triggers are removed
-/

/-- Without the rows of some triggers and of their targets, and without the
subscriptions that those name. -/
def withoutRows (p : TriggerId -> Bool) (w : World) : World :=
  { w with
    store := { w.store with
      triggers := w.store.triggers.filter fun t => !p t.id
      targets := w.store.targets.filter fun r => !p r.trigger }
    broker := { w.broker with
      subscriptions := w.broker.subscriptions.filter fun s =>
        !w.store.targets.any fun r => p r.trigger && r.subscription == s.handle } }

def withoutRules (naming : ResourceNaming) (p : TriggerId -> Bool) (w : World) : World :=
  { w with
    engine := ⟨w.engine.rules.filter fun r => !(naming.triggerForRule? r.name).any p⟩ }

def withoutTopics (naming : ResourceNaming) (p : TriggerId -> Bool) (w : World) : World :=
  { w with
    broker := { w.broker with
      topics := w.broker.topics.filter fun t => !(naming.triggerForTopic? t.name).any p
      subscriptions := w.broker.subscriptions.filter fun s =>
        !(naming.triggerForHandle? s.topic).any p } }

def swept (naming : ResourceNaming) (w : World) : World :=
  ((w.withoutRows w.abandoned).withoutRules naming w.abandoned).withoutTopics naming
    w.abandoned

/-- A sweep keeps the share of those triggers that are not abandoned, apart from
subscriptions that the row of an abandoned target names. -/
theorem swept_eq (naming : ResourceNaming) (w : World) :
    w.swept naming = { w with
      store := { w.store with
        triggers := (w.share naming fun owner => !owner.any w.abandoned).triggers
        targets := (w.share naming fun owner => !owner.any w.abandoned).targets }
      broker := { w.broker with
        topics := (w.share naming fun owner => !owner.any w.abandoned).topics
        subscriptions :=
          (w.share naming fun owner => !owner.any w.abandoned).subscriptions.filter fun s =>
            !w.store.targets.any
              fun r => w.abandoned r.trigger && r.subscription == s.handle }
      engine := ⟨(w.share naming fun owner => !owner.any w.abandoned).rules⟩ } := by
  simp only [swept, withoutRows, withoutRules, withoutTopics, share, Option.any_some,
    List.filter_filter, Bool.and_comm]

theorem withoutRows_congr {p q : TriggerId -> Bool} {w : World} (hw : w.Integrity)
    (h : forall t, t ∈ w.store.triggers -> p t.id = q t.id) :
    w.withoutRows p = w.withoutRows q := by
  have htargets : forall r, r ∈ w.store.targets -> p r.trigger = q r.trigger := by
    intro r hr
    rcases hw.store.owned r hr with ⟨t, ht, hid⟩
    rw [← hid]
    exact h t ht
  have hany : forall s : Subscription,
      (w.store.targets.any fun r => p r.trigger && r.subscription == s.handle) =
        w.store.targets.any fun r => q r.trigger && r.subscription == s.handle := by
    intro s
    rw [Bool.eq_iff_iff, List.any_eq_true, List.any_eq_true]
    constructor
    · intro h
      rcases h with ⟨r, hr, hs⟩
      exact ⟨r, hr, by rwa [← htargets r hr]⟩
    · intro h
      rcases h with ⟨r, hr, hs⟩
      exact ⟨r, hr, by rwa [htargets r hr]⟩
  unfold withoutRows
  rw [List.filter_congr fun t ht => congrArg not (h t ht),
    List.filter_congr fun r hr => congrArg not (htargets r hr),
    List.filter_congr fun s _ => congrArg not (hany s)]

theorem withoutRows_none (w : World) : w.withoutRows (fun _ => false) = w := by
  have hnone : (w.store.targets.any fun _ => false) = false := by simp
  simp only [withoutRows, Bool.false_and, hnone, Bool.not_false, List.filter_true]

theorem any_or_rest {α : Type} (p q e : α -> Bool) (items : List α) :
    ((items.any fun a => p a && e a) || items.any fun a => !p a && (q a && e a)) =
      items.any fun a => (p a || q a) && e a := by
  induction items with
  | nil => rfl
  | cons a items ih =>
      simp only [List.any_cons]
      rw [← ih]
      cases p a <;> cases e a <;> simp [Bool.or_left_comm]

theorem withoutRows_withoutRows (p q : TriggerId -> Bool) (w : World) :
    (w.withoutRows p).withoutRows q = w.withoutRows fun id => p id || q id := by
  have hany : forall s : Subscription,
      ((!(w.store.targets.filter fun r => !p r.trigger).any
            fun r => q r.trigger && r.subscription == s.handle) &&
          !w.store.targets.any fun r => p r.trigger && r.subscription == s.handle) =
        !w.store.targets.any
          fun r => (p r.trigger || q r.trigger) && r.subscription == s.handle := by
    intro s
    rw [List.any_filter, ← Bool.not_or, Bool.or_comm,
      any_or_rest (fun r : Target => p r.trigger) (fun r => q r.trigger)]
  unfold withoutRows
  simp only [List.filter_filter, hany, ← Bool.not_or, Bool.or_comm (q _)]

end World

/-!
# One candidate
-/

theorem Candidate.play_visit {c : Candidate} {w v : World}
    (hremoval : forall locks,
      c.removal.run.play { w with locks } = (.ok (), { v with locks })) :
    c.visit.play w =
      (w.visit c.trigger, if w.abandoned c.trigger then { v with locks := w.locks } else w) := by
  unfold Candidate.visit World.visit World.abandoned
  rw [Saga.play]
  cases hlocks : w.locks.acquire? c.trigger with
  | none =>
      rw [LockTable.acquire?_eq_none.mp hlocks]
      rfl
  | some locks =>
      rcases LockTable.acquire?_eq_some hlocks with ⟨hfree, rfl⟩
      have hback := LockTable.release_cons hfree
      rw [hfree]
      simp only [Saga.play, Call.perform, if_true, Bool.not_false, Bool.true_and]
      cases hcommitted : w.store.isCommitted c.trigger with
      | true =>
          rw [Store.isCommitted] at hcommitted
          simp only [hcommitted, if_true, Saga.play, hback]
          rfl
      | false =>
          rw [Store.isCommitted] at hcommitted
          simp only [hcommitted]
          rw [if_neg (by decide), Saga.play_bind, hremoval ⟨c.trigger :: w.locks.held⟩]
          simp only [Saga.play, hback]
          rfl

theorem play_visitAll_cons (c : Candidate) (cs : List Candidate) (w : World) :
    (visitAll (c :: cs)).play w =
      ((c.visit.play w).1 :: ((visitAll cs).play (c.visit.play w).2).1,
        ((visitAll cs).play (c.visit.play w).2).2) := by
  show (c.visit.bind fun visit =>
    (visitAll cs).bind fun visits => .done (visit :: visits)).play w = _
  rw [Saga.play_bind, Saga.play_bind]
  rfl

/-!
# Drafts
-/

theorem play_purgeTargets (rows : List Target) (w : World) :
    (purgeTargets rows).run.play w =
      (.ok (), { w with
        store := { w.store with
          targets := w.store.targets.filter fun r => !rows.any (·.id == r.id) }
        broker := { w.broker with
          subscriptions :=
            w.broker.subscriptions.filter fun s => !rows.any (·.subscription == s.handle) } }) := by
  induction rows generalizing w with
  | nil =>
      simp only [purgeTargets, List.any_nil, Bool.not_false, List.filter_true]
      rfl
  | cons row rows ih =>
      rw [purgeTargets]
      rw [Operation.play_bind_of_ok
        (Operation.play_ensureGone (Call.clears_unsubscribe row.subscription w))]
      rw [Operation.play_bind_of_ok
        (Operation.play_ensureGone (Call.clears_deleteTarget row.id _))]
      rw [ih]
      simp only [List.filter_filter, List.any_cons, Bool.not_or, bne, Bool.and_comm,
        Bool.beq_comm]

theorem Store.Integrity.filter_targetsOf {s : Store} (h : s.Integrity) (id : TriggerId) :
    (s.targets.filter fun r => !(s.targetsOf id).any (·.id == r.id)) =
      s.targets.filter (·.trigger != id) := by
  apply List.filter_congr
  intro r hr
  apply congrArg not
  rw [Bool.eq_iff_iff, List.any_eq_true, beq_iff_eq]
  constructor
  · intro hany
    rcases hany with ⟨q, hq, hid⟩
    rcases Store.mem_targetsOf.mp hq with ⟨hq, htrigger⟩
    rw [← List.inj_on_of_nodup_map h.target_ids hq hr (eq_of_beq hid)]
    exact htrigger
  · intro htrigger
    exact ⟨r, Store.mem_targetsOf.mpr ⟨hr, htrigger⟩, beq_self_eq_true _⟩

theorem play_purgeDraft {w : World} (hw : w.store.Integrity) (id : TriggerId) :
    (purgeDraft id).run.play w = (.ok (), w.withoutRows (· == id)) := by
  have hsubscriptions : forall s : Subscription,
      ((w.store.targetsOf id).any fun r => r.subscription == s.handle) =
        w.store.targets.any fun r => r.trigger == id && r.subscription == s.handle := by
    intro s
    rw [Store.targetsOf, List.any_filter]
  rw [purgeDraft, Operation.play_bind_of_ok (Operation.play_ask_of_ok rfl),
    Operation.play_bind_of_ok (play_purgeTargets _ w)]
  simp only [hw.filter_targetsOf, hsubscriptions]
  apply Operation.play_ensureGone
  apply Call.clears_deleteTrigger
  intro r hr
  simpa using (List.mem_filter.mp hr).2

theorem trigger?_withoutRows {p : TriggerId -> Bool} {id : TriggerId} (h : p id = false)
    (w : World) : (w.withoutRows p).store.trigger? id = w.store.trigger? id := by
  simp only [World.withoutRows, Store.trigger?, List.find?_filter]
  apply congrFun
  apply congrArg
  funext t
  cases hid : t.id == id with
  | false => simp
  | true => simp [eq_of_beq hid, h]

theorem visit_withoutRows {p : TriggerId -> Bool} {id : TriggerId} (h : p id = false)
    (w : World) : (w.withoutRows p).visit id = w.visit id := by
  have htrigger := trigger?_withoutRows h w
  simp only [World.visit, Store.isCommitted, htrigger]
  rfl

/-- The visits of drafts.  The purge of one draft does not change what becomes of
the others. -/
theorem play_visitDrafts {rows : List Trigger} {w : World} (hw : w.Integrity)
    (hids : (rows.map (·.id)).Nodup)
    (hdrafts : forall t, t ∈ rows ->
      w.store.trigger? t.id = some t ∧ t.isProvisioned = false) :
    (visitAll (rows.map fun t => ⟨t.id, purgeDraft t.id⟩)).play w =
      (rows.map fun t => w.visit t.id,
        w.withoutRows fun id => rows.any fun t => !w.locks.isHeld t.id && t.id == id) := by
  induction rows generalizing w with
  | nil => exact congrArg (Prod.mk []) (World.withoutRows_none w).symm
  | cons t rows ih =>
      rcases List.nodup_cons.mp hids with ⟨hnew, hids⟩
      rcases hdrafts t List.mem_cons_self with ⟨htrigger, hdraft⟩
      have hrest : forall u, u ∈ rows ->
          w.store.trigger? u.id = some u ∧ u.isProvisioned = false :=
        fun u hu => hdrafts u (List.mem_cons_of_mem t hu)
      have habandoned : w.abandoned t.id = !w.locks.isHeld t.id := by
        rw [World.abandoned, Store.isCommitted, htrigger]
        simp [hdraft]
      have hvisit : (Candidate.visit ⟨t.id, purgeDraft t.id⟩).play w =
          (w.visit t.id, if w.abandoned t.id then w.withoutRows (· == t.id) else w) := by
        apply Candidate.play_visit (v := w.withoutRows (· == t.id))
        intro locks
        exact play_purgeDraft (w := { w with locks }) hw.store t.id
      rw [List.map_cons, play_visitAll_cons, hvisit, habandoned, List.map_cons]
      cases hheld : w.locks.isHeld t.id with
      | true =>
          rw [Bool.not_true, if_neg Bool.false_ne_true, ih hw hids hrest]
          simp only [List.any_cons, hheld, Bool.not_true, Bool.false_and, Bool.false_or]
      | false =>
          have hother : forall u, u ∈ rows -> (u.id == t.id) = false := by
            intro u hu
            rw [beq_eq_false_iff_ne]
            intro hid
            exact hnew (List.mem_map.mpr ⟨u, hu, hid⟩)
          have hvisits : (rows.map fun u => (w.withoutRows (· == t.id)).visit u.id) =
              rows.map fun u => w.visit u.id :=
            List.map_congr_left fun u hu =>
              visit_withoutRows (p := (· == t.id)) (hother u hu) w
          have hw' : (w.withoutRows (· == t.id)).Integrity := by
            have hplay := (purgeDraft t.id).run.integrity_play hw
            rw [play_purgeDraft hw.store] at hplay
            exact hplay
          rw [Bool.not_false, if_pos rfl, ih hw' hids]
          · rw [hvisits, World.withoutRows_withoutRows]
            simp only [List.any_cons, hheld, Bool.not_false, Bool.true_and, Bool.beq_comm]
            rfl
          · intro u hu
            rw [trigger?_withoutRows (p := (· == t.id)) (hother u hu)]
            exact hrest u hu

/-!
# Rules and topics
-/

theorem play_visitRules (cs : List (TriggerId × RuleHandle)) (w : World) :
    (visitAll (cs.map fun c => ⟨c.1, .ensureGone (.removeRule c.2)⟩)).play w =
      (cs.map fun c => w.visit c.1,
        { w with engine := ⟨w.engine.rules.filter fun r =>
            !cs.any fun c => w.abandoned c.1 && c.2 == r.handle⟩ }) := by
  induction cs generalizing w with
  | nil =>
      simp only [List.any_nil, Bool.not_false, List.filter_true]
      rfl
  | cons c cs ih =>
      have hvisit : (Candidate.visit ⟨c.1, .ensureGone (.removeRule c.2)⟩).play w =
          (w.visit c.1, if w.abandoned c.1 then
            { w with engine := ⟨w.engine.rules.filter (·.handle != c.2)⟩ } else w) := by
        apply Candidate.play_visit
          (v := { w with engine := ⟨w.engine.rules.filter (·.handle != c.2)⟩ })
        intro locks
        exact Operation.play_ensureGone (Call.clears_removeRule c.2 { w with locks })
      rw [List.map_cons, play_visitAll_cons, hvisit, List.map_cons]
      cases habandoned : w.abandoned c.1 with
      | false =>
          rw [if_neg Bool.false_ne_true, ih]
          simp only [List.any_cons, habandoned, Bool.false_and, Bool.false_or]
      | true =>
          -- the rule that is removed has no part in what becomes of the other candidates
          rw [if_pos rfl, ih]
          simp only [List.any_cons, habandoned, Bool.true_and, List.filter_filter,
            Bool.not_or, bne, Bool.and_comm, Bool.beq_comm]
          rfl

theorem play_visitTopics (cs : List (TriggerId × TopicHandle)) {w : World}
    (hw : w.Integrity) :
    (visitAll (cs.map fun c => ⟨c.1, .ensureGone (.deleteTopic c.2)⟩)).play w =
      (cs.map fun c => w.visit c.1,
        { w with broker := { w.broker with
            topics := w.broker.topics.filter fun t =>
              !cs.any fun c => w.abandoned c.1 && c.2 == t.handle
            subscriptions := w.broker.subscriptions.filter fun s =>
              !cs.any fun c => w.abandoned c.1 && c.2 == s.topic } }) := by
  induction cs generalizing w with
  | nil =>
      simp only [List.any_nil, Bool.not_false, List.filter_true]
      rfl
  | cons c cs ih =>
      have hclears := Call.clears_deleteTopic hw.broker c.2
      have hvisit : (Candidate.visit ⟨c.1, .ensureGone (.deleteTopic c.2)⟩).play w =
          (w.visit c.1, if w.abandoned c.1 then
            { w with broker := { w.broker with
                topics := w.broker.topics.filter (·.handle != c.2)
                subscriptions := w.broker.subscriptions.filter (·.topic != c.2) } }
            else w) := by
        apply Candidate.play_visit
          (v := { w with broker := { w.broker with
                topics := w.broker.topics.filter (·.handle != c.2)
                subscriptions := w.broker.subscriptions.filter (·.topic != c.2) } })
        intro locks
        exact Operation.play_ensureGone
          (Call.clears_deleteTopic (w := { w with locks }) hw.broker c.2)
      rw [List.map_cons, play_visitAll_cons, hvisit, List.map_cons]
      cases habandoned : w.abandoned c.1 with
      | false =>
          rw [if_neg Bool.false_ne_true, ih hw]
          simp only [List.any_cons, habandoned, Bool.false_and, Bool.false_or]
      | true =>
          have hw' := (Operation.ensureGone (.deleteTopic c.2)).run.integrity_play hw
          rw [Operation.play_ensureGone hclears] at hw'
          rw [if_pos rfl, ih hw']
          simp only [List.any_cons, habandoned, Bool.true_and, List.filter_filter,
            Bool.not_or, bne, Bool.and_comm, Bool.beq_comm]
          rfl

/-!
# The candidates that a sweep lists
-/

namespace World

def draftCandidates (w : World) : List Trigger :=
  w.store.triggers.filter fun t => !t.isProvisioned

def strays {α β : Type} (owner : α -> Option TriggerId) (handle : α -> β) (w : World)
    (items : List α) : List (TriggerId × β) :=
  items.filterMap fun a =>
    ((owner a).filter fun id => !w.store.isCommitted id).map fun id => (id, handle a)

def ruleCandidates (naming : ResourceNaming) (w : World) : List (TriggerId × RuleHandle) :=
  w.strays (fun r => naming.triggerForRule? r.name) RuleInfo.handle w.engine.rulesByName

def topicCandidates (naming : ResourceNaming) (w : World) :
    List (TriggerId × TopicHandle) :=
  w.strays (fun t => naming.triggerForTopic? t.name) Topic.handle w.broker.topicsByName

end World

theorem filterMap_ofRow? (rows : List Trigger) :
    rows.filterMap Candidate.ofRow? =
      (rows.filter fun t => !t.isProvisioned).map fun t => ⟨t.id, purgeDraft t.id⟩ := by
  induction rows with
  | nil => rfl
  | cons t rows ih =>
      cases hprovisioned : t.isProvisioned with
      | false => simp [Candidate.ofRow?, hprovisioned, ih]
      | true => simp [Candidate.ofRow?, hprovisioned, ih]

theorem Store.Integrity.contains_provisioned {s : Store} (h : s.Integrity)
    (id : TriggerId) :
    ((s.triggers.filter fun t => t.isProvisioned).map (·.id)).contains id =
      s.isCommitted id := by
  rw [Bool.eq_iff_iff, h.isCommitted_iff, List.contains_iff_mem, List.mem_map]
  constructor
  · intro h
    rcases h with ⟨t, ht, hid⟩
    rcases List.mem_filter.mp ht with ⟨ht, hprovisioned⟩
    exact ⟨t, ht, hid, hprovisioned⟩
  · intro h
    rcases h with ⟨t, ht, hid, hprovisioned⟩
    exact ⟨t, List.mem_filter.mpr ⟨ht, hprovisioned⟩, hid⟩

theorem filterMap_eq_map_strays {α β : Type} {owner : α -> Option TriggerId}
    {handle : α -> β} {toCandidate : α -> Option Candidate} {w : World}
    (removal : β -> Operation Unit)
    (h : forall a, toCandidate a = (owner a).bind fun id =>
      if w.store.isCommitted id then none else some ⟨id, removal (handle a)⟩)
    (items : List α) :
    items.filterMap toCandidate =
      (w.strays owner handle items).map fun c => ⟨c.1, removal c.2⟩ := by
  rw [World.strays, List.map_filterMap]
  apply List.filterMap_congr
  intro a _
  rw [h a]
  cases owner a with
  | none => rfl
  | some id =>
      cases hid : w.store.isCommitted id with
      | false => simp [Option.filter, hid]
      | true => simp [Option.filter, hid]

theorem World.not_committed_of_abandoned {w : World} {id : TriggerId}
    (h : w.abandoned id = true) : w.store.isCommitted id = false := by
  simp only [World.abandoned, Bool.and_eq_true, Bool.not_eq_true'] at h
  exact h.2

theorem any_strays {α β : Type} [DecidableEq β] {owner : α -> Option TriggerId}
    {handle : α -> β} {w : World} {items : List α} {a : α} (ha : a ∈ items)
    (howner : forall b, b ∈ items -> handle b = handle a -> owner b = owner a) :
    ((w.strays owner handle items).any fun c => w.abandoned c.1 && c.2 == handle a) =
      (owner a).any w.abandoned := by
  rw [Bool.eq_iff_iff, List.any_eq_true]
  constructor
  · intro h
    rcases h with ⟨c, hc, hany⟩
    rcases List.mem_filterMap.mp hc with ⟨b, hb, hcandidate⟩
    rcases Option.map_eq_some_iff.mp hcandidate with ⟨id, hid, rfl⟩
    rcases Option.filter_eq_some_iff.mp hid with ⟨hid, _⟩
    rw [Bool.and_eq_true] at hany
    rw [← howner b hb (eq_of_beq hany.2), hid]
    exact hany.1
  · intro hany
    cases hid : owner a with
    | none =>
        rw [hid] at hany
        cases hany
    | some id =>
        rw [hid] at hany
        have habandoned : w.abandoned id = true := hany
        refine ⟨(id, handle a), List.mem_filterMap.mpr ⟨a, ha, ?_⟩, ?_⟩
        · simp [hid, Option.filter, World.not_committed_of_abandoned habandoned]
        · simp [habandoned]

theorem any_ruleCandidates {w : World} (hw : w.Integrity) (naming : ResourceNaming)
    {r : Rule} (hr : r ∈ w.engine.rules) :
    ((w.ruleCandidates naming).any fun c => w.abandoned c.1 && c.2 == r.handle) =
      (naming.triggerForRule? r.name).any w.abandoned := by
  have hmem : RuleEngine.info r ∈ w.engine.rulesByName :=
    RuleEngine.mem_rulesByName.mpr ⟨r, hr, rfl⟩
  refine any_strays (a := RuleEngine.info r) hmem ?_
  intro info hinfo hhandle
  rcases RuleEngine.mem_rulesByName.mp hinfo with ⟨q, hq, rfl⟩
  rw [List.inj_on_of_nodup_map hw.engine.handles hq hr hhandle]

theorem any_topicCandidates {w : World} (hw : w.Integrity) (naming : ResourceNaming)
    {t : Topic} (ht : t ∈ w.broker.topics) :
    ((w.topicCandidates naming).any fun c => w.abandoned c.1 && c.2 == t.handle) =
      (naming.triggerForTopic? t.name).any w.abandoned := by
  refine any_strays (a := t) (Broker.mem_topicsByName.mpr ht) ?_
  intro q hq hhandle
  rw [List.inj_on_of_nodup_map hw.broker.topic_handles (Broker.mem_topicsByName.mp hq) ht
    hhandle]

/-!
# The sweep
-/

theorem isCommitted_withoutRows (w : World) (id : TriggerId) :
    (w.withoutRows w.abandoned).store.isCommitted id = w.store.isCommitted id := by
  cases habandoned : w.abandoned id with
  | false => rw [Store.isCommitted, trigger?_withoutRows habandoned, Store.isCommitted]
  | true =>
      rw [World.not_committed_of_abandoned habandoned, Store.isCommitted]
      have hnone : (w.withoutRows w.abandoned).store.trigger? id = none := by
        rw [Store.trigger?, List.find?_eq_none]
        intro t ht hid
        have hkept := (List.mem_filter.mp ht).2
        rw [eq_of_beq hid, habandoned] at hkept
        cases hkept
      rw [hnone]
      rfl

theorem abandoned_withoutRows (w : World) :
    (w.withoutRows w.abandoned).abandoned = w.abandoned := by
  funext id
  rw [World.abandoned, isCommitted_withoutRows]
  rfl

theorem visit_withoutAbandoned (w : World) :
    (w.withoutRows w.abandoned).visit = w.visit := by
  funext id
  rw [World.visit, isCommitted_withoutRows]
  rfl

theorem strays_withoutRows {α β : Type} (owner : α -> Option TriggerId) (handle : α -> β)
    (w : World) (items : List α) :
    (w.withoutRows w.abandoned).strays owner handle items = w.strays owner handle items := by
  simp only [World.strays, isCommitted_withoutRows]

theorem play_draftVisits {w : World} (hw : w.Integrity) :
    (visitAll (w.store.triggers.filterMap Candidate.ofRow?)).play w =
      (w.draftCandidates.map fun t => w.visit t.id, w.withoutRows w.abandoned) := by
  have hdrafts : forall t, t ∈ w.draftCandidates ->
      w.store.trigger? t.id = some t ∧ t.isProvisioned = false := by
    intro t ht
    rcases List.mem_filter.mp ht with ⟨ht, hdraft⟩
    exact ⟨hw.store.trigger?_eq_some ht, by simpa using hdraft⟩
  rw [filterMap_ofRow?, play_visitDrafts hw (nodup_map_filter hw.store.trigger_ids _) hdrafts,
    World.withoutRows_congr hw]
  · rfl
  · intro t ht
    have hcommitted : w.store.isCommitted t.id = t.isProvisioned := by
      rw [Store.isCommitted, hw.store.trigger?_eq_some ht]
      rfl
    rw [Bool.eq_iff_iff, List.any_eq_true, World.abandoned, hcommitted]
    constructor
    · intro h
      rcases h with ⟨u, hu, hany⟩
      rcases List.mem_filter.mp hu with ⟨hu, hdraft⟩
      rw [Bool.and_eq_true, beq_iff_eq] at hany
      rw [← List.inj_on_of_nodup_map hw.store.trigger_ids hu ht hany.2, hany.1, hdraft]
      rfl
    · intro habandoned
      rw [Bool.and_eq_true] at habandoned
      refine ⟨t, List.mem_filter.mpr ⟨ht, habandoned.2⟩, ?_⟩
      rw [habandoned.1, beq_self_eq_true]
      rfl

theorem play_ruleVisits {w : World} (hw : w.Integrity) (naming : ResourceNaming)
    {provisioned : List TriggerId}
    (h : forall id, provisioned.contains id = w.store.isCommitted id) :
    (visitAll (w.engine.rulesByName.filterMap (Candidate.ofRule? naming provisioned))).play w =
      ((w.ruleCandidates naming).map fun c => w.visit c.1,
        w.withoutRules naming w.abandoned) := by
  have hlist : w.engine.rulesByName.filterMap (Candidate.ofRule? naming provisioned) =
      (w.ruleCandidates naming).map fun c => ⟨c.1, .ensureGone (.removeRule c.2)⟩ := by
    refine filterMap_eq_map_strays (fun rule => .ensureGone (.removeRule rule)) ?_ _
    intro r
    unfold Candidate.ofRule?
    cases naming.triggerForRule? r.name with
    | none => rfl
    | some id =>
        simp only [Option.bind_some, h id]
  have hrules : forall r, r ∈ w.engine.rules ->
      (!(w.ruleCandidates naming).any fun c => w.abandoned c.1 && c.2 == r.handle) =
        !(naming.triggerForRule? r.name).any w.abandoned :=
    fun r hr => congrArg not (any_ruleCandidates hw naming hr)
  rw [hlist, play_visitRules, World.withoutRules, List.filter_congr hrules]

theorem play_topicVisits {w : World} (hw : w.Integrity) (naming : ResourceNaming)
    {provisioned : List TriggerId}
    (h : forall id, provisioned.contains id = w.store.isCommitted id) :
    (visitAll (w.broker.topicsByName.filterMap (Candidate.ofTopic? naming provisioned))).play
        w =
      ((w.topicCandidates naming).map fun c => w.visit c.1,
        w.withoutTopics naming w.abandoned) := by
  have hlist : w.broker.topicsByName.filterMap (Candidate.ofTopic? naming provisioned) =
      (w.topicCandidates naming).map fun c => ⟨c.1, .ensureGone (.deleteTopic c.2)⟩ := by
    refine filterMap_eq_map_strays (fun topic => .ensureGone (.deleteTopic topic)) ?_ _
    intro t
    unfold Candidate.ofTopic?
    cases naming.triggerForTopic? t.name with
    | none => rfl
    | some id =>
        simp only [Option.bind_some, h id]
  have htopics : forall t, t ∈ w.broker.topics ->
      (!(w.topicCandidates naming).any fun c => w.abandoned c.1 && c.2 == t.handle) =
        !(naming.triggerForTopic? t.name).any w.abandoned :=
    fun t ht => congrArg not (any_topicCandidates hw naming ht)
  have hsubscriptions : forall s, s ∈ w.broker.subscriptions ->
      (!(w.topicCandidates naming).any fun c => w.abandoned c.1 && c.2 == s.topic) =
        !(naming.triggerForHandle? s.topic).any w.abandoned := by
    intro s hs
    rcases Broker.hasTopic_iff.mp (hw.broker.live s hs) with ⟨t, ht, hhandle⟩
    rw [← hhandle, hw.broker.owner_of_live ht]
    exact htopics t ht
  rw [hlist, play_visitTopics _ hw, World.withoutTopics, List.filter_congr htopics,
    List.filter_congr hsubscriptions]

namespace World

def sweepReport (naming : ResourceNaming) (w : World) : RecoveryReport :=
  .ofVisits (w.draftCandidates.map fun t => w.visit t.id)
    ((w.ruleCandidates naming).map fun c => w.visit c.1)
    ((w.topicCandidates naming).map fun c => w.visit c.1)

end World

theorem World.Integrity.withoutAbandoned {w : World} (hw : w.Integrity) :
    (w.withoutRows w.abandoned).Integrity := by
  have hplay := Saga.integrity_play
    (visitAll (w.store.triggers.filterMap Candidate.ofRow?)) hw
  rw [play_draftVisits hw] at hplay
  exact hplay

theorem World.Integrity.withoutRules {w : World} (hw : w.Integrity)
    (naming : ResourceNaming) (p : TriggerId -> Bool) : (w.withoutRules naming p).Integrity :=
  ⟨hw.store, hw.broker,
    fun r hr => hw.engine.named r (List.mem_of_mem_filter hr),
    nodup_map_filter hw.engine.handles _⟩

section Phases

variable {w : World} {provisioned : List TriggerId}

theorem play_secondPhase (naming : ResourceNaming) (hw : w.Integrity)
    (h : forall id, provisioned.contains id = w.store.isCommitted id) :
    (visitAll ((w.withoutRows w.abandoned).engine.rulesByName.filterMap
      (Candidate.ofRule? naming provisioned))).play (w.withoutRows w.abandoned) =
      ((w.ruleCandidates naming).map fun c => w.visit c.1,
        (w.withoutRows w.abandoned).withoutRules naming w.abandoned) := by
  have hcontains : forall id,
      provisioned.contains id = (w.withoutRows w.abandoned).store.isCommitted id := by
    intro id
    rw [h, isCommitted_withoutRows]
  rw [play_ruleVisits hw.withoutAbandoned naming hcontains, abandoned_withoutRows,
    visit_withoutAbandoned, World.ruleCandidates, strays_withoutRows]
  rfl

theorem play_thirdPhase (naming : ResourceNaming) (hw : w.Integrity)
    (h : forall id, provisioned.contains id = w.store.isCommitted id) :
    (visitAll (((w.withoutRows w.abandoned).withoutRules naming
      w.abandoned).broker.topicsByName.filterMap
        (Candidate.ofTopic? naming provisioned))).play
          ((w.withoutRows w.abandoned).withoutRules naming w.abandoned) =
      ((w.topicCandidates naming).map fun c => w.visit c.1, w.swept naming) := by
  have hcontains : forall id, provisioned.contains id =
      ((w.withoutRows w.abandoned).withoutRules naming w.abandoned).store.isCommitted id := by
    intro id
    rw [h]
    exact (isCommitted_withoutRows w id).symm
  have habandoned :
      ((w.withoutRows w.abandoned).withoutRules naming w.abandoned).abandoned =
        w.abandoned :=
    abandoned_withoutRows w
  have hvisit :
      ((w.withoutRows w.abandoned).withoutRules naming w.abandoned).visit = w.visit :=
    visit_withoutAbandoned w
  have hcandidates :
      ((w.withoutRows w.abandoned).withoutRules naming w.abandoned).topicCandidates naming =
        w.topicCandidates naming :=
    strays_withoutRows _ _ w _
  rw [play_topicVisits (hw.withoutAbandoned.withoutRules naming w.abandoned) naming
    hcontains, habandoned, hvisit, hcandidates]
  rfl

end Phases

/-- A sweep that meets no fault removes what belongs to the abandoned triggers and
nothing else. -/
theorem play_sweep (naming : ResourceNaming) {w : World} (hw : w.Integrity) :
    (sweep naming).run.play w = (.ok (w.sweepReport naming), w.swept naming) := by
  have hcontains := hw.store.contains_provisioned
  unfold sweep
  rw [Operation.play_bind_of_ok (Operation.play_ask_of_ok rfl),
    Operation.play_bind_of_ok (Operation.play_ofSaga (play_draftVisits hw)),
    Operation.play_bind_of_ok (Operation.play_ask_of_ok rfl),
    Operation.play_bind_of_ok
      (Operation.play_ofSaga (play_secondPhase naming hw hcontains)),
    Operation.play_bind_of_ok (Operation.play_ask_of_ok rfl),
    Operation.play_bind_of_ok
      (Operation.play_ofSaga (play_thirdPhase naming hw hcontains))]
  rfl

end TelemetryTriggers
