import TelemetryTriggers.Proofs.Recovery

/-!
# Sweeps converge

A sweep that meets no fault counts what it removes and what it has to skip, and
leaves nothing to remove: a second sweep changes nothing and skips the same.

Main definitions: `World.inFlight`, the triggers that a sweep has to skip;
`World.Converged`, what a sweep leaves and reports.  The main statement is
`World.Reachable.sweep_converges`.
-/

namespace TelemetryTriggers

/-!
# Counting visits
-/

namespace World

/-- Work is running on the trigger, and it is not provisioned. -/
def inFlight (w : World) (id : TriggerId) : Bool :=
  w.locks.isHeld id && !w.store.isCommitted id

def meets (w : World) (v : Visit) (id : TriggerId) : Bool :=
  !w.store.isCommitted id && w.visit id == v

theorem meets_removed (w : World) : w.meets .removed = w.abandoned := by
  funext id
  rw [meets, visit, abandoned]
  cases w.locks.isHeld id <;> cases w.store.isCommitted id <;> rfl

theorem meets_busy (w : World) : w.meets .busy = w.inFlight := by
  funext id
  rw [meets, visit, inFlight]
  cases w.locks.isHeld id <;> cases w.store.isCommitted id <;> rfl

theorem meets_failed (w : World) : w.meets .failed = fun _ => false := by
  funext id
  rw [meets, visit]
  cases w.locks.isHeld id <;> cases w.store.isCommitted id <;> rfl

end World

theorem Store.Integrity.isCommitted_row {s : Store} (h : s.Integrity) {t : Trigger}
    (ht : t ∈ s.triggers) : s.isCommitted t.id = t.isProvisioned := by
  rw [isCommitted, h.trigger?_eq_some ht]
  rfl

theorem count_draftVisits {w : World} (hw : w.Integrity) (v : Visit) :
    (w.draftCandidates.map fun t => w.visit t.id).count v =
      w.store.triggers.countP fun t => w.meets v t.id := by
  rw [List.count_eq_countP, List.countP_map, World.draftCandidates, List.countP_filter]
  apply List.countP_congr
  intro t ht
  rw [World.meets, hw.store.isCommitted_row ht, Bool.and_comm, Function.comp_apply]

theorem count_strayVisits {α β : Type} (owner : α -> Option TriggerId) (handle : α -> β)
    (w : World) (items : List α) (v : Visit) :
    ((w.strays owner handle items).map fun c => w.visit c.1).count v =
      items.countP fun a => (owner a).any (w.meets v) := by
  rw [List.count_eq_countP, List.countP_map, World.strays, List.countP_filterMap]
  apply List.countP_congr
  intro a _
  cases owner a with
  | none => simp
  | some id =>
      cases hid : w.store.isCommitted id with
      | false => simp [Option.filter, World.meets, hid]
      | true => simp [Option.filter, World.meets, hid]

theorem countP_rulesByName (e : RuleEngine) (p : String -> Bool) :
    (e.rulesByName.countP fun r => p r.name) = e.rules.countP fun r => p r.name := by
  rw [RuleEngine.rulesByName, (List.mergeSort_perm _ _).countP_eq, List.countP_map]
  rfl

theorem countP_topicsByName (b : Broker) (p : Topic -> Bool) :
    b.topicsByName.countP p = b.topics.countP p :=
  (List.mergeSort_perm _ _).countP_eq p

theorem count_ruleVisits (naming : ResourceNaming) (w : World) (v : Visit) :
    ((w.ruleCandidates naming).map fun c => w.visit c.1).count v =
      w.engine.rules.countP fun r => (naming.triggerForRule? r.name).any (w.meets v) := by
  rw [World.ruleCandidates, count_strayVisits]
  exact countP_rulesByName w.engine fun name => (naming.triggerForRule? name).any (w.meets v)

theorem count_topicVisits (naming : ResourceNaming) (w : World) (v : Visit) :
    ((w.topicCandidates naming).map fun c => w.visit c.1).count v =
      w.broker.topics.countP fun t => (naming.triggerForTopic? t.name).any (w.meets v) := by
  rw [World.topicCandidates, count_strayVisits, countP_topicsByName]

/-!
# The report
-/

namespace World

/-- How many rows, rules and topics belong to triggers that are being worked on and
are not provisioned. -/
def skipped (naming : ResourceNaming) (w : World) : Nat :=
  (w.store.triggers.countP fun t => w.inFlight t.id) +
    (w.engine.rules.countP fun r => (naming.triggerForRule? r.name).any w.inFlight) +
    w.broker.topics.countP fun t => (naming.triggerForTopic? t.name).any w.inFlight

end World

theorem sweepReport_eq (naming : ResourceNaming) {w : World} (hw : w.Integrity) :
    w.sweepReport naming =
      { draftsPurged := w.store.triggers.countP fun t => w.abandoned t.id
        rulesRemoved :=
          w.engine.rules.countP fun r => (naming.triggerForRule? r.name).any w.abandoned
        topicsRemoved :=
          w.broker.topics.countP fun t => (naming.triggerForTopic? t.name).any w.abandoned
        skippedInFlight := w.skipped naming
        failures := 0 } := by
  have hnone : forall o : Option TriggerId, (o.any fun _ => false) = false := by
    intro o
    cases o <;> rfl
  simp only [World.sweepReport, RecoveryReport.ofVisits, count_draftVisits hw,
    count_ruleVisits, count_topicVisits, World.meets_removed, World.meets_busy,
    World.meets_failed, hnone, List.countP_false]
  rfl

/-!
# What a sweep leaves
-/

section Swept

variable (naming : ResourceNaming) (w : World)

theorem isCommitted_swept (id : TriggerId) :
    (w.swept naming).store.isCommitted id = w.store.isCommitted id :=
  isCommitted_withoutRows w id

theorem abandoned_swept : (w.swept naming).abandoned = w.abandoned :=
  abandoned_withoutRows w

theorem inFlight_swept : (w.swept naming).inFlight = w.inFlight := by
  funext id
  rw [World.inFlight, isCommitted_swept]
  rfl

theorem not_abandoned_of_inFlight {w : World} {id : TriggerId} (h : w.inFlight id = true) :
    w.abandoned id = false := by
  rw [World.inFlight, Bool.and_eq_true] at h
  rw [World.abandoned, h.1]
  rfl

theorem countP_inFlight {α : Type} (owner : α -> Option TriggerId) (items : List α) :
    ((items.filter fun a => !(owner a).any w.abandoned).countP
      fun a => (owner a).any w.inFlight) = items.countP fun a => (owner a).any w.inFlight := by
  rw [List.countP_filter]
  apply List.countP_congr
  intro a _
  cases owner a with
  | none => simp
  | some id =>
      rw [Option.any_some, Option.any_some, Bool.and_eq_true]
      constructor
      · exact And.left
      · intro h
        exact ⟨h, by rw [not_abandoned_of_inFlight h, Bool.not_false]⟩

theorem skipped_swept : (w.swept naming).skipped naming = w.skipped naming := by
  unfold World.skipped
  rw [inFlight_swept]
  have hrows := countP_inFlight w (fun t : Trigger => some t.id) w.store.triggers
  have hrules :=
    countP_inFlight w (fun r : Rule => naming.triggerForRule? r.name) w.engine.rules
  have htopics :=
    countP_inFlight w (fun t : Topic => naming.triggerForTopic? t.name) w.broker.topics
  exact congrArg₂ (· + ·) (congrArg₂ (· + ·) hrows hrules) htopics

theorem countP_filter_not {α : Type} (p : α -> Bool) (items : List α) :
    (items.filter fun a => !p a).countP p = 0 := by
  rw [List.countP_filter, List.countP_eq_zero]
  intro a _
  simp

theorem swept_swept : (w.swept naming).swept naming = w.swept naming := by
  have hnone : forall s : Subscription,
      ((w.store.targets.filter fun r => !w.abandoned r.trigger).any
        fun r => w.abandoned r.trigger && r.subscription == s.handle) = false := by
    intro s
    rw [List.any_eq_false]
    intro r hr
    have hkept := (List.mem_filter.mp hr).2
    rw [Bool.not_eq_true'] at hkept
    simp [hkept]
  rw [World.swept, abandoned_swept]
  simp only [World.swept, World.withoutRows, World.withoutRules, World.withoutTopics,
    List.filter_filter, Bool.and_self, hnone, Bool.not_false, Bool.true_and,
    Bool.and_self_left]

theorem sweepReport_swept {w : World} (hw : w.Integrity) :
    (w.swept naming).sweepReport naming = ⟨0, 0, 0, (w.sweepReport naming).skippedInFlight, 0⟩ := by
  have hswept : (w.swept naming).Integrity := by
    have hplay := (sweep naming).run.integrity_play hw
    rw [play_sweep naming hw] at hplay
    exact hplay
  have hrows := countP_filter_not (fun t : Trigger => w.abandoned t.id) w.store.triggers
  have hrules := countP_filter_not
    (fun r : Rule => (naming.triggerForRule? r.name).any w.abandoned) w.engine.rules
  have htopics := countP_filter_not
    (fun t : Topic => (naming.triggerForTopic? t.name).any w.abandoned) w.broker.topics
  rw [sweepReport_eq naming hswept, sweepReport_eq naming hw, abandoned_swept, skipped_swept]
  rw [RecoveryReport.mk.injEq]
  exact ⟨hrows, hrules, htopics, rfl, rfl⟩

end Swept

/-!
# Nothing to sweep
-/

def World.Tidy (naming : ResourceNaming) (w : World) : Prop :=
  forall item, w.Holds item ->
    exists id, item.owner? naming = some id ∧ w.store.isCommitted id = true

section Tidy

variable {naming : ResourceNaming} {w : World}

theorem World.Tidy.not_abandoned (h : w.Tidy naming) (item : Item) (hitem : w.Holds item) :
    (item.owner? naming).any w.abandoned = false := by
  rcases h item hitem with ⟨id, howner, hcommitted⟩
  rw [howner, Option.any_some, abandoned, hcommitted, Bool.not_true, Bool.and_false]

theorem World.Tidy.not_inFlight (h : w.Tidy naming) (item : Item) (hitem : w.Holds item) :
    (item.owner? naming).any w.inFlight = false := by
  rcases h item hitem with ⟨id, howner, hcommitted⟩
  rw [howner, Option.any_some, inFlight, hcommitted, Bool.not_true, Bool.and_false]

theorem World.Tidy.swept_eq (h : w.Tidy naming) : w.swept naming = w := by
  have hkept : forall {α : Type} (items : List α) (p : α -> Bool),
      (forall a, a ∈ items -> p a = false) -> (items.filter fun a => !p a) = items := by
    intro α items p hp
    rw [List.filter_eq_self]
    intro a ha
    rw [hp a ha, Bool.not_false]
  have htarget : forall q, q ∈ w.store.targets -> w.abandoned q.trigger = false :=
    fun q hq => h.not_abandoned (.target q) hq
  have hnamed : forall s : Subscription, s ∈ w.broker.subscriptions ->
      (w.store.targets.any fun q => w.abandoned q.trigger && q.subscription == s.handle) =
        false := by
    intro s _
    rw [List.any_eq_false]
    intro q hq
    rw [htarget q hq, Bool.false_and]
    exact Bool.false_ne_true
  simp only [World.swept, withoutRows, withoutRules, withoutTopics]
  rw [hkept w.store.triggers (fun t => w.abandoned t.id)
      fun t ht => h.not_abandoned (.trigger t) ht,
    hkept w.store.targets (fun q => w.abandoned q.trigger) htarget,
    hkept w.broker.subscriptions
      (fun s => w.store.targets.any fun q => w.abandoned q.trigger && q.subscription == s.handle)
      hnamed,
    hkept w.engine.rules (fun r => (naming.triggerForRule? r.name).any w.abandoned)
      fun r hr => h.not_abandoned (.rule r) hr,
    hkept w.broker.topics (fun t => (naming.triggerForTopic? t.name).any w.abandoned)
      fun t ht => h.not_abandoned (.topic t) ht,
    hkept w.broker.subscriptions (fun s => (naming.triggerForHandle? s.topic).any w.abandoned)
      fun s hs => h.not_abandoned (.subscription s) hs]

theorem World.Tidy.sweepReport_eq (h : w.Tidy naming) (hw : w.Integrity) :
    w.sweepReport naming = ⟨0, 0, 0, 0, 0⟩ := by
  have hzero : forall {α : Type} (items : List α) (p : α -> Bool),
      (forall a, a ∈ items -> p a = false) -> items.countP p = 0 := by
    intro α items p hp
    rw [List.countP_eq_zero]
    intro a ha
    rw [hp a ha]
    exact Bool.false_ne_true
  rw [TelemetryTriggers.sweepReport_eq naming hw, World.skipped,
    hzero w.store.triggers (fun t => w.abandoned t.id)
      fun t ht => h.not_abandoned (.trigger t) ht,
    hzero w.engine.rules (fun r => (naming.triggerForRule? r.name).any w.abandoned)
      fun r hr => h.not_abandoned (.rule r) hr,
    hzero w.broker.topics (fun t => (naming.triggerForTopic? t.name).any w.abandoned)
      fun t ht => h.not_abandoned (.topic t) ht,
    hzero w.store.triggers (fun t => w.inFlight t.id)
      fun t ht => h.not_inFlight (.trigger t) ht,
    hzero w.engine.rules (fun r => (naming.triggerForRule? r.name).any w.inFlight)
      fun r hr => h.not_inFlight (.rule r) hr,
    hzero w.broker.topics (fun t => (naming.triggerForTopic? t.name).any w.inFlight)
      fun t ht => h.not_inFlight (.topic t) ht]

end Tidy

/-!
# Convergence
-/

/-- What a sweep of a world leaves behind and reports. -/
structure World.Converged (naming : ResourceNaming) (w : World) (report : RecoveryReport)
    (v : World) : Prop where
  failures : report.failures = 0
  drafts : forall t, t ∈ v.store.triggers -> t.isProvisioned = false ->
    w.locks.isHeld t.id = true
  rules : forall r id, r ∈ v.engine.rules -> naming.triggerForRule? r.name = some id ->
    v.store.isCommitted id = false -> w.locks.isHeld id = true
  topics : forall t id, t ∈ v.broker.topics -> naming.triggerForTopic? t.name = some id ->
    v.store.isCommitted id = false -> w.locks.isHeld id = true
  draftsPurged : report.draftsPurged + v.store.triggers.length = w.store.triggers.length
  rulesRemoved : report.rulesRemoved + v.engine.rules.length = w.engine.rules.length
  topicsRemoved : report.topicsRemoved + v.broker.topics.length = w.broker.topics.length
  skippedInFlight : report.skippedInFlight =
    (w.store.triggers.countP fun t => w.locks.isHeld t.id && !t.isProvisioned) +
      (w.engine.rules.countP fun r => (naming.triggerForRule? r.name).any w.inFlight) +
      w.broker.topics.countP fun t => (naming.triggerForTopic? t.name).any w.inFlight
  triggersKept : v.store.triggers = w.store.triggers.filter fun t =>
    w.locks.isHeld t.id || w.store.isCommitted t.id
  targetsKept : v.store.targets = w.store.targets.filter fun r =>
    w.locks.isHeld r.trigger || w.store.isCommitted r.trigger
  rulesKept : v.engine.rules = w.engine.rules.filter fun r =>
    (naming.triggerForRule? r.name).all fun id =>
      w.locks.isHeld id || w.store.isCommitted id
  topicsKept : v.broker.topics = w.broker.topics.filter fun t =>
    (naming.triggerForTopic? t.name).all fun id =>
      w.locks.isHeld id || w.store.isCommitted id
  provisioned : forall id, v.store.isCommitted id = w.store.isCommitted id
  things : v.store.things = w.store.things
  deliveries : v.broker.deliveries = w.broker.deliveries
  locks : v.locks = w.locks

theorem not_abandoned (w : World) (id : TriggerId) :
    (!w.abandoned id) = (w.locks.isHeld id || w.store.isCommitted id) := by
  rw [World.abandoned, Bool.not_and, Bool.not_not, Bool.not_not]

theorem not_any_abandoned (w : World) (owner : Option TriggerId) :
    (!owner.any w.abandoned) =
      owner.all fun id => w.locks.isHeld id || w.store.isCommitted id := by
  cases owner with
  | none => rfl
  | some id => exact not_abandoned w id

theorem countP_add_length {α : Type} (p : α -> Bool) (items : List α) :
    items.countP p + (items.filter fun a => !p a).length = items.length := by
  rw [List.countP_eq_length_filter]
  exact (List.length_eq_length_filter_add p).symm

theorem isHeld_of_kept {w : World} {owner : Option TriggerId} {id : TriggerId}
    (h : (!owner.any w.abandoned) = true) (howner : owner = some id)
    (hdraft : w.store.isCommitted id = false) : w.locks.isHeld id = true := by
  rw [not_any_abandoned, howner, Option.all_some, hdraft, Bool.or_false] at h
  exact h

theorem converged_swept (naming : ResourceNaming) {w v : World} (hw : w.Integrity)
    (hv : exists p, v = { w.swept naming with faults := p }) :
    w.Converged naming (w.sweepReport naming) v := by
  rcases hv with ⟨p, rfl⟩
  have hreport := sweepReport_eq naming hw
  constructor
  case failures => rw [hreport]
  case drafts =>
    intro t ht hdraft
    rcases List.mem_filter.mp ht with ⟨ht, hkept⟩
    have hkept : (!(some t.id).any w.abandoned) = true := hkept
    rw [← hw.store.isCommitted_row ht] at hdraft
    exact isHeld_of_kept hkept rfl hdraft
  case rules =>
    intro r id hr howner hdraft
    rcases List.mem_filter.mp hr with ⟨_, hkept⟩
    exact isHeld_of_kept hkept howner ((isCommitted_swept naming w id).symm.trans hdraft)
  case topics =>
    intro t id ht howner hdraft
    rcases List.mem_filter.mp ht with ⟨_, hkept⟩
    exact isHeld_of_kept hkept howner ((isCommitted_swept naming w id).symm.trans hdraft)
  case draftsPurged =>
    rw [hreport]
    exact countP_add_length _ _
  case rulesRemoved =>
    rw [hreport]
    exact countP_add_length _ _
  case topicsRemoved =>
    rw [hreport]
    exact countP_add_length _ _
  case skippedInFlight =>
    have hrows : (w.store.triggers.countP fun t => w.inFlight t.id) =
        w.store.triggers.countP fun t => w.locks.isHeld t.id && !t.isProvisioned := by
      apply List.countP_congr
      intro t ht
      rw [World.inFlight, hw.store.isCommitted_row ht]
    rw [hreport, ← hrows]
    rfl
  case triggersKept => exact List.filter_congr fun t _ => not_abandoned w t.id
  case targetsKept => exact List.filter_congr fun r _ => not_abandoned w r.trigger
  case rulesKept => exact List.filter_congr fun r _ => not_any_abandoned w _
  case topicsKept => exact List.filter_congr fun t _ => not_any_abandoned w _
  case provisioned => exact isCommitted_swept naming w
  case things => rfl
  case deliveries => rfl
  case locks => rfl

/-- A sweep that meets no fault succeeds, whatever is locked.  It removes exactly
what belongs to triggers that are neither locked nor provisioned, and a second sweep
finds nothing more to do. -/
theorem World.Reachable.sweep_converges {w : World} (hw : w.Reachable)
    (naming : ResourceNaming) {deadline : Nat}
    (hfaults : w.faults.Within noFault deadline) :
    exists report v,
      (sweep naming).run.run deadline w = (.ok report, v) ∧ w.Converged naming report v ∧
        exists v',
          (sweep naming).run.run deadline v =
              (.ok ⟨0, 0, 0, report.skippedInFlight, 0⟩, v') ∧
            v'.store = v.store ∧ v'.broker = v.broker ∧ v'.engine = v.engine ∧
              v'.locks = v.locks := by
  have hfirst := play_sweep naming hw.integrity
  rcases Saga.run_of_harmless hfaults (sweep naming).run with ⟨p, hp, hrun⟩
  rw [hfirst] at hrun
  have hconverged := converged_swept naming hw.integrity ⟨p, rfl⟩
  refine ⟨_, _, hrun, hconverged, ?_⟩
  -- The second sweep plays on what the first one left, under its worn plan.
  have hswept := (sweep naming).run.integrity_play hw.integrity
  rw [hfirst] at hswept
  have hsecond := (sweep naming).run.play_withFaults (w.swept naming) p
  rw [play_sweep naming hswept, swept_swept, sweepReport_swept naming hw.integrity] at hsecond
  rcases Saga.run_of_harmless (w := { w.swept naming with faults := p }) hp
    (sweep naming).run with ⟨q, _, hrun'⟩
  rw [hsecond] at hrun'
  exact ⟨_, hrun', rfl, rfl, rfl, rfl⟩

theorem World.Reachable.calls (calls : List Call) {w : World} (hw : w.Reachable) :
    World.Reachable (calls.foldl (fun w c => (c.perform w).2) w) := by
  induction calls generalizing w with
  | nil => exact hw
  | cons c calls ih => exact ih (hw.call c)

/-- Two drafts of which the second is being worked on, with a topic named after the
first, a rule named after the second and a topic that belongs to no trigger. -/
def attic : World :=
  let naming := Config.standard.naming
  let condition : Condition := ⟨"temp", .greaterThan, 30⟩
  let draft (n : Nat) : Trigger :=
    ⟨⟨Uuid.ofNat n⟩, ⟨7⟩, ⟨1⟩, condition, "Too hot", none⟩
  let calls : List Call :=
    [.insertTrigger (draft 1), .insertTrigger (draft 2), .createTopic "weather",
      .createTopic (naming.topicName ⟨Uuid.ofNat 1⟩),
      .installRule (naming.ruleName ⟨Uuid.ofNat 2⟩) ⟨"thermostat", condition, "Too hot", ""⟩
        (Broker.handleFor "weather")]
  { calls.foldl (fun w c => (c.perform w).2) (.ofThings [] ⟨Uuid.ofNat, 0⟩) with
    locks := ⟨[⟨Uuid.ofNat 2⟩]⟩ }

theorem attic_converges :
    exists report v,
      (sweep Config.standard.naming).run.run 1000 attic = (.ok report, v) ∧
        attic.Converged Config.standard.naming report v ∧
          exists v',
            (sweep Config.standard.naming).run.run 1000 v =
                (.ok ⟨0, 0, 0, report.skippedInFlight, 0⟩, v') ∧
              v'.store = v.store ∧ v'.broker = v.broker ∧ v'.engine = v.engine ∧
                v'.locks = v.locks := by
  have hreachable : attic.Reachable := ((World.Reachable.start _ _).calls _).around _ _ _
  apply hreachable.sweep_converges
  exact FaultPlan.within_of_calm rfl 1000

end TelemetryTriggers
