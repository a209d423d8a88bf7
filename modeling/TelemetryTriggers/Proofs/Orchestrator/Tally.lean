import TelemetryTriggers.Proofs.Orchestrator.Exclusion
import TelemetryTriggers.Proofs.Orchestrator.OneDeletion
import TelemetryTriggers.Proofs.Saga.Count

/-!
# What a sweep removes

Between the listing of a candidate and the visit to it another operation may remove it, and the
sweep then finds nothing to remove.  Its report counts such a visit like one that removed
something.  So the counters say how many things the sweep removed and how often it came too
late, taken together.

Main definitions: `Deed`, a call with the world that it meets; `System.Logged`, a run with the
calls that one operation does in it.  The main statement is `System.Reachable.sweep_tally`.
-/

namespace TelemetryTriggers

/-!
# Deeds
-/

def World.count (w : World) : Leftover -> Nat
  | .draft => w.store.triggers.countP (!·.isProvisioned)
  | .rule => w.engine.rules.length
  | .topic => w.broker.topics.length

structure Deed where
  call : Call
  world : World

namespace Deed

def taken (kind : Leftover) (d : Deed) : Nat :=
  d.world.count kind - (d.call.perform d.world).2.count kind

/-- The call was to remove something of the kind and found it absent. -/
def tooLate (kind : Leftover) (d : Deed) : Bool :=
  d.call.removes? == some kind &&
    match (d.call.perform d.world).1 with
    | .ok _ => false
    | .error e => e.isAbsence

end Deed

namespace Call

variable {c : Call} {w : World} {kind : Leftover}

theorem count_perform (hfounds : ¬ c.Founds) (hother : c.removes? ≠ some kind) :
    (c.perform w).2.count kind = w.count kind := by
  cases kind with
  | draft =>
      rcases c.triggers_perform w with heq | ⟨_, rfl, _⟩ | ⟨_, _, rfl, _⟩ | ⟨_, rfl, _⟩
      · rw [World.count, heq]
        rfl
      · exact absurd trivial hfounds
      · exact absurd trivial hfounds
      · exact absurd rfl hother
  | rule =>
      rcases c.rules_perform w with heq | ⟨_, _, _, rfl, _⟩ | ⟨_, rfl, _⟩
      · rw [World.count, heq]
        rfl
      · exact absurd trivial hfounds
      · exact absurd rfl hother
  | topic =>
      rcases c.topics_perform w with heq | ⟨_, rfl, _⟩ | ⟨_, rfl, _⟩
      · rw [World.count, heq]
        rfl
      · exact absurd trivial hfounds
      · exact absurd rfl hother

theorem count_of_ok (hw : w.Integrity)
    (hdraft : forall id row, c = .deleteTrigger id -> row ∈ w.store.triggers -> row.id = id ->
      row.isProvisioned = false)
    (hkind : c.removes? = some kind) {r : c.Reply} (hok : (c.perform w).1 = .ok r) :
    (c.perform w).2.count kind + 1 = w.count kind := by
  cases c with
  | deleteTrigger id =>
      cases hkind
      simp only [perform, Store.deleteTrigger] at hok ⊢
      split at hok
      · cases hok
      · rename_i htargets
        split at hok
        · rename_i hrow
          rw [if_neg htargets, if_pos hrow]
          rcases List.any_eq_true.mp hrow with ⟨row, hmem, hid⟩
          have hid : row.id = id := by simpa using hid
          rcases hid with rfl
          apply countP_filter_key hw.store.trigger_ids hmem
          rw [hdraft row.id row rfl hmem rfl]
          rfl
        · cases hok
  | removeRule handle =>
      cases hkind
      simp only [perform, RuleEngine.removeRule] at hok ⊢
      split at hok
      · rename_i hrule
        rw [if_pos hrule]
        rcases List.any_eq_true.mp hrule with ⟨rule, hmem, hhandle⟩
        have hhandle : rule.handle = handle := by simpa using hhandle
        rcases hhandle with rfl
        exact length_filter_key hw.engine.handles hmem
      · cases hok
  | deleteTopic handle =>
      cases hkind
      simp only [perform, Broker.deleteTopic] at hok ⊢
      split at hok
      · rename_i htopic
        rw [if_pos htopic]
        rcases List.any_eq_true.mp htopic with ⟨topic, hmem, hhandle⟩
        have hhandle : topic.handle = handle := by simpa using hhandle
        rcases hhandle with rfl
        exact length_filter_key hw.broker.topic_handles hmem
      · cases hok
  | _ => cases hkind

/-- A call of a sweep counts if it takes away one or comes too late. -/
theorem counts_eq (hw : w.Integrity) (hfounds : ¬ c.Founds)
    (hdraft : forall id row, c = .deleteTrigger id -> row ∈ w.store.triggers -> row.id = id ->
      row.isProvisioned = false) :
    c.counts kind (c.perform w).1 =
      Deed.taken kind ⟨c, w⟩ + if Deed.tooLate kind ⟨c, w⟩ then 1 else 0 := by
  by_cases hkind : c.removes? = some kind
  · cases hreply : (c.perform w).1 with
    | ok r =>
        have hone := count_of_ok hw hdraft hkind hreply
        have htaken : Deed.taken kind ⟨c, w⟩ = 1 := by
          show w.count kind - (c.perform w).2.count kind = 1
          omega
        simp only [counts, hkind, Undo.isFailure, htaken, Deed.tooLate, hreply, Bool.and_false,
          Bool.false_eq_true, if_false, and_self, if_true]
    | error e =>
        have hsame : (c.perform w).2 = w := perform_error (Prod.ext hreply rfl)
        have htaken : Deed.taken kind ⟨c, w⟩ = 0 := by
          show w.count kind - (c.perform w).2.count kind = 0
          rw [hsame, Nat.sub_self]
        simp only [counts, hkind, Undo.isFailure, htaken, Deed.tooLate, hreply, beq_self_eq_true,
          Bool.true_and, Bool.not_eq_false', true_and, Nat.zero_add]
  · have htaken : Deed.taken kind ⟨c, w⟩ = 0 := by
      show w.count kind - (c.perform w).2.count kind = 0
      rw [count_perform hfounds hkind, Nat.sub_self]
    have hnot : (c.removes? == some kind) = false := beq_eq_false_iff_ne.mpr hkind
    simp only [counts, hkind, false_and, if_false, htaken, Deed.tooLate, hnot, Bool.false_and,
      Bool.false_eq_true]

end Call

theorem Saga.Counts.step {α : Type} {kind : Leftover} {Q : Nat -> α -> Prop} {n : Nat}
    {fails : Call -> ServiceError -> Prop} {s s' : Saga α} {st st' : Standing} {w v : World}
    (h : s.Counts kind Q n) (hstep : s.Step fails st w st' v s') (hsilent : s.call? = none) :
    s'.Counts kind Q n := by
  cases hstep with
  | call | failure => cases hsilent
  | acquire | busy | isHeld | draw => exact h _
  | release | detach => exact h

/-!
# Runs with the deeds of one operation
-/

namespace System

/-- The first system comes to the second one, and on the way the operation at the place does
these calls.  A call of it that fails is no deed. -/
inductive Logged (config : Config) (fails : Call -> ServiceError -> Prop) (place : Nat)
    (s : System) : List Deed -> System -> Prop
  | here : Logged config fails place s [] s
  | deed {log : List Deed} {w : World} {threads : List Thread} {request : Request}
      {st : Standing} {c : Call}
      {next : Except ServiceError c.Reply -> Saga (Except TriggerError Answer)}
      (h : Logged config fails place s log ⟨w, threads⟩)
      (hplace : threads[place]? = some ⟨request, st, some (.call c next)⟩) :
      Logged config fails place s (log ++ [⟨c, w⟩])
        ⟨(c.perform w).2, threads.set place ⟨request, st, some (next (c.perform w).1)⟩⟩
  | failure {log : List Deed} {w : World} {threads : List Thread} {request : Request}
      {st : Standing} {c : Call}
      {next : Except ServiceError c.Reply -> Saga (Except TriggerError Answer)}
      {e : ServiceError} (h : Logged config fails place s log ⟨w, threads⟩)
      (hplace : threads[place]? = some ⟨request, st, some (.call c next)⟩) (he : fails c e) :
      Logged config fails place s log
        ⟨w, threads.set place ⟨request, st, some (next (.error e))⟩⟩
  | silent {log : List Deed} {w v : World} {threads : List Thread} {request : Request}
      {st st' : Standing} {work work' : Saga (Except TriggerError Answer)}
      (h : Logged config fails place s log ⟨w, threads⟩)
      (hplace : threads[place]? = some ⟨request, st, some work⟩)
      (hstep : work.Step fails st w st' v work') (hsilent : work.call? = none) :
      Logged config fails place s log ⟨v, threads.set place ⟨request, st', some work'⟩⟩
  | other {log : List Deed} {t u : System} (h : Logged config fails place s log t)
      (hstep : Step config fails t u)
      (hkept : forall request st work, u.threads[place]? = some ⟨request, st, some work⟩ ->
        t.threads[place]? = some ⟨request, st, some work⟩) :
      Logged config fails place s log u

variable {config : Config} {fails : Call -> ServiceError -> Prop} {things : List Thing}
  {ids : IdSource} {s t u : System} {place : Nat} {log : List Deed}

theorem Logged.steps (h : Logged config fails place s log t) :
    Relation.ReflTransGen (Step config fails) s t := by
  induction h with
  | here => exact .refl
  | deed h hplace ih => exact ih.tail (.move (.move hplace (.call _ _ _ _)))
  | failure h hplace he ih => exact ih.tail (.move (.move hplace (.failure _ _ _ _ _ he)))
  | silent h hplace hstep hsilent ih => exact ih.tail (.move (.move hplace hstep))
  | other h hstep hkept ih => exact ih.tail hstep

theorem Step.kept (hstep : Step config fails t u) (hother : ¬ Moves fails place t u)
    (hinside : place < t.threads.length) {request : Request} {st : Standing}
    {work : Saga (Except TriggerError Answer)}
    (hplace : u.threads[place]? = some ⟨request, st, some work⟩) :
    t.threads[place]? = some ⟨request, st, some work⟩ := by
  cases hstep with
  | start request w threads =>
      rw [List.getElem?_append_left hinside] at hplace
      exact hplace
  | @move mover _ _ hmoves =>
      cases hmoves with
      | move hmover hmove =>
          rcases getElem?_set_cases hplace with ⟨rfl, _⟩ | ⟨_, hold⟩
          · exact absurd (.move hmover hmove) hother
          · exact hold
  | abandon hmine =>
      rcases getElem?_set_cases hplace with ⟨_, hdropped⟩ | ⟨_, hold⟩
      · cases hdropped
      · exact hold
  | replan => exact hplace
  | dispatch => exact hplace
  | restart w threads =>
      rcases getElem?_dropped_cases hplace with ⟨old, _, hdropped⟩
      cases hdropped

theorem Logged.step (h : Logged config fails place s log t) (hinside : place < t.threads.length)
    (hstep : Step config fails t u) : exists log, Logged config fails place s log u := by
  by_cases hmine : Moves fails place t u
  · cases hmine with
    | @move w v threads request st st' work work' hplace hmove =>
        cases work with
        | call c next =>
            cases hmove with
            | call => exact ⟨_, h.deed hplace⟩
            | failure c next st w e he => exact ⟨_, h.failure hplace he⟩
        | _ => exact ⟨_, h.silent hplace hmove rfl⟩
  · exact ⟨log, h.other hstep fun _ _ _ => hstep.kept hmine hinside⟩

theorem exists_logged (hinside : place < s.threads.length)
    (hsteps : Relation.ReflTransGen (Step config fails) s t) :
    exists log, Logged config fails place s log t := by
  have hrun : place < t.threads.length ∧ exists log, Logged config fails place s log t := by
    induction hsteps with
    | refl => exact ⟨hinside, [], .here⟩
    | tail _ hstep ih =>
        rcases ih with ⟨hlater, log, hlog⟩
        exact ⟨Nat.lt_of_lt_of_le hlater hstep.length_le, hlog.step hlater hstep⟩
  exact hrun.2

/-!
# The report of a sweep
-/

def tally (kind : Leftover) (log : List Deed) : Nat :=
  (log.map (Deed.taken kind)).sum + log.countP (Deed.tooLate kind)

theorem tally_concat (kind : Leftover) (log : List Deed) (d : Deed) :
    tally kind (log ++ [d]) =
      tally kind log + (d.taken kind + if d.tooLate kind then 1 else 0) := by
  rw [tally, tally, List.map_append, List.sum_append, List.countP_append, List.map_singleton,
    List.sum_singleton, List.countP_singleton]
  omega

def Reports (kind : Leftover) (n : Nat) (r : Except TriggerError Answer) : Prop :=
  forall report, r = .ok (.recovered report) -> report.removed kind = n

theorem recover_reports (config : Config) (kind : Leftover) :
    (Request.recover.operation config).run.Counts kind (Reports kind) 0 := by
  have hsweep : (recover config).Tallies kind 0 fun n report => report.removed kind = n :=
    sweep_counts kind config.naming
  have hrecover := hsweep.bind (f := fun report => pure (Answer.recovered report))
    (R := fun n answer => forall report, answer = .recovered report -> report.removed kind = n) ?_
  · apply Saga.Counts.mono hrecover
    intro n r hr report hreport
    exact hr _ hreport report rfl
  · rintro n report hreport _ ⟨⟩ _ ⟨⟩
    exact hreport

theorem Reachable.deletes_draft (hs : Reachable config fails things ids s) {st : Standing}
    {c : Call} {next : Except ServiceError c.Reply -> Saga (Except TriggerError Answer)}
    (hplace : s.threads[place]? = some ⟨.recover, st, some (.call c next)⟩) {id : TriggerId}
    {row : Trigger} (hc : c = .deleteTrigger id) (hrow : row ∈ s.world.store.triggers)
    (hid : row.id = id) : row.isProvisioned = false := by
  subst hc
  rcases hs.ordered.reads_or_permitted hplace with hreads | ⟨mine, _, hpermitted⟩
  · exact hreads.elim
  · have habout : id = mine := hpermitted.about (Or.inr fun honTargets => honTargets)
    rw [Bool.eq_false_iff]
    intro hprovisioned
    have hdelete := hpermitted.spares (Or.inl rfl) row hrow (hid.trans habout) hprovisioned
    cases hdelete

theorem Logged.counting (h : Logged config fails place s log t)
    (hs : Reachable config fails things ids s)
    (hfaults : forall c e, fails c e -> e.isAbsence = false)
    (hplace : s.threads[place]? = some (.start config .recover)) (kind : Leftover) :
    Reachable config fails things ids t ∧
      forall request st work, t.threads[place]? = some ⟨request, st, some work⟩ ->
        request = .recover ∧ work.Counts kind (Reports kind) (tally kind log) := by
  induction h with
  | here =>
      refine ⟨hs, ?_⟩
      intro request st work hwork
      cases hplace.symm.trans hwork
      exact ⟨rfl, recover_reports config kind⟩
  | @deed log w threads request st c next h hmine ih =>
      rcases ih with ⟨hreached, hcounts⟩
      rcases hcounts _ _ _ hmine with ⟨rfl, hcounted⟩
      refine ⟨hreached.step (.move (.move hmine (.call c next st w))), ?_⟩
      intro request' st' work' hwork
      rw [List.getElem?_set_self (List.getElem?_eq_some_iff.mp hmine).1] at hwork
      cases hwork
      refine ⟨rfl, ?_⟩
      have hfounds : ¬ c.Founds :=
        (hreached.wellNamed.rest _ (List.mem_of_getElem? hmine) _ rfl).1
      rw [tally_concat, ← Call.counts_eq hreached.ordered.inv.integrity hfounds]
      · exact hcounted _
      · exact fun id row hc hrow hid => hreached.deletes_draft hmine hc hrow hid
  | @failure log w threads request st c next e h hmine he ih =>
      rcases ih with ⟨hreached, hcounts⟩
      rcases hcounts _ _ _ hmine with ⟨rfl, hcounted⟩
      refine ⟨hreached.step (.move (.move hmine (.failure c next st w e he))), ?_⟩
      intro request' st' work' hwork
      rw [List.getElem?_set_self (List.getElem?_eq_some_iff.mp hmine).1] at hwork
      cases hwork
      have hnone : c.counts kind (.error e) = 0 := by
        simp only [Call.counts, Undo.isFailure, hfaults c e he, Bool.not_false,
          Bool.true_eq_false, and_false, if_false]
      have hnext := hcounted (.error e)
      rw [hnone] at hnext
      exact ⟨rfl, hnext⟩
  | @silent log w v threads request st st' work work' h hmine hstep hsilent ih =>
      rcases ih with ⟨hreached, hcounts⟩
      rcases hcounts _ _ _ hmine with ⟨rfl, hcounted⟩
      refine ⟨hreached.step (.move (.move hmine hstep)), ?_⟩
      intro request' st'' work'' hwork
      rw [List.getElem?_set_self (List.getElem?_eq_some_iff.mp hmine).1] at hwork
      cases hwork
      exact ⟨rfl, hcounted.step hstep hsilent⟩
  | other h hstep hkept ih =>
      exact ⟨ih.1.step hstep, fun request st work hwork => ih.2 _ _ _ (hkept _ _ _ hwork)⟩

/-- If no fault feigns absence, the report of a sweep says of each kind how many the sweep took
away and how often it came too late, taken together. -/
theorem Reachable.sweep_tally (hs : Reachable config fails things ids s)
    (hfaults : forall c e, fails c e -> e.isAbsence = false)
    (hplace : s.threads[place]? = some (.start config .recover)) :
    (forall t, Relation.ReflTransGen (Step config fails) s t ->
      exists log, Logged config fails place s log t) ∧
    forall t log report, Logged config fails place s log t ->
      t.answer? place = some (.ok (.recovered report)) -> forall kind,
        report.removed kind =
          (log.map (Deed.taken kind)).sum + log.countP (Deed.tooLate kind) := by
  constructor
  · exact fun t hsteps => exists_logged (List.getElem?_eq_some_iff.mp hplace).1 hsteps
  · intro t log report hlog hanswer kind
    rcases answer?_eq_some hanswer with ⟨request, st, hdone⟩
    exact ((hlog.counting hs hfaults hplace kind).2 _ _ _ hdone).2 report rfl

/-!
# A sweep that comes too late
-/

def deedsBy (place : Nat) : System -> List Nat -> List Deed
  | _, [] => []
  | s, next :: places =>
      (if next = place then (s.call? place).toList.map (⟨·, s.world⟩) else []) ++
        deedsBy place (s.go next) places

theorem Logged.trans {log' : List Deed} (h : Logged config fails place s log t)
    (hlater : Logged config fails place t log' u) :
    Logged config fails place s (log ++ log') u := by
  induction hlater with
  | here =>
      rw [List.append_nil]
      exact h
  | deed _ hplace ih =>
      rw [← List.append_assoc]
      exact ih.deed hplace
  | failure _ hplace he ih => exact ih.failure hplace he
  | silent _ hplace hstep hsilent ih => exact ih.silent hplace hstep hsilent
  | other _ hstep hkept ih => exact ih.other hstep hkept

theorem logged_go (config : Config) (fails : Call -> ServiceError -> Prop) (s : System)
    (place next : Nat) :
    Logged config fails place s
      (if next = place then (s.call? place).toList.map (⟨·, s.world⟩) else []) (s.go next) := by
  rcases s with ⟨w, threads⟩
  rcases go_calls ⟨w, threads⟩ next with ⟨hsame, hnone⟩ |
    ⟨request, st, st', v, work, work', hnext, hstep, hgo, hcall⟩
  · have hdeeds : (if next = place then
        ((call? place ⟨w, threads⟩).toList.map fun c => Deed.mk c w) else []) = [] := by
      split
      · rename_i heq
        rw [← heq, hnone]
        rfl
      · rfl
    rw [hdeeds, hsame]
    exact .here
  · rw [hgo]
    by_cases hmine : next = place
    · subst hmine
      rw [if_pos rfl, hcall]
      cases work with
      | call c next =>
          cases hstep with
          | call => exact Logged.here.deed hnext
          | failure _ _ _ _ e he => exact he.elim
      | _ => exact Logged.here.silent hnext hstep.of_noFault rfl
    · rw [if_neg hmine]
      apply Logged.here.other (.move (.move hnext hstep.of_noFault))
      intro request st work hplace
      rw [List.getElem?_set_ne hmine] at hplace
      exact hplace

theorem logged_follow (config : Config) (fails : Call -> ServiceError -> Prop) (s : System)
    (place : Nat) (places : List Nat) :
    Logged config fails place s (s.deedsBy place places) (s.follow places) := by
  induction places generalizing s with
  | nil => exact .here
  | cons next places ih => exact (logged_go config fails s place next).trans (ih (s.go next))

def crashed : System :=
  home.play .standard (.start (.create Lifecycle.heatAlarm) :: List.replicate 5 (.go 0) ++
    [.restart])

def forsaken : System :=
  crashed.play .standard ([.recover, .delete ⟨7⟩ ⟨Uuid.ofNat 0⟩].map .start)

/-- When the sweep has listed the draft, the whole deletion happens, and then the sweep goes on. -/
def belated : List Nat :=
  List.replicate 2 1 ++ List.replicate 8 2 ++ List.replicate 8 1

theorem forsaken_reachable :
    Reachable .standard noFault [⟨⟨1⟩, "thermostat", ⟨7⟩⟩] ⟨Uuid.ofNat, 0⟩ forsaken :=
  (home_reachable.play _).play _

theorem forsaken_sweeps : forsaken.threads[1]? = some (.start .standard .recover) := by
  have hlength : crashed.threads.length = 1 := by decide +kernel
  rw [forsaken, play_starts, List.getElem?_append_right (by omega), hlength]
  rfl

theorem belated_reported :
    (forsaken.follow belated).answer? 1 = some (.ok (.recovered ⟨1, 0, 0, 0, 0⟩)) := by
  decide +kernel

theorem forsaken_sweep_tally :
    forsaken.threads[1]? = some (.start .standard .recover) ∧
      Logged .standard noFault 1 forsaken (forsaken.deedsBy 1 belated)
        (forsaken.follow belated) ∧
      (forsaken.follow belated).answer? 1 = some (.ok (.recovered ⟨1, 0, 0, 0, 0⟩)) ∧
      forall kind, (RecoveryReport.mk 1 0 0 0 0).removed kind =
        ((forsaken.deedsBy 1 belated).map (Deed.taken kind)).sum +
          (forsaken.deedsBy 1 belated).countP (Deed.tooLate kind) := by
  have hlogged := logged_follow .standard noFault forsaken 1 belated
  rcases forsaken_reachable.sweep_tally (fun _ _ he => he.elim) forsaken_sweeps with ⟨_, htally⟩
  exact ⟨forsaken_sweeps, hlogged, belated_reported, htally _ _ _ hlogged belated_reported⟩

/-- The report of the sweep counts a draft that the sweep has not removed. -/
theorem forsaken_miscounted :
    exists log report,
      Reachable .standard noFault [⟨⟨1⟩, "thermostat", ⟨7⟩⟩] ⟨Uuid.ofNat, 0⟩ forsaken ∧
        forsaken.threads[1]? = some (.start .standard .recover) ∧
        Logged .standard noFault 1 forsaken log (forsaken.follow belated) ∧
        (forsaken.follow belated).answer? 1 = some (.ok (.recovered report)) ∧
        report.draftsPurged = 1 ∧ (log.map (Deed.taken .draft)).sum = 0 := by
  have hnone : ((forsaken.deedsBy 1 belated).map (Deed.taken .draft)).sum = 0 := by
    decide +kernel
  exact ⟨_, _, forsaken_reachable, forsaken_sweeps,
    logged_follow .standard noFault forsaken 1 belated, belated_reported, rfl, hnone⟩

end System
end TelemetryTriggers
