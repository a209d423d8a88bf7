import TelemetryTriggers.Recovery
import TelemetryTriggers.Saga.Undo

/-!
# What a sweep counts

The counters of a sweep stand for its own removals that found nothing to complain about: each
of them removed something, or what it was to remove was absent by then.  This is so whatever
the calls of the sweep are answered, so it does not matter what goes on around it.

Main definitions: `Leftover`, the kinds of things that are counted; `Saga.Counts`, how many
calls of a kind a saga has settled when it ends.  The main statement is `sweep_counts`.
-/

namespace TelemetryTriggers

inductive Leftover
  | draft
  | rule
  | topic
deriving DecidableEq

def Call.removes? : Call -> Option Leftover
  | deleteTrigger _ => some .draft
  | removeRule _ => some .rule
  | deleteTopic _ => some .topic
  | _ => none

def RecoveryReport.removed (report : RecoveryReport) : Leftover -> Nat
  | .draft => report.draftsPurged
  | .rule => report.rulesRemoved
  | .topic => report.topicsRemoved

def Call.counts (kind : Leftover) (c : Call) (reply : Except ServiceError c.Reply) : Nat :=
  if c.removes? = some kind ∧ Undo.isFailure reply = false then 1 else 0

/-!
# Counting calls
-/

namespace Saga

/-- Whatever the saga is answered, its result fits the number of calls that count, if a number
of them were counted before. -/
def Counts {α : Type} (kind : Leftover) (Q : Nat -> α -> Prop) : Nat -> Saga α -> Prop
  | n, .done a => Q n a
  | n, .call c next => forall reply, Counts kind Q (n + c.counts kind reply) (next reply)
  | n, .acquire _ next => forall free, Counts kind Q n (next free)
  | n, .release _ next => Counts kind Q n next
  | n, .isHeld _ next => forall held, Counts kind Q n (next held)
  | n, .draw next => forall u, Counts kind Q n (next u)
  | n, .detach next => Counts kind Q n next

variable {α β : Type} {kind : Leftover} {Q : Nat -> α -> Prop} {R : Nat -> β -> Prop} {n : Nat}

theorem Counts.bind {s : Saga α} {f : α -> Saga β} (h : s.Counts kind Q n)
    (hf : forall m a, Q m a -> (f a).Counts kind R m) : (s.bind f).Counts kind R n := by
  induction s generalizing n with
  | done a => exact hf n a h
  | call c next ih => exact fun reply => ih reply (h reply)
  | acquire id next ih => exact fun free => ih free (h free)
  | release id next ih => exact ih h
  | isHeld id next ih => exact fun held => ih held (h held)
  | draw next ih => exact fun u => ih u (h u)
  | detach next ih => exact ih h

theorem Counts.mono {R : Nat -> α -> Prop} {s : Saga α} (h : s.Counts kind Q n)
    (hQ : forall m a, Q m a -> R m a) : s.Counts kind R n := by
  rw [← s.bind_done]
  exact h.bind hQ

end Saga

namespace Operation

structure Counts {α : Type} (kind : Leftover) (weight : Nat) (op : Operation α) : Prop where
  run : forall n, Saga.Counts kind
    (fun m r => (forall a, r = .ok a -> m = n + weight) ∧ forall e, r = .error e -> m = n) n op.run

namespace Counts

variable {α β : Type} {kind : Leftover} {weight : Nat}

theorem pure (a : α) : Counts kind 0 (Pure.pure a) :=
  ⟨fun _ => ⟨fun _ _ => rfl, nofun⟩⟩

theorem bind {op : Operation α} {f : α -> Operation β} (h : Counts kind 0 op)
    (hf : forall a, Counts kind weight (f a)) : Counts kind weight (op >>= f) := by
  constructor
  intro n
  apply (h.run n).bind
  rintro m r ⟨hok, herror⟩
  cases r with
  | ok a =>
      rw [hok a rfl]
      exact (hf a).run n
  | error e =>
      rw [herror e rfl]
      exact ⟨nofun, fun _ _ => rfl⟩

theorem ask {c : Call} (h : c.removes? ≠ some kind) : Counts kind 0 (Operation.ask c) := by
  constructor
  intro n reply
  rw [Call.counts, if_neg fun hboth => h hboth.1]
  cases reply with
  | ok r => exact ⟨fun _ _ => rfl, nofun⟩
  | error e => exact ⟨nofun, fun _ _ => rfl⟩

theorem ensureGone (c : Call) :
    Counts kind (if c.removes? = some kind then 1 else 0) (Operation.ensureGone c) := by
  constructor
  intro n reply
  cases reply with
  | ok r =>
      refine ⟨fun _ _ => ?_, nofun⟩
      simp only [Call.counts, Undo.isFailure, and_true]
  | error e =>
      cases hgone : e.isAbsence with
      | true =>
          simp only [hgone, if_true]
          refine ⟨fun _ _ => ?_, nofun⟩
          simp only [Call.counts, Undo.isFailure, hgone, Bool.not_true, and_true]
      | false =>
          simp only [hgone, Bool.false_eq_true, if_false]
          refine ⟨nofun, fun _ _ => ?_⟩
          simp only [Call.counts, Undo.isFailure, hgone, Bool.not_false, Bool.true_eq_false,
            and_false, if_false, Nat.add_zero]

theorem removal {c : Call} {removed : Leftover} (h : c.removes? = some removed) :
    Counts kind (if kind = removed then 1 else 0) (Operation.ensureGone c) := by
  have hremoval : Counts kind _ (Operation.ensureGone c) := ensureGone c
  simp only [h, Option.some.injEq] at hremoval
  simp only [eq_comm (a := kind)]
  exact hremoval

end Counts
end Operation

/-!
# Visits
-/

theorem purgeTargets_counts (kind : Leftover) (targets : List Target) :
    Operation.Counts kind 0 (purgeTargets targets) := by
  induction targets with
  | nil => exact .pure ()
  | cons target targets ih =>
      exact .bind (.ensureGone (.unsubscribe target.subscription)) fun _ =>
        .bind (.ensureGone (.deleteTarget target.id)) fun _ => ih

theorem purgeDraft_counts (kind : Leftover) (id : TriggerId) :
    Operation.Counts kind (if kind = .draft then 1 else 0) (purgeDraft id) :=
  .bind (.ask nofun) fun targets => .bind (purgeTargets_counts kind targets) fun _ =>
    .removal rfl

namespace Candidate

variable {kind : Leftover} {weight : Nat}

theorem visit_counts {c : Candidate} (h : Operation.Counts kind weight c.removal) (n : Nat) :
    c.visit.Counts kind (fun m visit => m = n + if visit = .removed then weight else 0) n := by
  intro free
  cases free with
  | false => rfl
  | true =>
      intro reply
      have hnone : (Call.getTrigger c.trigger).counts kind reply = 0 :=
        if_neg fun hboth => nomatch hboth.1
      rw [hnone]
      cases reply with
      | error e => rfl
      | ok row =>
          simp only
          split
          · rfl
          · apply (h.run n).bind
            rintro m r ⟨hok, herror⟩
            cases r with
            | ok a => exact hok a rfl
            | error e => exact herror e rfl

theorem visitAll_counts {cs : List Candidate}
    (h : forall c, c ∈ cs -> Operation.Counts kind weight c.removal) (n : Nat) :
    (visitAll cs).Counts kind (fun m visits => m = n + visits.count .removed * weight) n := by
  induction cs generalizing n with
  | nil => simp [visitAll, Saga.Counts]
  | cons c cs ih =>
      apply (visit_counts (h c List.mem_cons_self) n).bind
      rintro m visit rfl
      apply (ih (fun other hother => h other (List.mem_cons_of_mem c hother)) _).bind
      rintro m visits rfl
      show n + _ + _ = n + _
      by_cases hvisit : visit = .removed
      · rw [if_pos hvisit, List.count_cons, if_pos (beq_iff_eq.mpr hvisit), Nat.add_mul,
          Nat.one_mul]
        omega
      · rw [if_neg hvisit, List.count_cons_of_ne hvisit]
        omega

theorem ofRow?_counts {row : Trigger} {c : Candidate} (h : ofRow? row = some c) :
    Operation.Counts kind (if kind = .draft then 1 else 0) c.removal := by
  unfold ofRow? at h
  split at h
  · cases h
  · cases h
    exact purgeDraft_counts kind row.id

theorem ofRule?_counts {naming : ResourceNaming} {provisioned : List TriggerId} {rule : RuleInfo}
    {c : Candidate} (h : ofRule? naming provisioned rule = some c) :
    Operation.Counts kind (if kind = .rule then 1 else 0) c.removal := by
  unfold ofRule? at h
  split at h
  · cases h
  · split at h
    · cases h
    · cases h
      exact .removal rfl

theorem ofTopic?_counts {naming : ResourceNaming} {provisioned : List TriggerId} {topic : Topic}
    {c : Candidate} (h : ofTopic? naming provisioned topic = some c) :
    Operation.Counts kind (if kind = .topic then 1 else 0) c.removal := by
  unfold ofTopic? at h
  split at h
  · cases h
  · split at h
    · cases h
    · cases h
      exact .removal rfl

end Candidate

/-!
# Sweeps
-/

namespace Operation

variable {α β : Type} {kind : Leftover} {n : Nat}

def Tallies (kind : Leftover) (n : Nat) (op : Operation α) (Q : Nat -> α -> Prop) : Prop :=
  op.run.Counts kind (fun m r => forall a, r = .ok a -> Q m a) n

theorem Tallies.bind {op : Operation α} {f : α -> Operation β} {Q : Nat -> α -> Prop}
    {R : Nat -> β -> Prop} (h : op.Tallies kind n Q)
    (hf : forall m a, Q m a -> (f a).Tallies kind m R) : (op >>= f).Tallies kind n R := by
  apply Saga.Counts.bind h
  intro m r hr
  cases r with
  | ok a => exact hf m a (hr a rfl)
  | error e => exact nofun

theorem tallies_ask {c : Call} (h : c.removes? ≠ some kind) :
    (Operation.ask c).Tallies kind n fun m _ => m = n :=
  ((Counts.ask h).run n).mono fun _ _ hr => hr.1

theorem tallies_ofSaga {s : Saga α} {Q : Nat -> α -> Prop} (h : s.Counts kind Q n) :
    (Operation.ofSaga s).Tallies kind n Q := by
  apply Saga.Counts.bind h
  rintro m a ha _ ⟨⟩
  exact ha

end Operation

/-- The counters of a sweep say how many of its removals were done or found nothing to do. -/
theorem sweep_counts (kind : Leftover) (naming : ResourceNaming) :
    (sweep naming).Tallies kind 0 fun n report => report.removed kind = n := by
  have hdrafts : forall (rows : List Trigger) n, (Operation.ofSaga
      (visitAll (rows.filterMap Candidate.ofRow?))).Tallies kind n fun m visits =>
        m = n + visits.count .removed * if kind = .draft then 1 else 0 := by
    intro rows n
    apply Operation.tallies_ofSaga (Candidate.visitAll_counts _ n)
    intro c hc
    rcases List.mem_filterMap.mp hc with ⟨row, _, hrow⟩
    exact Candidate.ofRow?_counts hrow
  have hrules : forall provisioned (rules : List RuleInfo) n, (Operation.ofSaga
      (visitAll (rules.filterMap (Candidate.ofRule? naming provisioned)))).Tallies kind n
        fun m visits => m = n + visits.count .removed * if kind = .rule then 1 else 0 := by
    intro provisioned rules n
    apply Operation.tallies_ofSaga (Candidate.visitAll_counts _ n)
    intro c hc
    rcases List.mem_filterMap.mp hc with ⟨rule, _, hrule⟩
    exact Candidate.ofRule?_counts hrule
  have htopics : forall provisioned (topics : List Topic) n, (Operation.ofSaga
      (visitAll (topics.filterMap (Candidate.ofTopic? naming provisioned)))).Tallies kind n
        fun m visits => m = n + visits.count .removed * if kind = .topic then 1 else 0 := by
    intro provisioned topics n
    apply Operation.tallies_ofSaga (Candidate.visitAll_counts _ n)
    intro c hc
    rcases List.mem_filterMap.mp hc with ⟨topic, _, htopic⟩
    exact Candidate.ofTopic?_counts htopic
  apply Operation.Tallies.bind (Operation.tallies_ask (c := .listAllTriggers) nofun)
  rintro _ rows rfl
  apply Operation.Tallies.bind (hdrafts rows 0)
  rintro _ drafts rfl
  apply Operation.Tallies.bind (Operation.tallies_ask (c := .listRules) nofun)
  rintro _ listedRules rfl
  apply Operation.Tallies.bind (hrules _ listedRules _)
  rintro _ rules rfl
  apply Operation.Tallies.bind (Operation.tallies_ask (c := .listTopics) nofun)
  rintro _ listedTopics rfl
  apply Operation.Tallies.bind (htopics _ listedTopics _)
  rintro _ topics rfl _ ⟨⟩
  cases kind <;> simp [RecoveryReport.removed, RecoveryReport.ofVisits]

end TelemetryTriggers
