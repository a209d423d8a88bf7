import TelemetryTriggers.Config
import TelemetryTriggers.Lifecycle.Query

/-!
# Recovery

Work that dies halfway can leave a draft, a rule or a topic that no provisioned
trigger owns.  A sweep removes them.  A trigger that other work is running on is
skipped, and each candidate is looked up again under its lock, so a trigger that
was provisioned after the listing is never touched.

Main definitions: `Candidate`, with `Candidate.visit`; `sweep`, which visits the
drafts, the rules and the topics in this order; `RecoveryReport`.
-/

namespace TelemetryTriggers

structure RecoveryReport where
  draftsPurged : Nat
  rulesRemoved : Nat
  topicsRemoved : Nat
  skippedInFlight : Nat
  failures : Nat
deriving DecidableEq

def RecoveryReport.isClean (r : RecoveryReport) : Bool :=
  r == ⟨0, 0, 0, 0, 0⟩

/-- Something that may have been left behind: the trigger that it belongs to and
what removes it. -/
structure Candidate where
  trigger : TriggerId
  removal : Operation Unit

inductive Visit
  | removed
  | busy
  | owned
  | failed
deriving DecidableEq

/-- Removes a candidate under the lock of its trigger, unless the lock is held or a
provisioned trigger owns the candidate. -/
def Candidate.visit (c : Candidate) : Saga Visit :=
  .acquire c.trigger fun free =>
    if free then
      .call (.getTrigger c.trigger) fun
        | .error _ => .release c.trigger (.done .failed)
        | .ok row =>
            if Option.any Trigger.isProvisioned row then
              .release c.trigger (.done .owned)
            else
              c.removal.run.bind fun
                | .ok _ => .release c.trigger (.done .removed)
                | .error _ => .release c.trigger (.done .failed)
    else
      .done .busy

def visitAll : List Candidate → Saga (List Visit)
  | [] => .done []
  | c :: cs => do
      let visit ← c.visit
      let visits ← visitAll cs
      pure (visit :: visits)

/-- Removes the subscriptions and the rows of targets; the first failure ends it. -/
def purgeTargets : List Target → Operation Unit
  | [] => pure ()
  | target :: targets => do
      .ensureGone (.unsubscribe target.subscription)
      .ensureGone (.deleteTarget target.id)
      purgeTargets targets

def purgeDraft (id : TriggerId) : Operation Unit := do
  let targets : List Target ← .ask (.listTargets id)
  purgeTargets targets
  .ensureGone (.deleteTrigger id)

namespace Candidate

def ofRow? (row : Trigger) : Option Candidate :=
  if row.isProvisioned then none else some ⟨row.id, purgeDraft row.id⟩

def ofRule? (naming : ResourceNaming) (provisioned : List TriggerId) (rule : RuleInfo) :
    Option Candidate :=
  match naming.triggerForRule? rule.name with
  | none => none
  | some id =>
      if provisioned.contains id then none
      else some ⟨id, .ensureGone (.removeRule rule.handle)⟩

def ofTopic? (naming : ResourceNaming) (provisioned : List TriggerId) (topic : Topic) :
    Option Candidate :=
  match naming.triggerForTopic? topic.name with
  | none => none
  | some id =>
      if provisioned.contains id then none
      else some ⟨id, .ensureGone (.deleteTopic topic.handle)⟩

end Candidate

def RecoveryReport.ofVisits (drafts rules topics : List Visit) : RecoveryReport where
  draftsPurged := drafts.count .removed
  rulesRemoved := rules.count .removed
  topicsRemoved := topics.count .removed
  skippedInFlight := drafts.count .busy + rules.count .busy + topics.count .busy
  failures := drafts.count .failed + rules.count .failed + topics.count .failed

/-- Removes what interrupted work left behind.  Only a listing that fails is a
failure of the sweep. -/
def sweep (naming : ResourceNaming) : Operation RecoveryReport := do
  let rows : List Trigger ← .ask .listAllTriggers
  let provisioned := (rows.filter (·.isProvisioned)).map (·.id)
  let drafts ← .ofSaga (visitAll (rows.filterMap Candidate.ofRow?))
  let listedRules : List RuleInfo ← .ask .listRules
  let rules ← .ofSaga (visitAll (listedRules.filterMap (Candidate.ofRule? naming provisioned)))
  let listedTopics : List Topic ← .ask .listTopics
  let topics ←
    .ofSaga (visitAll (listedTopics.filterMap (Candidate.ofTopic? naming provisioned)))
  pure (.ofVisits drafts rules topics)

def recover (config : Config) : Operation RecoveryReport :=
  .detached (sweep config.naming)

end TelemetryTriggers
