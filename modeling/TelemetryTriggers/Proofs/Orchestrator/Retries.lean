import TelemetryTriggers.Proofs.Lifecycle.Deletion
import TelemetryTriggers.Proofs.Orchestrator.Committed
import TelemetryTriggers.Proofs.Services.Fanout

/-!
# Deletions can be tried again

A deletion that fails leaves the row of its trigger in place and adds nothing, so it
can be tried again, however often it fails and wherever.  The first attempt that meets
no fault leaves nothing of the trigger, and nothing is delivered on its topic any more.

Main definitions: `Lifecycle.Attempts`, deletions that failed; `World.Onward`, what can
happen later; `World.Rid`, what there is after a deletion.  The main statement is
`System.Reachable.deletion_retried`.
-/

namespace TelemetryTriggers

abbrev noAbsence : Call -> ServiceError -> Prop :=
  fun _ e => e.isAbsence = false

/-- Deletions that failed, each under a plan of its own, lead from the first world to
the second. -/
inductive Lifecycle.Attempts (config : Config) (user : UserId) (id : TriggerId) :
    World -> World -> Prop
  | none (w : World) : Attempts config user id w w
  | failed {w u v : World} {faults : FaultPlan} {e : TriggerError}
      (h : Attempts config user id w u)
      (hplan : faults.Within noAbsence config.callTimeout)
      (hrun : (delete config user id).run.run config.callTimeout { u with faults } =
        (.error e, v)) :
      Attempts config user id w v

/-!
# Nothing is delivered on a topic that is gone
-/

/-- Calls, updates and whatever happens around them lead from the first world to the
second, and the topic of the name is not created. -/
inductive World.Onward (name : String) : World -> World -> Prop
  | refl (w : World) : Onward name w w
  | call {w v : World} (c : Call) (hc : c ≠ .createTopic name) :
      Onward name w v -> Onward name w (c.perform v).2
  | dispatch {w v : World} (u : ShadowUpdate) :
      Onward name w v -> Onward name w (v.dispatch u).2
  | addThing {w v : World} (thing : Thing) :
      Onward name w v -> Onward name w { v with store := v.store.addThing thing }
  | around {w v : World} (faults : FaultPlan) (locks : LockTable) (ids : IdSource) :
      Onward name w v -> Onward name w { v with faults, locks, ids }

theorem World.Onward.absent {name : String} {w v : World} (h : w.Onward name v)
    (hw : w.broker.hasTopic (Broker.handleFor name) = false) (hintegrity : w.Integrity) :
    v.Integrity ∧ v.broker.hasTopic (Broker.handleFor name) = false := by
  induction h with
  | refl => exact ⟨hintegrity, hw⟩
  | call c hc _ ih =>
      rename_i v _
      refine ⟨c.integrity_perform ih.1, ?_⟩
      rw [Bool.eq_false_iff]
      intro hlive
      rcases Broker.hasTopic_iff.mp hlive with ⟨topic, htopic, hhandle⟩
      have hold : topic ∉ v.broker.topics := by
        intro hmem
        have hlive := Broker.hasTopic_iff.mpr ⟨topic, hmem, hhandle⟩
        rw [ih.2] at hlive
        cases hlive
      rcases Call.topic_origin htopic with hmem | ⟨other, rfl, rfl⟩
      · exact hold hmem
      · rw [Broker.handleFor_injective hhandle] at hc
        exact hc rfl
  | dispatch u _ ih =>
      rename_i v _
      have hsame := v.sameServices_dispatch u
      refine ⟨ih.1.same hsame, ?_⟩
      rw [Broker.hasTopic, hsame.topics]
      exact ih.2
  | addThing thing _ ih =>
      exact ⟨⟨ih.1.store.addThing thing, ih.1.broker, ih.1.engine⟩, ih.2⟩
  | around faults locks ids _ ih =>
      exact ⟨⟨ih.1.store, ih.1.broker, ih.1.engine⟩, ih.2⟩

/-- Nothing belongs to the trigger, and unless its topic is created again, nothing is
ever delivered on it. -/
structure World.Rid (naming : ResourceNaming) (id : TriggerId) (v : World) : Prop where
  items : forall item, v.Holds item -> item.owner? naming ≠ some id
  silent : forall u update d, v.Onward (naming.topicName id) u ->
    d ∈ (u.dispatch update).1 -> d.topic ≠ naming.topicHandle id

theorem World.Fresh.rid {naming : ResourceNaming} {id : TriggerId} {v : World}
    (h : v.Fresh naming id) (hv : v.Integrity) : v.Rid naming id where
  items _ hitem := h.owner_ne hv hitem
  silent := by
    intro u update d hu hd hon
    have habsent : v.broker.hasTopic (naming.topicHandle id) = false := by
      rw [Bool.eq_false_iff]
      intro hlive
      rcases Broker.hasTopic_iff.mp hlive with ⟨topic, htopic, hhandle⟩
      apply h.topic topic htopic
      rw [← hv.broker.owner_of_live htopic, hhandle]
      exact naming.triggerForHandle?_topicHandle id
    have hlive : u.broker.hasTopic d.topic = true := RuleEngine.live_of_publishAll _ _ hd
    rw [hon, show u.broker.hasTopic (naming.topicHandle id) = false from
      (hu.absent habsent hv).2] at hlive
    cases hlive

/-!
# Attempts
-/

namespace Lifecycle

theorem delete_of_unharmed {config : Config} {w : World} (hw : w.Integrity)
    (hnamed : w.Named config.naming) {t : Trigger} (ht : t ∈ w.store.triggers)
    (hhandles : forall handles, t.handles = some handles ->
      handles = config.naming.handles t.id)
    (hfree : w.locks.isHeld t.id = false)
    (hunharmed : (delete config t.user t.id).run.Unharmed config.callTimeout w) :
    exists v, (delete config t.user t.id).run.run config.callTimeout w = (.ok (), v) ∧
      v.Rid config.naming t.id ∧ v.locks = w.locks := by
  have hplan : FaultPlan.empty.Within noFault config.callTimeout :=
    FaultPlan.within_of_calm rfl _
  rcases delete_outcome (w := { w with faults := .empty }) (fun _ _ h => h.elim) hplan
    ⟨hw.store, hw.broker, hw.engine⟩ ⟨hnamed.topics, hnamed.rules⟩ ht hhandles hfree with
    ⟨r, v, hrun, hv, ⟨rfl, hfresh, hlocks⟩ | ⟨e, _, ⟨_, _, hfailed⟩, _⟩⟩
  · -- what every call does is the same under the plan of the world
    rcases Saga.run_of_harmless (w := { w with faults := .empty }) hplan
      (delete config t.user t.id).run with ⟨p, _, hcalm⟩
    rcases Saga.run_of_unharmed _ hunharmed with ⟨q, hplay⟩
    rw [hrun, Saga.play_withFaults] at hcalm
    rcases Prod.mk.inj hcalm with ⟨hok, hend⟩
    rw [← hok] at hplay
    subst hend
    exact ⟨_, hplay, World.Fresh.rid ⟨hfresh.row, hfresh.topic, hfresh.rule⟩
      ⟨hv.store, hv.broker, hv.engine⟩, hlocks⟩
  · exact hfailed.elim

end Lifecycle

namespace System.Reachable

variable {config : Config} {things : List Thing} {ids : IdSource} {s : System}

theorem deletion (hs : Reachable config anyFault things ids s) {t : Trigger}
    (ht : t ∈ s.world.store.triggers) (hfree : s.world.locks.isHeld t.id = false)
    {faults : FaultPlan} (hplan : faults.Within noAbsence config.callTimeout) :
    exists r v threads,
      (Lifecycle.delete config t.user t.id).run.run config.callTimeout
          { s.world with faults } = (r, v) ∧
        Reachable config anyFault things ids ⟨v, threads⟩ ∧
        ((r = .ok () ∧ v.Rid config.naming t.id) ∨
          exists e, r = .error e ∧ Lifecycle.Unfinished t.isProvisioned s.world e v) := by
  have hs' : Reachable config anyFault things ids ⟨{ s.world with faults }, s.threads⟩ :=
    hs.step (.replan faults s.world s.threads)
  have hw := hs'.ordered.inv
  rcases hs'.run (.delete t.user t.id) config.callTimeout with ⟨_, hend⟩
  rcases Lifecycle.delete_outcome (fun _ _ h => h) hplan hw.integrity hs'.named ht
    (hw.handles t ht) hfree with ⟨r, v, hrun, hv, houtcome⟩
  have hv' : (((Request.delete t.user t.id).operation config).run.run config.callTimeout
      { s.world with faults }).2 = v := by
    refine (Operation.run_answer _ (fun _ => .deleted) config.callTimeout _).trans ?_
    rw [hrun]
  rw [hv'] at hend
  refine ⟨r, v, _, hrun, hend, ?_⟩
  rcases houtcome with ⟨hok, hfresh, _⟩ | ⟨e, herror, _, hunfinished⟩
  · exact Or.inl ⟨hok, hfresh.rid hv⟩
  · refine Or.inr ⟨e, herror, ⟨?_, ?_, hunfinished.topic⟩⟩
    · have hreduced := hunfinished.reduced
      exact ⟨hreduced.things, hreduced.triggers, hreduced.targets, hreduced.topics,
        hreduced.subscriptions, hreduced.rules, hreduced.deliveries, hreduced.locks⟩
    · intro hprovisioned cause heq
      have hsame := hunfinished.rule hprovisioned cause heq
      exact ⟨hsame.store, hsame.topics, hsame.subscriptions, hsame.engine⟩

theorem attempts {t : Trigger} {w u : World}
    (hu : Lifecycle.Attempts config t.user t.id w u) {threads : List Thread}
    (hs : Reachable config anyFault things ids ⟨w, threads⟩)
    (ht : t ∈ w.store.triggers) (hfree : w.locks.isHeld t.id = false) :
    w.Reduced u ∧ exists threads, Reachable config anyFault things ids ⟨u, threads⟩ := by
  induction hu with
  | none => exact ⟨.refl _, threads, hs⟩
  | @failed u v faults e _ hplan hrun ih =>
      rcases ih with ⟨hreduced, threads, hs⟩
      have ht : t ∈ u.store.triggers := by
        rw [hreduced.triggers]
        exact ht
      have hfree : u.locks.isHeld t.id = false := by
        rw [hreduced.locks]
        exact hfree
      rcases hs.deletion ht hfree hplan with ⟨r, v', threads', hrun', hend, houtcome⟩
      rw [hrun] at hrun'
      cases hrun'
      rcases houtcome with ⟨hok, _⟩ | ⟨_, _, hunfinished⟩
      · cases hok
      · exact ⟨hreduced.trans hunfinished.reduced, threads', hend⟩

/-- However often the owner of a trigger has failed to delete it, the row is in place and
nothing was added.  Another attempt does as much, or it leaves nothing of the trigger;
and this it does if it meets no fault. -/
theorem deletion_retried (hs : Reachable config anyFault things ids s) {t : Trigger}
    (ht : t ∈ s.world.store.triggers) (hfree : s.world.locks.isHeld t.id = false)
    {u : World} (hu : Lifecycle.Attempts config t.user t.id s.world u) :
    t ∈ u.store.triggers ∧ s.world.Reduced u ∧
      (forall faults r v, faults.Within noAbsence config.callTimeout ->
        (Lifecycle.delete config t.user t.id).run.run config.callTimeout
            { u with faults } = (r, v) ->
          (r = .ok () ∧ v.Rid config.naming t.id) ∨
            exists e, r = .error e ∧ t ∈ v.store.triggers ∧ u.Reduced v ∧
              (t.isProvisioned = true ->
                (forall cause, e = .ruleEngine cause -> u.SameServices v) ∧
                  forall cause, e = .broker cause -> v.store = u.store)) ∧
      forall faults,
        (Lifecycle.delete config t.user t.id).run.Unharmed config.callTimeout
            { u with faults } ->
          exists v,
            (Lifecycle.delete config t.user t.id).run.run config.callTimeout
                { u with faults } = (.ok (), v) ∧
              v.Rid config.naming t.id := by
  rcases attempts hu hs ht hfree with ⟨hreduced, threads, hreachable⟩
  have ht : t ∈ u.store.triggers := by
    rw [hreduced.triggers]
    exact ht
  have hfree : u.locks.isHeld t.id = false := by
    rw [hreduced.locks]
    exact hfree
  refine ⟨ht, hreduced, ?_, ?_⟩
  · intro faults r v hplan hrun
    rcases hreachable.deletion ht hfree hplan with ⟨r', v', _, hrun', _, houtcome⟩
    rw [hrun] at hrun'
    cases hrun'
    rcases houtcome with hok | ⟨e, herror, hunfinished⟩
    · exact Or.inl hok
    · refine Or.inr ⟨e, herror, ?_, hunfinished.reduced, ?_⟩
      · rw [hunfinished.reduced.triggers]
        exact ht
      · exact fun hprovisioned =>
          ⟨hunfinished.rule hprovisioned, hunfinished.topic hprovisioned⟩
  · intro faults hunharmed
    have hplanned := hreachable.step (.replan faults u threads)
    have hw := hplanned.ordered.inv
    rcases Lifecycle.delete_of_unharmed hw.integrity hplanned.named ht (hw.handles t ht) hfree
      hunharmed with ⟨v, hrun, hrid, _⟩
    exact ⟨v, hrun, hrid⟩

end System.Reachable

namespace System

def outage : FaultPlan :=
  FaultPlan.empty.set "broker.delete_topic" (.always (.unavailable "outage"))

theorem outage_within : outage.Within noAbsence Config.standard.callTimeout := by
  intro c fault hfault
  simp only [outage, FaultPlan.fault?, FaultPlan.set, FaultPlan.clear, FaultPlan.empty,
    List.filter_nil, List.lookup_cons, List.lookup_nil] at hfault
  split at hfault
  · cases hfault
    rfl
  · cases hfault

theorem guarded_deletion_retried :
    exists t u, t ∈ guarded.world.store.triggers ∧ t.isProvisioned = true ∧
      guarded.world.locks.isHeld t.id = false ∧
      Lifecycle.Attempts .standard t.user t.id guarded.world u ∧
      u.engine.rules ≠ guarded.world.engine.rules ∧
      t ∈ u.store.triggers ∧ guarded.world.Reduced u ∧
      exists v,
        (Lifecycle.delete .standard t.user t.id).run.run Config.standard.callTimeout
            { u with faults := .empty } = (.ok (), v) ∧
          v.Rid Config.standard.naming t.id := by
  have hs : Reachable .standard anyFault _ _ guarded := home_reachable.play _
  have hfails : (guarded.world.store.triggers.any fun t =>
      t.isProvisioned && !guarded.world.locks.isHeld t.id &&
        !((Lifecycle.delete .standard t.user t.id).run.run Config.standard.callTimeout
          { guarded.world with faults := outage }).1.isOk &&
        ((Lifecycle.delete .standard t.user t.id).run.run Config.standard.callTimeout
          { guarded.world with faults := outage }).2.engine.rules.isEmpty) = true := by
    decide +kernel
  have hrules : guarded.world.engine.rules ≠ [] := by decide +kernel
  rcases List.any_eq_true.mp hfails with ⟨t, ht, hfails⟩
  rcases Bool.and_eq_true_iff.mp hfails with ⟨hfails, hgone⟩
  rcases Bool.and_eq_true_iff.mp hfails with ⟨hfails, herror⟩
  rcases Bool.and_eq_true_iff.mp hfails with ⟨hprovisioned, hfree⟩
  rw [Bool.not_eq_true'] at hfree
  generalize hrun : (Lifecycle.delete .standard t.user t.id).run.run
    Config.standard.callTimeout { guarded.world with faults := outage } = result at herror hgone
  cases result with
  | mk r u =>
      cases r with
      | ok a => cases herror
      | error e =>
          have hnone : u.engine.rules = [] := List.isEmpty_iff.mp hgone
          have hu : Lifecycle.Attempts .standard t.user t.id guarded.world u :=
            .failed (.none _) outage_within hrun
          rcases hs.deletion_retried ht hfree hu with ⟨hrow, hreduced, _, hcalm⟩
          refine ⟨t, u, ht, hprovisioned, hfree, hu, ?_, hrow, hreduced, hcalm .empty ?_⟩
          · exact fun hsame => hrules (hsame.symm.trans hnone)
          · exact Saga.unharmed_of_harmless (FaultPlan.within_of_calm rfl _) _

end System
end TelemetryTriggers
