import TelemetryTriggers.Proofs.Orchestrator.InStep
import TelemetryTriggers.Proofs.Orchestrator.Interleaving
import TelemetryTriggers.Proofs.Services.Fanout

/-!
# Notifications

What an update makes a trigger publish reaches the targets that are listed for it and
nobody else.  Its rule is the only one on its topic, and the subscriptions to that topic
stand for the rows of its targets as long as these are in step.

The main statement is `System.Reachable.notifies_targets`.
-/

namespace TelemetryTriggers

theorem Lifecycle.play_listTargets {t : Trigger} {w : World} (hw : w.Integrity)
    (ht : t ∈ w.store.triggers) (hprovisioned : t.isProvisioned = true) :
    (listTargets t.user t.id).run.play w = (.ok (w.store.targetsOf t.id), w) := by
  have hvisible : (w.store.trigger? t.id).filter (isVisibleTo t.user) = some t := by
    rw [hw.store.trigger?_eq_some ht, Option.filter_some, if_pos]
    simp [isVisibleTo, hprovisioned]
  have hrow : (visibleTrigger t.user t.id).run.play w = (.ok t, w) := by
    rw [visibleTrigger, Operation.run_ask_bind]
    show Saga.play (Operation.orFail ((w.store.trigger? t.id).filter _) _).run w = _
    rw [hvisible]
    rfl
  rw [listTargets, Operation.play_bind_of_ok hrow]
  rfl

namespace InStep

variable {config : Config} {fails : Call -> ServiceError -> Prop} {H : History}
  {broken : TriggerId -> Prop} {s : System}

theorem rules_on_topic (h : InStep config fails H broken s) (hw : s.world.Integrity)
    {rule : Rule} (hrule : rule ∈ s.world.engine.rules) :
    s.world.engine.rules.filter (·.topic == rule.topic) = [rule] := by
  apply hw.engine.only_on_topic hrule
  intro other hother hsame
  rcases h.placed rule hrule with ⟨id, hname, htopic⟩
  rcases h.placed other hother with ⟨id', hname', htopic'⟩
  have htopics : config.naming.topicHandle id' = config.naming.topicHandle id := by
    rw [← htopic', hsame, htopic]
  have hid := ResourceNaming.topicHandle_injective htopics
  apply List.inj_on_of_nodup_map hw.engine.handles hother hrule
  rw [hw.engine.named other hother, hw.engine.named rule hrule, hname, hname', hid]

end InStep

namespace System

section Reachable

variable {config : Config} {fails : Call -> ServiceError -> Prop} {things : List Thing}
  {ids : IdSource} {s : System}

/-- An update that the predicate of a trigger selects is delivered on its topic once for
each target that its owner is shown, and any other update is not delivered there.  Nobody
is changing the trigger, its owner has not asked for its deletion, no change of its
targets ended in an error of the store, and no crash cut a change of it short. -/
theorem Reachable.notifies_targets (hs : Reachable config fails things ids s)
    (hfaults : forall c e, fails c e -> e.isAbsence = false)
    (hids : s.world.ids.Unrepeated) {t : Trigger} {handles : Handles}
    (ht : t ∈ s.world.store.triggers) (hhandles : t.handles = some handles)
    (hfree : s.world.locks.isHeld t.id = false)
    (hkept : forall thread, thread ∈ s.threads -> thread.request ≠ .delete t.user t.id)
    (hstore : forall thread, thread ∈ s.threads -> thread.request.Retargets s.Drew t.id ->
      forall cause, thread.rest ≠ some (.done (.error (.store cause))))
    (hwhole : forall thread, thread ∈ s.threads ->
      thread.request.Aims s.Drew t.id thread.standing.drawn ->
        thread.standing.detached = true -> thread.rest ≠ none) :
    (Lifecycle.listTargets t.user t.id).run.play s.world =
        (.ok (s.world.store.targetsOf t.id), s.world) ∧
      exists rule, s.world.engine.rule? handles.rule = some rule ∧
        History.Ordered config s.Drew t rule.predicate ∧
        forall u : ShadowUpdate,
          (u.isSelectedBy rule.predicate = true ->
            ((s.world.dispatch u).1.filter (·.topic == handles.topic)).Perm
              ((s.world.store.targetsOf t.id).map fun r =>
                ⟨handles.topic, r.subscription, r.kind.protocol, r.address, t.message⟩)) ∧
          (u.isSelectedBy rule.predicate = false ->
            (s.world.dispatch u).1.filter (·.topic == handles.topic) = []) := by
  have hw := hs.ordered.inv
  have hin := hs.inStep hfaults hids
  have hdoomed : ¬ History.Doomed s.Drew t := Reachable.not_doomed hkept
  have hprovisioned : t.isProvisioned = true := by
    rw [Trigger.isProvisioned, hhandles]
    rfl
  have hwhole : ¬ s.Broken s.Drew t.id := by
    rintro ⟨thread, hthread, hdetached, haims, hnone | ⟨hretargets, cause, hrest⟩⟩
    · exact hwhole thread hthread haims hdetached hnone
    · exact hstore thread hthread hretargets cause hrest
  have hserves := hin.served t.id (.of_free hs.ordered hfree) t ht rfl
    ⟨hprovisioned, hdoomed, hwhole⟩
  rcases hw.provided t ht hprovisioned hdoomed with ⟨htopic, rule, hrule, hname, hon, hordered⟩
  have hlive : s.world.broker.hasTopic (config.naming.topicHandle t.id) = true :=
    Broker.hasTopic_iff.mpr ⟨_, htopic, rfl⟩
  have hmessage : rule.predicate.message = t.message := by
    rcases hordered with ⟨_, _, _, _, _, _, _, _, _, hcompile⟩
    rw [Condition.eq_of_compile hcompile]
  have hhandle : rule.handle = config.naming.ruleHandle t.id := by
    rw [hw.integrity.engine.named rule hrule, hname]
    rfl
  cases hw.handles t ht handles hhandles
  refine ⟨Lifecycle.play_listTargets hw.integrity ht hprovisioned, rule, ?_, hordered, ?_⟩
  · show s.world.engine.rule? (config.naming.ruleHandle t.id) = some rule
    rw [← hhandle]
    exact hw.integrity.engine.rule?_eq_some hrule
  · intro u
    have hmade := RuleEngine.dispatch_on_topic (b := s.world.broker) (u := u)
      (hin.rules_on_topic hw.integrity hrule)
    rw [hon, hmessage] at hmade
    constructor
    · intro hselected
      rw [if_pos hselected] at hmade
      exact (List.Perm.of_eq hmade).trans (hserves.deliveries_perm hlive)
    · intro hselected
      rw [if_neg (Bool.eq_false_iff.mp hselected)] at hmade
      exact hmade

end Reachable

end System

/-!
# An example
-/

def Thread.succeeded (thread : Thread) : Bool :=
  match thread.rest with
  | some (.done (.ok _)) => true
  | _ => false

theorem Thread.rest_of_succeeded {thread : Thread} (h : thread.succeeded = true) :
    exists a, thread.rest = some (.done (.ok a)) := by
  rw [Thread.succeeded] at h
  split at h
  · rename_i a hrest
    exact ⟨a, hrest⟩
  · cases h

namespace System

def watched : System :=
  home.play .standard (.start (.create Lifecycle.heatAlarm) :: List.replicate 12 (.go 0) ++
    .start (.addTarget ⟨7⟩ ⟨Uuid.ofNat 0⟩ ⟨"sms", "+4912345678"⟩) :: List.replicate 8 (.go 1))

theorem watched_unrepeated : watched.world.ids.Unrepeated := by
  have hprecedes : home.world.ids.Precedes watched.world.ids := by
    rw [watched]
    exact home.precedes_play .standard _
  exact home_unrepeated hprecedes (by decide +kernel)

def scorching : ShadowUpdate :=
  (ShadowUpdate.ofThing "thermostat").withTransition "Temp" (some 20) 31

theorem watched_ended {thread : Thread} (hthread : thread ∈ watched.threads) :
    exists a, thread.rest = some (.done (.ok a)) := by
  have hends : watched.threads.all (·.succeeded) = true := by decide +kernel
  exact Thread.rest_of_succeeded (List.all_eq_true.mp hends thread hthread)

theorem watched_told {t : Trigger} (ht : t ∈ watched.world.store.triggers) :
    (watched.world.store.targetsOf t.id).map (fun r => (r.kind.protocol, r.address, t.message)) =
      [("email", "me@example.com", "Too hot"), ("sms", "+4912345678", "Too hot")] := by
  have htold : (watched.world.store.triggers.all fun t =>
      ((watched.world.store.targetsOf t.id).map fun r => (r.kind.protocol, r.address, t.message)) ==
        [("email", "me@example.com", "Too hot"), ("sms", "+4912345678", "Too hot")]) = true := by
    decide +kernel
  exact beq_iff_eq.mp (List.all_eq_true.mp htold t ht)

theorem scorching_selected {rule : Rule} (hrule : rule ∈ watched.world.engine.rules) :
    scorching.isSelectedBy rule.predicate = true := by
  have hselects : watched.world.engine.rules.all
      (fun rule => scorching.isSelectedBy rule.predicate) = true := by
    decide +kernel
  exact List.all_eq_true.mp hselects rule hrule

/-- The alarm of the watched house has two targets, and both are told when it gets too hot. -/
theorem watched_notifies :
    exists t handles, t ∈ watched.world.store.triggers ∧ t.handles = some handles ∧
      (watched.world.store.targetsOf t.id).length = 2 ∧
      (Lifecycle.listTargets t.user t.id).run.play watched.world =
        (.ok (watched.world.store.targetsOf t.id), watched.world) ∧
      exists rule, watched.world.engine.rule? handles.rule = some rule ∧
        History.Ordered .standard watched.Drew t rule.predicate ∧
        (forall u : ShadowUpdate,
          (u.isSelectedBy rule.predicate = true ->
            ((watched.world.dispatch u).1.filter (·.topic == handles.topic)).Perm
              ((watched.world.store.targetsOf t.id).map fun r =>
                ⟨handles.topic, r.subscription, r.kind.protocol, r.address, t.message⟩)) ∧
          (u.isSelectedBy rule.predicate = false ->
            (watched.world.dispatch u).1.filter (·.topic == handles.topic) = [])) ∧
        scorching.isSelectedBy rule.predicate = true ∧
        (((watched.world.dispatch scorching).1.filter (·.topic == handles.topic)).map
            fun d => (d.protocol, d.endpoint, d.message)).Perm
          [("email", "me@example.com", "Too hot"), ("sms", "+4912345678", "Too hot")] := by
  have hs : Reachable .standard (fun _ _ => False) _ _ watched := home_reachable.play _
  have halarm : (watched.world.store.triggers.any fun t =>
      t.isProvisioned && !watched.world.locks.isHeld t.id) = true := by
    decide +kernel
  have hrequests : watched.threads.map (·.request) = [.create Lifecycle.heatAlarm,
      .addTarget ⟨7⟩ ⟨Uuid.ofNat 0⟩ ⟨"sms", "+4912345678"⟩] := by
    decide +kernel
  rcases List.any_eq_true.mp halarm with ⟨t, ht, halarm⟩
  rcases Bool.and_eq_true_iff.mp halarm with ⟨hprovisioned, hfree⟩
  have htold := watched_told ht
  have htargets : (watched.world.store.targetsOf t.id).length = 2 := by
    rw [← List.length_map, htold]
    rfl
  rcases Option.isSome_iff_exists.mp hprovisioned with ⟨handles, hhandles⟩
  have hkept : forall thread, thread ∈ watched.threads -> thread.request ≠ .delete t.user t.id := by
    intro thread hthread hdelete
    have hmem := List.mem_map_of_mem (f := (·.request)) hthread
    rw [hrequests, hdelete] at hmem
    simp at hmem
  rcases hs.notifies_targets nofun watched_unrepeated ht hhandles (by simpa using hfree) hkept
    (fun thread hthread _ cause hrest => by
      rcases watched_ended hthread with ⟨a, ha⟩
      cases ha.symm.trans hrest)
    (fun thread hthread _ _ hrest => by
      rcases watched_ended hthread with ⟨a, ha⟩
      cases ha.symm.trans hrest) with ⟨hlisted, rule, hrule, hordered, hmade⟩
  have hinstalled : rule ∈ watched.world.engine.rules := by
    rw [RuleEngine.rule?] at hrule
    exact List.mem_of_find?_eq_some hrule
  have hselected := scorching_selected hinstalled
  have hdelivered := ((hmade scorching).1 hselected).map fun d => (d.protocol, d.endpoint, d.message)
  rw [List.map_map] at hdelivered
  exact ⟨t, handles, ht, hhandles, htargets, hlisted, rule, hrule, hordered, hmade,
    hselected, hdelivered.trans (List.Perm.of_eq htold)⟩

end System
end TelemetryTriggers
