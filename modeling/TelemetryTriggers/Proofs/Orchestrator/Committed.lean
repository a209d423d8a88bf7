import TelemetryTriggers.Proofs.Lifecycle.Create
import TelemetryTriggers.Proofs.Orchestrator.Creation
import TelemetryTriggers.Proofs.Orchestrator.Schedule
import TelemetryTriggers.Proofs.Orchestrator.Sweeping

/-!
# Committed means provisioned

Every operation keeps to the discipline, so all reachable systems do.  A row with
handles therefore has a topic and a rule, unless its owner has asked for its deletion.
-/

namespace TelemetryTriggers

variable {fails : Call -> ServiceError -> Prop} {config : Config} {H : History}

theorem answer_order {α : Type} {request : Request} {P : Assertion} {op : Operation α}
    (answer : α -> Answer)
    (hop : Operation.Triple ((order config H).setting fails request) P op (fun _ => Unlocked)
      fun _ => Unlocked) :
    Operation.Triple ((order config H).setting fails request) P
      (op >>= fun a => pure (answer a)) (fun _ => Unlocked) fun _ => Unlocked := by
  apply Operation.Triple.bind hop
  exact fun _ => Operation.Triple.pure fun st w h => h

theorem operation_order (request : Request) (hknown : H request []) :
    Operation.Triple ((order config H).setting fails request)
      (fun st _ => st = ⟨[], [], false⟩) (request.operation config) (fun _ => Unlocked)
      fun _ => Unlocked := by
  have hstart : forall {op : Operation Answer},
      Operation.Triple ((order config H).setting fails request) Unlocked op
        (fun _ => Unlocked) (fun _ => Unlocked) ->
      Operation.Triple ((order config H).setting fails request)
        (fun st _ => st = ⟨[], [], false⟩) op (fun _ => Unlocked) fun _ => Unlocked := by
    intro op hop
    apply hop.consequence
    · intro st w heq
      rcases heq with rfl
      rfl
    · exact fun _ st w h => h
    · exact fun _ st w h => h
  cases request with
  | create request => exact answer_order .created (create_order hknown)
  | delete user id => exact hstart (answer_order (fun _ => .deleted) (delete_order hknown))
  | addTarget user id spec => exact hstart (answer_order .added (addTarget_order hknown))
  | removeTarget user id =>
      exact hstart (answer_order (fun _ => .removed) (removeTarget_order hknown))
  | getTrigger user id => exact hstart (answer_order .trigger (getTrigger_order hknown))
  | listTriggers user => exact hstart (answer_order .triggers (listTriggers_order hknown))
  | listTargets user id => exact hstart (answer_order .targets (listTargets_order hknown))
  | getTarget user id => exact hstart (answer_order .target (getTarget_order hknown))
  | recover => exact hstart (answer_order .recovered (recover_order hknown))

namespace System.Reachable

variable {things : List Thing} {ids : IdSource} {s : System}

theorem ordered_within (hs : Reachable config fails things ids s)
    (hearlier : forall request drawn first, H request drawn -> first <+: drawn ->
      H request first)
    (hdrawn : forall request drawn, s.Drew request drawn -> H request drawn) :
    Governed (order config H) fails s := by
  have hlawful : (order config H).Lawful := lawful_order config (hearlier _ _ _)
  apply hs.governed hlawful
  · exact World.sound_ofThings config H things ids
  · exact fun request w hknown => (operation_order request hknown).meets_settled rfl
  · exact hdrawn

theorem ordered (hs : Reachable config fails things ids s) :
    Governed (order config s.Drew) fails s :=
  hs.ordered_within (fun _ _ _ h hearlier => h.earlier hearlier) fun _ _ h => h

theorem not_doomed {t : Trigger}
    (hkept : forall thread, thread ∈ s.threads -> thread.request ≠ .delete t.user t.id) :
    ¬ History.Doomed s.Drew t := by
  rintro ⟨thread, hthread, hrequest, _⟩
  exact hkept thread hthread hrequest

/-- A row with handles, whose owner has not asked for its deletion, has a topic and a
rule that publishes on it, and the rule does what the request for the trigger says. -/
theorem resources_of_provisioned (hs : Reachable config fails things ids s) {t : Trigger}
    {handles : Handles} (ht : t ∈ s.world.store.triggers) (hhandles : t.handles = some handles)
    (hkept : forall thread, thread ∈ s.threads -> thread.request ≠ .delete t.user t.id) :
    ⟨config.naming.topicName t.id, handles.topic⟩ ∈ s.world.broker.topics ∧
      exists rule, s.world.engine.rule? handles.rule = some rule ∧
        rule.name = config.naming.ruleName t.id ∧ rule.topic = handles.topic ∧
        exists thread request valid, thread ∈ s.threads ∧
          thread.request = .create request ∧
          thread.standing.drawn.head? = some t.id.uuid ∧
          request.validate config.maxTargets = .ok valid ∧ t.user = request.user ∧
          t.condition = valid.condition ∧ t.message = valid.message ∧
          t.condition.compile request.thingName t.message = .ok rule.predicate := by
  have hw := hs.ordered.inv
  have hprovisioned : t.isProvisioned = true := by
    rw [Trigger.isProvisioned, hhandles]
    rfl
  rcases hw.provided t ht hprovisioned (not_doomed hkept) with
    ⟨htopic, rule, hrule, hname, hon, hordered⟩
  cases hw.handles t ht handles hhandles
  refine ⟨htopic, rule, ?_, hname, hon, ?_⟩
  · have hhandle : rule.handle = config.naming.ruleHandle t.id := by
      rw [hw.integrity.engine.named rule hrule, hname]
      rfl
    show s.world.engine.rule? (config.naming.ruleHandle t.id) = some rule
    rw [← hhandle]
    exact hw.integrity.engine.rule?_eq_some hrule
  · rcases hordered with ⟨request, drawn, valid, ⟨thread, hthread, hrequest, hdrawn⟩, hid,
      hvalid, huser, hcondition, hmessage, hcompile⟩
    refine ⟨thread, request, valid, hthread, hrequest, ?_, hvalid, huser, hcondition, hmessage,
      hcompile⟩
    rcases hdrawn with ⟨later, hlater⟩
    rw [← hlater, List.head?_append, hid]
    rfl

end System.Reachable

namespace System

def home : System :=
  ⟨World.ofThings [⟨⟨1⟩, "thermostat", ⟨7⟩⟩] ⟨Uuid.ofNat, 0⟩, []⟩

theorem home_reachable :
    Reachable .standard fails [⟨⟨1⟩, "thermostat", ⟨7⟩⟩] ⟨Uuid.ofNat, 0⟩ home :=
  .start

def guarded : System :=
  home.play .standard (.start (.create Lifecycle.heatAlarm) :: List.replicate 12 (.go 0))

theorem guarded_resources :
    exists t handles, t ∈ guarded.world.store.triggers ∧ t.handles = some handles ∧
      (forall thread, thread ∈ guarded.threads -> thread.request ≠ .delete t.user t.id) ∧
      ⟨Config.standard.naming.topicName t.id, handles.topic⟩ ∈ guarded.world.broker.topics ∧
      exists rule, guarded.world.engine.rule? handles.rule = some rule ∧
        rule.name = Config.standard.naming.ruleName t.id ∧ rule.topic = handles.topic ∧
        exists thread request valid, thread ∈ guarded.threads ∧
          thread.request = .create request ∧
          thread.standing.drawn.head? = some t.id.uuid ∧
          request.validate Config.standard.maxTargets = .ok valid ∧ t.user = request.user ∧
          t.condition = valid.condition ∧ t.message = valid.message ∧
          t.condition.compile request.thingName t.message = .ok rule.predicate := by
  have hs : Reachable .standard (fun _ _ => False) _ _ guarded := home_reachable.play _
  have hprovisioned : guarded.world.store.triggers.any (·.isProvisioned) = true := by
    decide +kernel
  have hrequests : guarded.threads.map (·.request) = [.create Lifecycle.heatAlarm] := by
    decide +kernel
  rcases List.any_eq_true.mp hprovisioned with ⟨t, ht, hhandles⟩
  rcases Option.isSome_iff_exists.mp hhandles with ⟨handles, hhandles⟩
  have hkept : forall thread, thread ∈ guarded.threads ->
      thread.request ≠ .delete t.user t.id := by
    intro thread hthread hdelete
    have hmem := List.mem_map_of_mem (f := (·.request)) hthread
    rw [hrequests, List.mem_singleton, hdelete] at hmem
    cases hmem
  exact ⟨t, handles, ht, hhandles, hkept, hs.resources_of_provisioned ht hhandles hkept⟩

end System
end TelemetryTriggers
