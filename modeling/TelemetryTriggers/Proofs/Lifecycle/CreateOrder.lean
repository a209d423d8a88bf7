import TelemetryTriggers.Proofs.Lifecycle.Create
import TelemetryTriggers.Proofs.Requests.Validation
import TelemetryTriggers.Proofs.Saga.Transcript

/-!
# The calls of a creation

A creation makes its calls in a fixed order.  When one of them fails, nothing else of that
order is done; what the calls before it created is taken back, newest first, and the failure
of the creation is that of the call, whatever becomes of the taking back.

Main definitions: `Lifecycle.creationCalls`, the order; `Lifecycle.Fatal`, why a creation
fails at a call.  The main statement is `Lifecycle.create_in_order`.
-/

namespace TelemetryTriggers
namespace Lifecycle

def creationCalls (targets : Nat) : List String :=
  ["store.get_thing_by_name", "store.insert_trigger", "broker.create_topic"] ++
    ((List.replicate targets ["broker.subscribe", "store.insert_target"]).flatten ++
      ["rules.install_rule", "store.update_trigger_handles"])

/-- Why a creation fails at a call: the call failed, or it found no device of the name that is
paired to the account. -/
inductive Fatal (user : UserId) : Exchange -> TriggerError -> Prop
  | refused (c : Call) (e : ServiceError) : Fatal user ⟨c, .error e⟩ (c.service.failure e)
  | unpaired (name : String) (row : Option Thing) (hrow : row.filter (·.owner == user) = none) :
      Fatal user ⟨.thingNamed name, .ok row⟩ (.validation (.unpairedThing name))

variable {user : UserId} {deadline : Nat} {undos : List Undo} {w : World}

theorem ask_proceeds (c : Call) :
    ((Operation.ask c).orUndo undos).Proceeds (Fatal user) deadline [c.operation] undos
      fun xs r => xs = [⟨c, .ok r⟩] :=
  Operation.proceeds_ask (.refused c)

theorem subscribeTargets_proceeds (id : TriggerId) (topic : TopicHandle)
    (targets : List ValidTarget) :
    (subscribeTargets id topic targets undos).Proceeds (Fatal user) deadline
      (List.replicate targets.length ["broker.subscribe", "store.insert_target"]).flatten undos
      fun xs result => result.2 = Exchange.undos xs ++ undos := by
  induction targets generalizing undos with
  | nil =>
      apply (Operation.proceeds_pure _).mono
      rintro xs result ⟨rfl, rfl⟩
      rfl
  | cons target targets ih =>
      rw [subscribeTargets]
      apply Operation.Proceeds.bind (l := ["broker.subscribe"])
        (ask_proceeds (.subscribe topic target.kind.protocol target.address))
      rintro _ subscription rfl
      apply Operation.Proceeds.bind (l := []) Operation.proceeds_fresh
      rintro _ u rfl
      apply Operation.Proceeds.bind (l := ["store.insert_target"])
        (ask_proceeds (.insertTarget ⟨⟨u⟩, id, target.kind, target.address, subscription⟩))
      rintro _ _ rfl
      rw [← List.append_nil (List.replicate targets.length _).flatten]
      apply Operation.Proceeds.bind ih
      rintro xs ⟨rows, stack⟩ hstack
      apply (Operation.proceeds_pure _).mono
      rintro _ result ⟨rfl, rfl⟩
      simp only [Exchange.undos_append, List.append_nil, List.append_assoc]
      exact hstack

theorem provision_proceeds (naming : ResourceNaming) (draft : Trigger) {thing : Thing}
    (hthing : validateThingName thing.name = .ok ()) (targets : List ValidTarget) :
    (provision naming draft thing targets undos).Proceeds (Fatal user) deadline
      (["broker.create_topic"] ++
        ((List.replicate targets.length ["broker.subscribe", "store.insert_target"]).flatten ++
          ["rules.install_rule", "store.update_trigger_handles"])) undos
      fun _ _ => True := by
  have hcompile : draft.condition.compile thing.name draft.message = .ok _ :=
    Condition.compile_eq_ok.mpr ⟨hthing, rfl⟩
  rw [provision]
  apply Operation.Proceeds.bind (ask_proceeds (.createTopic (naming.topicName draft.id)))
  rintro _ topic rfl
  apply Operation.Proceeds.bind (subscribeTargets_proceeds draft.id topic targets)
  rintro xs ⟨rows, stack⟩ rfl
  apply Operation.Proceeds.bind (l := []) (Operation.proceeds_ofExcept hcompile)
  rintro _ predicate ⟨rfl, rfl⟩
  apply Operation.Proceeds.bind (l := ["rules.install_rule"])
    (ask_proceeds (.installRule (naming.ruleName draft.id) _ topic))
  rintro _ rule rfl
  apply Operation.Proceeds.bind (l := ["store.update_trigger_handles"]) (m := [])
    (ask_proceeds (.setHandles draft.id ⟨topic, rule⟩))
  rintro _ _ rfl
  exact (Operation.proceeds_pure _).mono fun _ _ _ => trivial

theorem pairedThing_cases (user : UserId) (name : String) (deadline : Nat) (w : World) :
    let run := (pairedThing user name).run.run deadline w
    let xs := (pairedThing user name).run.transcript deadline w
    (exists e, run.1 = .error (.store e) ∧ xs = [⟨.thingNamed name, .error e⟩]) ∨
      (w.store.thingNamed? name).filter (·.owner == user) = none ∧
        run.1 = .error (.validation (.unpairedThing name)) ∧
          xs = [⟨.thingNamed name, .ok (w.store.thingNamed? name)⟩] ∨
      exists thing, (w.store.thingNamed? name).filter (·.owner == user) = some thing ∧
        run.1 = .ok thing ∧ xs = [⟨.thingNamed name, .ok (w.store.thingNamed? name)⟩] := by
  have hrun : (pairedThing user name).run = .call (.thingNamed name) fun reply =>
      match reply with
      | .ok row => (Operation.orFail (row.filter (·.owner == user))
          (.validation (.unpairedThing name))).run
      | .error e => .done (.error (.store e)) := by
    show Saga.call (.thingNamed name) _ = _
    congr 1
    funext reply
    cases reply with
    | ok row => rfl
    | error e => rfl
  simp only [hrun, Saga.run, Saga.transcript]
  rcases (Call.thingNamed name).attempt_cases (some deadline) w with ⟨e, hattempt⟩ | hattempt
  · rw [hattempt]
    exact Or.inl ⟨e, rfl, rfl⟩
  · have hreply : ((Call.thingNamed name).perform ((Call.thingNamed name).start w).2).1 =
        .ok (w.store.thingNamed? name) := rfl
    rw [hattempt, hreply]
    simp only
    cases (w.store.thingNamed? name).filter (·.owner == user) with
    | none => exact Or.inr (Or.inl ⟨rfl, rfl, rfl⟩)
    | some thing => exact Or.inr (Or.inr ⟨thing, rfl, rfl, rfl⟩)

theorem pairedThing_inOrder (user : UserId) (name : String) (w : World) :
    InOrder (Fatal user) ["store.get_thing_by_name"] []
      (fun xs thing => Exchange.undos xs = [] ∧ thing.name = name)
      ((pairedThing user name).run.run deadline w).1
      ((pairedThing user name).run.transcript deadline w) := by
  rcases pairedThing_cases user name deadline w with
    ⟨e, hrun, hcalls⟩ | ⟨hnone, hrun, hcalls⟩ | ⟨thing, hthing, hrun, hcalls⟩
  · rw [hrun, hcalls]
    exact .takenBack [] (List.prefix_refl _) nofun (.refused _ e) rfl
  · rw [hrun, hcalls]
    exact .takenBack [] (List.prefix_refl _) nofun (.unpaired _ _ hnone) rfl
  · rw [hrun, hcalls]
    have hname := List.find?_some (Option.filter_eq_some_iff.mp hthing).1
    refine .done rfl ?_ ⟨rfl, by simpa using hname⟩
    intro x hx
    rw [List.mem_singleton.mp hx]
    rfl

theorem createWithId_inOrder (naming : ResourceNaming) (user : UserId) {request : ValidRequest}
    (hname : validateThingName request.thingName = .ok ()) (id : TriggerId) (deadline : Nat)
    (w : World) :
    InOrder (Fatal user) (creationCalls request.targets.length) [] (fun _ _ => True)
      ((createWithId naming user request id).run.run deadline w).1
      ((createWithId naming user request id).run.transcript deadline w) := by
  rw [createWithId]
  apply Operation.inOrder_bind (pairedThing_inOrder user request.thingName w)
  rintro xs thing ⟨hxs, hthing⟩
  rw [hxs]
  have hinsert := fun c : Call => @ask_proceeds user deadline [] c
  simp only [Operation.orUndo_nil] at hinsert
  apply Operation.Proceeds.bind (hinsert (.insertTrigger
    ⟨id, user, thing.id, request.condition, request.message, none⟩))
  rintro _ _ rfl
  apply (provision_proceeds naming _ _ request.targets).mono
  · exact fun _ _ _ => trivial
  · rw [hthing]
    exact hname

theorem createWithId_of_unpaired (naming : ResourceNaming) (request : ValidRequest)
    (id : TriggerId)
    (hunpaired : (w.store.thingNamed? request.thingName).filter (·.owner == user) = none) :
    ((createWithId naming user request id).run.transcript deadline w).map Exchange.operation =
      ["store.get_thing_by_name"] := by
  show ((Saga.bind (pairedThing user request.thingName).run (ExceptT.bindCont _)).transcript
    deadline w).map Exchange.operation = _
  rw [Saga.transcript_bind]
  rcases pairedThing_cases user request.thingName deadline w with
    ⟨e, hrun, hcalls⟩ | ⟨_, hrun, hcalls⟩ | ⟨thing, hthing, _⟩
  · rw [hrun, hcalls]
    rfl
  · rw [hrun, hcalls]
    rfl
  · rw [hunpaired] at hthing
    cases hthing

theorem create_of_free (deadline : Nat) {config : Config} {request : CreateRequest}
    {valid : ValidRequest} (hvalid : request.validate config.maxTargets = .ok valid)
    (hfree : w.locks.isHeld ⟨w.ids.next.1⟩ = false) :
    let work := createWithId config.naming request.user valid ⟨w.ids.next.1⟩
    let locked := { w with ids := w.ids.next.2, locks := ⟨⟨w.ids.next.1⟩ :: w.locks.held⟩ }
    ((create config request).run.run deadline w).1 = (work.run.run deadline locked).1 ∧
      (create config request).run.transcript deadline w = work.run.transcript deadline locked := by
  intro work locked
  have hacquire : w.locks.acquire? ⟨w.ids.next.1⟩ = some ⟨⟨w.ids.next.1⟩ :: w.locks.held⟩ :=
    LockTable.acquire?_of_free hfree
  have hcreate : (create config request).run = .detach (.draw fun u => .acquire ⟨u⟩ fun free =>
      if free then
        Saga.bind (createWithId config.naming request.user valid ⟨u⟩).run
          fun result => .release ⟨u⟩ (.done result)
      else
        .done (.error (.conflict (TriggerId.mk u).text))) := by
    rw [create, hvalid]
    rfl
  rw [hcreate]
  simp only [Saga.run, Saga.transcript, hacquire, if_true, Saga.run_bind, Saga.transcript_bind,
    List.append_nil]
  exact ⟨rfl, rfl⟩

/-- The calls that a creation adds to the log, for a valid request and an identifier on which
nobody works.  If it succeeds they are the calls of a creation in their order, each of them
successful.  If it fails, the first ones of these are made up to the one that fails, or up to
the question for the device if this is not paired to the account; then what the calls before
created is taken back, newest first, every action of it tried once; and the failure is that of
the call. -/
theorem create_in_order {config : Config} {request : CreateRequest} {valid : ValidRequest}
    (hvalid : request.validate config.maxTargets = .ok valid)
    (hfree : w.locks.isHeld ⟨w.ids.next.1⟩ = false) :
    let run := (create config request).run.run config.callTimeout w
    let calls := (create config request).run.transcript config.callTimeout w
    run.2.faults.calls = w.faults.calls ++ calls.map Exchange.operation ∧
      (forall details, run.1 = .ok details ->
        calls.map Exchange.operation = creationCalls request.targets.length ∧
          forall x, x ∈ calls -> x.isOk = true) ∧
      (forall e, run.1 = .error e ->
        exists xs last undone, calls = xs ++ last :: undone ∧
          (xs ++ [last]).map Exchange.operation <+: creationCalls request.targets.length ∧
          (forall x, x ∈ xs -> x.isOk = true) ∧ Fatal request.user last e ∧
          undone.map (·.call) = (Exchange.undos xs).map Undo.toCall) ∧
      ((w.store.thingNamed? request.thingName).filter (·.owner == request.user) = none ->
        calls.map Exchange.operation = ["store.get_thing_by_name"]) := by
  intro run calls
  rcases CreateRequest.parts_of_validate hvalid with ⟨hthing, hname, _, _⟩
  rcases create_of_free config.callTimeout hvalid hfree with ⟨hrun, hcalls⟩
  have horder := createWithId_inOrder config.naming request.user
    (by rw [hname]; exact hthing) ⟨w.ids.next.1⟩ config.callTimeout
    { w with ids := w.ids.next.2, locks := ⟨⟨w.ids.next.1⟩ :: w.locks.held⟩ }
  rw [← hrun, ← hcalls, length_validate hvalid] at horder
  refine ⟨(create config request).run.calls_run w, ?_, ?_, ?_⟩
  · intro details hok
    rw [hok] at horder
    cases horder with
    | done hnames hall _ => exact ⟨hnames, hall⟩
  · intro e herror
    rw [herror] at horder
    rcases horder.of_error with ⟨xs, last, undone, hsplit, hnames, hall, hfatal, hundone⟩
    rw [List.append_nil] at hundone
    exact ⟨xs, last, undone, hsplit, hnames, hall, hfatal, hundone⟩
  · intro hunpaired
    rw [← hname] at hunpaired
    show ((create config request).run.transcript _ w).map _ = _
    rw [hcalls]
    exact createWithId_of_unpaired config.naming valid _ hunpaired

/-!
# An example
-/

/-- A house where neither rules can be installed nor subscriptions removed. -/
def brokenHouse : World :=
  { house with
    faults := house.faults.set "broker.unsubscribe" (.always (.unavailable "down")) }

theorem heatAlarm_in_order :
    let valid : ValidRequest := ⟨"thermostat", ⟨"Temp", .greaterThan, 30⟩, "Too hot",
      [⟨.email, "me@example.com"⟩]⟩
    let run := (create .standard heatAlarm).run.run Config.standard.callTimeout brokenHouse
    let calls := (create .standard heatAlarm).run.transcript Config.standard.callTimeout
      brokenHouse
    heatAlarm.validate Config.standard.maxTargets = .ok valid ∧
      brokenHouse.locks.isHeld ⟨brokenHouse.ids.next.1⟩ = false ∧
      run.1 = .error (.ruleEngine (.unavailable "outage")) ∧
      run.2.faults.calls = ["store.get_thing_by_name", "store.insert_trigger",
        "broker.create_topic", "broker.subscribe", "store.insert_target", "rules.install_rule",
        "store.delete_target", "broker.unsubscribe", "broker.delete_topic",
        "store.delete_trigger"] ∧
      run.2.faults.calls = brokenHouse.faults.calls ++ calls.map Exchange.operation ∧
      exists xs last undone, calls = xs ++ last :: undone ∧
        (xs ++ [last]).map Exchange.operation <+: creationCalls 1 ∧
        (forall x, x ∈ xs -> x.isOk = true) ∧
        Fatal ⟨7⟩ last (.ruleEngine (.unavailable "outage")) ∧
        undone.map (·.call) = (Exchange.undos xs).map Undo.toCall := by
  intro valid run calls
  have hvalid : heatAlarm.validate Config.standard.maxTargets = .ok valid := by decide +kernel
  have hfree : brokenHouse.locks.isHeld ⟨brokenHouse.ids.next.1⟩ = false := by decide +kernel
  have hfailed : run.1 = .error (.ruleEngine (.unavailable "outage")) := by decide +kernel
  have horder := create_in_order hvalid hfree
  exact ⟨hvalid, hfree, hfailed, by decide +kernel, horder.1, horder.2.2.1 _ hfailed⟩

end Lifecycle
end TelemetryTriggers
