import TelemetryTriggers.Proofs.Lifecycle.CreateSuccess

/-!
# Creation is all or nothing

If the removals are spared from faults, a creation either adds exactly what belongs
to the new trigger or leaves everything as it was.  Faults may strike anywhere else,
be it by an error or by a delay.
-/

namespace TelemetryTriggers

def Undo.operations : List String :=
  ["store.delete_trigger", "store.delete_target", "broker.delete_topic",
    "broker.unsubscribe", "rules.remove_rule"]

theorem Undo.operation_mem (undo : Undo) : undo.toCall.operation ∈ Undo.operations := by
  cases undo with
  | _ => simp [Undo.toCall, Call.operation, Undo.operations]

namespace Lifecycle

variable {config : Config} {request : CreateRequest} {w : World}

theorem untouched_start (w : World) : Untouched w ⟨[], [], false⟩ w ∧ w.ids = w.ids :=
  ⟨⟨rfl, rfl, rfl, rfl, rfl⟩, rfl⟩

theorem returned_of_error {fails : Call -> ServiceError -> Prop} {certain : Prop}
    (hw : w.Integrity) (hfresh : w.Fresh config.naming ⟨w.ids.next.1⟩)
    (hfaults : w.faults.Within fails config.callTimeout)
    (hspared : certain -> forall undo : Undo, forall e, fails undo.toCall e -> False)
    {e : TriggerError} {v : World}
    (hrun : (create config request).run.run config.callTimeout w = (.error e, v)) :
    v.Integrity ∧ Returned certain config.naming ⟨w.ids.next.1⟩ w v := by
  have hmeets := (create_returned fails certain hw hfresh hspared request).meets _ w
    (untouched_start w)
  rcases hmeets.run hw hfaults with ⟨hv, st, hend⟩
  rw [hrun] at hv hend
  exact ⟨hv, hend⟩

/-- A creation adds exactly what belongs to the new trigger, or nothing. -/
theorem create_all_or_nothing (hw : w.Reachable)
    (hfresh : w.Fresh config.naming ⟨w.ids.next.1⟩)
    (hdistinct : w.ids.Distinct (1 + 2 * request.targets.length))
    (hspared : forall operation, operation ∈ Undo.operations ->
      w.faults.fault? operation = none) :
    (forall e v,
      (create config request).run.run config.callTimeout w = (.error e, v) ->
        v.store = w.store ∧ v.broker = w.broker ∧ v.engine = w.engine ∧
          v.locks = w.locks) ∧
      forall details v,
        (create config request).run.run config.callTimeout w = (.ok details, v) ->
          exists valid, request.validate config.maxTargets = .ok valid ∧
            Created config.naming request.user valid details w v := by
  constructor
  · intro e v hrun
    have hreturned : Returned True config.naming ⟨w.ids.next.1⟩ w v :=
      returned_of_error hw.integrity hfresh
        (FaultPlan.within_of_spared config.callTimeout hspared)
        (fun _ undo _ hnot => hnot undo.operation_mem) hrun |>.2
    have hcleared : forall item, v.Holds item ->
        item.owner? config.naming ≠ some ⟨w.ids.next.1⟩ := by
      intro item hitem howner
      exact List.not_mem_nil (hreturned.cleared trivial item hitem howner)
    rcases hreturned.residue.same.services_eq
      (fun item hitem => hfresh.owner_ne hw.integrity hitem) hcleared with
      ⟨hstore, hbroker, hengine⟩
    exact ⟨hstore, hbroker, hengine, hreturned.locks⟩
  · intro details v hrun
    have hmeets := (create_created hw.integrity hfresh hdistinct).meets _ w
      (untouched_start w)
    rcases hmeets.run hw.integrity (w.faults.within_all config.callTimeout) with
      ⟨_, st, hend⟩
    rw [hrun] at hend
    exact hend

/-!
# An example
-/

/-- A house with one thermostat, where rules cannot be installed. -/
def house : World :=
  { World.ofThings [⟨⟨1⟩, "thermostat", ⟨7⟩⟩] ⟨Uuid.ofNat, 0⟩ with
    faults := FaultPlan.empty.set "rules.install_rule" (.always (.unavailable "outage")) }

def heatAlarm : CreateRequest :=
  ⟨⟨7⟩, "thermostat", "Temp", ">", 30, "Too hot", [⟨"email", "me@example.com"⟩]⟩

theorem house_reachable : house.Reachable :=
  (World.Reachable.start _ _).around _ _ _

theorem house_fresh (naming : ResourceNaming) (id : TriggerId) : house.Fresh naming id :=
  ⟨fun _ ht => absurd ht List.not_mem_nil, fun _ ht => absurd ht List.not_mem_nil,
    fun _ hr => absurd hr List.not_mem_nil⟩

def calmHouse : World :=
  { house with faults := .empty }

/-- Where its rule cannot be installed, nothing is left of the alarm, and where nothing fails it
is made. -/
theorem heatAlarm_all_or_nothing :
    (exists v, (create .standard heatAlarm).run.run Config.standard.callTimeout house =
        (.error (.ruleEngine (.unavailable "outage")), v) ∧
      v.store = house.store ∧ v.broker = house.broker ∧ v.engine = house.engine ∧
        v.locks = house.locks ∧ v.faults.calls.getLast? = some "store.delete_trigger") ∧
      exists details v,
        (create .standard heatAlarm).run.run Config.standard.callTimeout calmHouse =
            (.ok details, v) ∧
          (exists valid, heatAlarm.validate Config.standard.maxTargets = .ok valid ∧
            Created Config.standard.naming heatAlarm.user valid details calmHouse v) ∧
          details.targets.map (·.address) = ["me@example.com"] := by
  have hdistinct : house.ids.Distinct (1 + 2 * heatAlarm.targets.length) := by
    intro i j hi hj
    revert i
    revert j
    decide
  constructor
  · have hfailed : ((create .standard heatAlarm).run.run Config.standard.callTimeout house).1 =
        .error (.ruleEngine (.unavailable "outage")) := by
      rfl
    have hcleared : ((create .standard heatAlarm).run.run Config.standard.callTimeout
        house).2.faults.calls.getLast? = some "store.delete_trigger" := by
      decide +kernel
    rcases (create_all_or_nothing house_reachable (house_fresh _ _) hdistinct (by decide)).1
      _ _ (Prod.ext hfailed rfl) with ⟨hstore, hbroker, hengine, hlocks⟩
    exact ⟨_, Prod.ext hfailed rfl, hstore, hbroker, hengine, hlocks, hcleared⟩
  · have hreachable : calmHouse.Reachable := house_reachable.around _ _ _
    have hfresh := house_fresh Config.standard.naming ⟨house.ids.next.1⟩
    have hmade : ((create .standard heatAlarm).run.run Config.standard.callTimeout
        calmHouse).1.toOption.map (fun details => details.targets.map (·.address)) =
          some ["me@example.com"] := by
      decide +kernel
    rcases hrun : (create .standard heatAlarm).run.run Config.standard.callTimeout calmHouse with
      ⟨reply, v⟩
    rw [hrun] at hmade
    cases reply with
    | error e => cases hmade
    | ok details =>
        have hcreated := (create_all_or_nothing hreachable
          ⟨hfresh.row, hfresh.topic, hfresh.rule⟩ hdistinct (by decide)).2 details v hrun
        exact ⟨details, v, rfl, hcreated, Option.some.inj hmade⟩

end Lifecycle
end TelemetryTriggers
