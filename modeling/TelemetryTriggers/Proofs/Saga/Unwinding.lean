import TelemetryTriggers.Proofs.Saga.Transcript

/-!
# Unwinding

The actions of a stack are done from the newest to the oldest, each of them once, whatever came
of those before it.  What they leave behind is what there was, without what they have removed.

Main definitions: `Undo.stack`, the stack of actions that were pushed one after another;
`World.without`, the services without what an action removes; `Exchange.removed?`, the action
that a call has done; `Exchange.isFailure`.  The main statement is `unwind_newest_first`.
-/

namespace TelemetryTriggers

def Undo.stack (pushed : List Undo) : List Undo :=
  pushed.foldl (fun undos undo => undo :: undos) []

theorem Undo.stack_eq (pushed : List Undo) : Undo.stack pushed = pushed.reverse := by
  simp [stack]

/-!
# What an action removes
-/

namespace World

def without (w : World) : Undo -> World
  | .deleteTrigger id =>
      { w with store := { w.store with triggers := w.store.triggers.filter (·.id != id) } }
  | .deleteTarget id =>
      { w with store := { w.store with targets := w.store.targets.filter (·.id != id) } }
  | .deleteTopic topic =>
      { w with broker := { w.broker with
          topics := w.broker.topics.filter (·.handle != topic)
          subscriptions := w.broker.subscriptions.filter (·.topic != topic) } }
  | .unsubscribe subscription =>
      { w with broker := { w.broker with
          subscriptions := w.broker.subscriptions.filter (·.handle != subscription) } }
  | .removeRule rule =>
      { w with engine := ⟨w.engine.rules.filter (·.handle != rule)⟩ }

theorem without_withFaults (w : World) (p : FaultPlan) (undo : Undo) :
    { w with faults := p }.without undo = { w.without undo with faults := p } := by
  cases undo with
  | _ => rfl

end World

theorem Undo.perform_eq_ok {undo : Undo} {w v : World} {r : undo.toCall.Reply}
    (h : undo.toCall.perform w = (.ok r, v)) : v = w.without undo := by
  cases undo with
  | _ =>
      cases Call.performed h with
      | answered hreads => exact hreads.elim
      | _ => rfl

/-!
# What the answers say
-/

namespace Exchange

/-- The call failed, and not because there was nothing to remove. -/
def isFailure : Exchange -> Bool
  | ⟨_, .ok _⟩ => false
  | ⟨_, .error (.notFound _)⟩ => false
  | ⟨_, .error (.rejected _)⟩ => true
  | ⟨_, .error (.unavailable _)⟩ => true

def removed? : Exchange -> Option Undo
  | ⟨.deleteTrigger id, .ok _⟩ => some (.deleteTrigger id)
  | ⟨.deleteTarget id, .ok _⟩ => some (.deleteTarget id)
  | ⟨.deleteTopic topic, .ok _⟩ => some (.deleteTopic topic)
  | ⟨.unsubscribe subscription, .ok _⟩ => some (.unsubscribe subscription)
  | ⟨.removeRule rule, .ok _⟩ => some (.removeRule rule)
  | _ => none

theorem isFailure_eq (c : Call) (reply : Except ServiceError c.Reply) :
    isFailure ⟨c, reply⟩ = Undo.isFailure reply := by
  cases reply with
  | ok r => rfl
  | error e =>
      cases e with
      | _ => rfl

theorem removed?_toCall_ok (undo : Undo) (r : undo.toCall.Reply) :
    removed? ⟨undo.toCall, .ok r⟩ = some undo := by
  cases undo with
  | _ => rfl

theorem removed?_error (c : Call) (e : ServiceError) : removed? ⟨c, .error e⟩ = none := by
  cases c with
  | _ => rfl

end Exchange

theorem Undo.attempt_cases (deadline : Nat) (undo : Undo) (w : World) :
    (exists e, undo.toCall.attempt (some deadline) w = (.error e, (undo.toCall.start w).2)) ∨
      exists r, undo.toCall.attempt (some deadline) w =
        (.ok r, (undo.toCall.start w).2.without undo) := by
  cases hreply : (undo.toCall.attempt (some deadline) w).1 with
  | error e => exact Or.inl ⟨e, Prod.ext hreply (Call.attempt_error hreply)⟩
  | ok r =>
      rcases undo.toCall.attempt_cases (some deadline) w with ⟨e, heq⟩ | heq
      · rw [heq] at hreply
        cases hreply
      · rw [heq] at hreply
        refine Or.inr ⟨r, heq.trans (Prod.ext hreply ?_)⟩
        exact Undo.perform_eq_ok (Prod.ext hreply rfl)

/-!
# The actions of a stack, one after the other
-/

section Unwind

variable (deadline : Nat) (undo : Undo) (undos : List Undo) (w : World)

theorem run_unwind_cons :
    (unwind (undo :: undos)).run deadline w =
      let answered := undo.toCall.attempt (some deadline) w
      let rest := (unwind undos).run deadline answered.2
      (rest.1 + if Undo.isFailure answered.1 then 1 else 0, rest.2) := by
  simp only [unwind, Saga.run, Saga.run_bind]

theorem failures_unwind :
    ((unwind undos).run deadline w).1 =
      ((unwind undos).transcript deadline w).countP Exchange.isFailure := by
  induction undos generalizing w with
  | nil => rfl
  | cons undo undos ih =>
      rw [run_unwind_cons, transcript_unwind_cons, List.countP_cons, Exchange.isFailure_eq]
      exact congrArg (· + _) (ih _)

theorem world_unwind (p : FaultPlan) :
    { ((unwind undos).run deadline w).2 with faults := p } =
      (((unwind undos).transcript deadline w).filterMap Exchange.removed?).foldl World.without
        { w with faults := p } := by
  induction undos generalizing w with
  | nil => rfl
  | cons undo undos ih =>
      rw [run_unwind_cons, transcript_unwind_cons]
      refine (ih _).trans ?_
      rcases undo.attempt_cases deadline w with ⟨e, heq⟩ | ⟨r, heq⟩
      · rw [heq, List.filterMap_cons_none (Exchange.removed?_error _ e)]
        rfl
      · rw [heq, List.filterMap_cons_some (Exchange.removed?_toCall_ok undo r), List.foldl_cons]
        have hsame := (undo.toCall.start w).2.without_withFaults p undo
        exact congrArg (List.foldl World.without · _) hsame.symm

theorem answer_unwind {k : Nat} (h : undos[k]? = some undo) :
    ((unwind undos).transcript deadline w)[k]? = some ⟨undo.toCall,
      (undo.toCall.attempt (some deadline) ((unwind (undos.take k)).run deadline w).2).1⟩ := by
  induction undos generalizing w k with
  | nil => cases h
  | cons first undos ih =>
      rw [transcript_unwind_cons]
      cases k with
      | zero =>
          rcases Option.some.inj h with rfl
          rfl
      | succ k =>
          rw [List.take_succ_cons, run_unwind_cons]
          exact ih _ h

end Unwind

/-!
# Calls that are late
-/

theorem FaultPlan.fault?_check_delay {p : FaultPlan} {operation : String} {millis : Nat}
    (h : p.fault? operation = some (.delay millis)) (other : String) :
    (p.check other).2.fault? operation = some (.delay millis) := by
  by_cases hsame : operation = other
  · rw [← hsame, fault?_check_self, h]
    rfl
  · rw [fault?_check_of_ne p hsame, h]

theorem Call.attempt_late {c : Call} {w : World} {deadline millis : Nat}
    (h : w.faults.fault? c.operation = some (.delay millis)) (hlate : deadline < millis) :
    (c.attempt (some deadline) w).1 = .error (c.timedOut deadline) := by
  have hpause : c.start w = (.pause millis, (c.start w).2) := by
    simp only [start, FaultPlan.check, h, FaultPlan.verdict]
  rw [attempt, hpause]
  exact congrArg Prod.fst (if_pos hlate)

theorem late_unwind {operation : String} {deadline millis : Nat} (hlate : deadline < millis)
    (undos : List Undo) {w : World} (h : w.faults.fault? operation = some (.delay millis)) :
    forall x, x ∈ (unwind undos).transcript deadline w -> x.operation = operation ->
      x.isFailure = true := by
  induction undos generalizing w with
  | nil => exact fun x hx => absurd hx List.not_mem_nil
  | cons undo undos ih =>
      rw [transcript_unwind_cons]
      intro x hx hop
      rcases List.mem_cons.mp hx with rfl | hx
      · have hreply := Call.attempt_late (c := undo.toCall) (hop ▸ h) hlate
        rw [hreply]
        rfl
      · refine ih ?_ x hx hop
        rw [Call.faults_attempt]
        exact FaultPlan.fault?_check_delay h undo.toCall.operation

/-!
# Stacks
-/

/-- Whatever was pushed, and whatever the services hold and the plan of faults makes of it, each
action is called once, from the one that was pushed last to the one that was pushed first, and it
meets what those before it have left.  The result is the number of calls that failed other than by
finding nothing, with those that were late.  What is left is what there was, without what each
action that was done has removed. -/
theorem unwind_newest_first (deadline : Nat) (pushed : List Undo) (w : World) :
    let undos := Undo.stack pushed
    let answers : List Exchange := (unwind undos).transcript deadline w
    let v := ((unwind undos).run deadline w).2
    answers.map (·.call) = (pushed.map Undo.toCall).reverse ∧
      v.faults.calls = w.faults.calls ++ (pushed.map fun undo => undo.toCall.operation).reverse ∧
      (forall (k : Nat) undo, undos[k]? = some undo ->
        answers[k]? = some ⟨undo.toCall, (undo.toCall.attempt (some deadline)
          ((unwind (undos.take k)).run deadline w).2).1⟩) ∧
      ((unwind undos).run deadline w).1 = answers.countP Exchange.isFailure ∧
      (forall operation millis, w.faults.fault? operation = some (.delay millis) ->
        deadline < millis ->
        forall x, x ∈ answers -> x.operation = operation -> x.isFailure = true) ∧
      v = (answers.filterMap Exchange.removed?).foldl World.without
        { w with faults := v.faults } := by
  intro undos answers v
  have hcalls : answers.map (·.call) = (pushed.map Undo.toCall).reverse := by
    rw [← List.map_reverse, ← Undo.stack_eq]
    exact map_call_transcript_unwind deadline undos w
  refine ⟨hcalls, ?_, ?_, ?_, ?_, ?_⟩
  · have hlog : answers.map Exchange.operation = (answers.map (·.call)).map Call.operation := by
      rw [List.map_map]
      rfl
    rw [Saga.calls_run]
    congr 1
    rw [hlog, hcalls, List.map_reverse, List.map_map]
    rfl
  · exact fun k undo h => answer_unwind deadline undo undos w h
  · exact failures_unwind deadline undos w
  · exact fun operation millis h hlate => late_unwind hlate undos h
  · exact world_unwind deadline undos w v.faults

/-!
# An example
-/

/-- A draft with its target, whose subscription is to the topic "heat", and a rule.  Rows of
targets are removed too slowly. -/
def halfMade : World where
  store :=
    ⟨[], [⟨⟨Uuid.ofNat 5⟩, ⟨7⟩, ⟨1⟩, ⟨"temperature", .greaterThan, 30⟩, "Too warm", none⟩],
      [⟨⟨Uuid.ofNat 6⟩, ⟨Uuid.ofNat 5⟩, .sms, "+4912345678", ⟨"1"⟩⟩]⟩
  broker :=
    ⟨[⟨"heat", Broker.handleFor "heat"⟩],
      [⟨⟨"1"⟩, Broker.handleFor "heat", "sms", "+4912345678"⟩], []⟩
  engine :=
    ⟨[⟨⟨"warm"⟩, "warm",
      ⟨"thermostat", ⟨"temperature", .greaterThan, 30⟩, "Too warm", ""⟩, Broker.handleFor "heat"⟩]⟩
  faults := FaultPlan.empty.set "store.delete_target" (.delay 90)
  locks := LockTable.empty
  ids := ⟨Uuid.ofNat, 0⟩

/-- The rule is to be removed twice, and so is a topic that is not there. -/
def halfMadeUndos : List Undo :=
  [.deleteTrigger ⟨Uuid.ofNat 5⟩, .deleteTopic (Broker.handleFor "heat"), .unsubscribe ⟨"1"⟩,
    .deleteTarget ⟨Uuid.ofNat 6⟩, .removeRule ⟨"warm"⟩, .removeRule ⟨"warm"⟩,
    .deleteTopic ⟨"frost"⟩]

/-- The row of the target is removed too late, so the draft cannot be removed either: two of
seven actions fail.  The others leave nothing of theirs. -/
theorem halfMade_newest_first :
    let undos := Undo.stack halfMadeUndos
    let answers := (unwind undos).transcript 50 halfMade
    let v := ((unwind undos).run 50 halfMade).2
    answers.map (·.call) = (halfMadeUndos.map Undo.toCall).reverse ∧
      v.faults.calls = ["broker.delete_topic", "rules.remove_rule", "rules.remove_rule",
        "store.delete_target", "broker.unsubscribe", "broker.delete_topic",
        "store.delete_trigger"] ∧
      ((unwind undos).run 50 halfMade).1 = answers.countP Exchange.isFailure ∧
      answers.countP Exchange.isFailure = 2 ∧
      answers.filterMap Exchange.removed? = [.removeRule ⟨"warm"⟩, .unsubscribe ⟨"1"⟩,
        .deleteTopic (Broker.handleFor "heat")] ∧
      v.store = halfMade.store ∧ v.broker = Broker.empty ∧ v.engine = RuleEngine.empty := by
  intro undos answers v
  have hremoved : answers.filterMap Exchange.removed? = [.removeRule ⟨"warm"⟩,
      .unsubscribe ⟨"1"⟩, .deleteTopic (Broker.handleFor "heat")] := by
    decide +kernel
  rcases unwind_newest_first 50 halfMadeUndos halfMade with ⟨hcalls, hlog, _, hcount, _, hleft⟩
  rw [hremoved] at hleft
  refine ⟨hcalls, hlog, hcount, by decide +kernel, hremoved, ?_, ?_, ?_⟩
  · rw [congrArg World.store hleft]
    rfl
  · rw [congrArg World.broker hleft]
    decide +kernel
  · rw [congrArg World.engine hleft]
    decide +kernel

end TelemetryTriggers
