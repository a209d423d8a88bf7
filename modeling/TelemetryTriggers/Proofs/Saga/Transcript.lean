import TelemetryTriggers.Proofs.Saga.Alone
import TelemetryTriggers.Saga.Undo

/-!
# Transcripts

The transcript of a run is the list of its calls with what they were answered, and it is what
the run adds to the log.  An operation in which every step that fails takes back the steps
before it has a transcript of one form: its calls in order, all of them successful, or those
up to the first one that fails and then the actions that take back what was made, newest
first.

Main definitions: `Exchange`; `Saga.transcript`; `Exchange.undo?`, the action that takes back
a call; `InOrder`, the form of the transcript; `Operation.Proceeds`.  The main statements are
`Saga.calls_run` and the rules for `Operation.Proceeds`, one for each way in which operations
are put together.
-/

namespace TelemetryTriggers

structure Exchange where
  call : Call
  reply : Except ServiceError call.Reply

namespace Exchange

def operation (x : Exchange) : String :=
  x.call.operation

def isOk (x : Exchange) : Bool :=
  x.reply.isOk

def undo? : Exchange -> Option Undo
  | ⟨.insertTrigger row, .ok _⟩ => some (.deleteTrigger row.id)
  | ⟨.createTopic _, .ok topic⟩ => some (.deleteTopic topic)
  | ⟨.subscribe _ _ _, .ok subscription⟩ => some (.unsubscribe subscription)
  | ⟨.insertTarget row, .ok _⟩ => some (.deleteTarget row.id)
  | ⟨.installRule _ _ _, .ok rule⟩ => some (.removeRule rule)
  | _ => none

def undos (xs : List Exchange) : List Undo :=
  (xs.filterMap undo?).reverse

theorem undos_append (xs ys : List Exchange) : undos (xs ++ ys) = undos ys ++ undos xs := by
  rw [undos, List.filterMap_append, List.reverse_append]
  rfl

end Exchange

/-!
# Transcripts of runs
-/

theorem Call.faults_attempt (deadline : Option Nat) (c : Call) (w : World) :
    (c.attempt deadline w).2.faults = (w.faults.check c.operation).2 := by
  rcases c.attempt_cases deadline w with ⟨e, heq⟩ | heq
  · rw [heq]
    rfl
  · rw [heq, c.perform_faults]
    rfl

theorem Call.calls_attempt (deadline : Option Nat) (c : Call) (w : World) :
    (c.attempt deadline w).2.faults.calls = w.faults.calls ++ [c.operation] := by
  rw [c.faults_attempt, FaultPlan.calls_check]

namespace Saga

variable {α β : Type} {deadline : Nat}

def transcript (deadline : Nat) : Saga α -> World -> List Exchange
  | .done _, _ => []
  | .call c next, w =>
      let (reply, w) := c.attempt (some deadline) w
      ⟨c, reply⟩ :: (next reply).transcript deadline w
  | .acquire id next, w =>
      match w.locks.acquire? id with
      | some locks => (next true).transcript deadline { w with locks }
      | none => (next false).transcript deadline w
  | .release id next, w => next.transcript deadline { w with locks := w.locks.release id }
  | .isHeld id next, w => (next (w.locks.isHeld id)).transcript deadline w
  | .draw next, w => (next w.ids.next.1).transcript deadline { w with ids := w.ids.next.2 }
  | .detach next, w => next.transcript deadline w

theorem transcript_bind (deadline : Nat) (s : Saga α) (f : α -> Saga β) (w : World) :
    (s.bind f).transcript deadline w = s.transcript deadline w ++
      (f (s.run deadline w).1).transcript deadline (s.run deadline w).2 := by
  induction s generalizing w with
  | done a => rfl
  | call c next ih => simp only [Saga.bind, transcript, run, ih, List.cons_append]
  | acquire id next ih =>
      simp only [Saga.bind, transcript, run]
      cases w.locks.acquire? id with
      | none => exact ih false w
      | some locks => exact ih true _
  | release id next ih => exact ih _
  | isHeld id next ih => exact ih _ w
  | draw next ih => exact ih _ _
  | detach next ih => exact ih w

theorem calls_run (s : Saga α) (w : World) :
    (s.run deadline w).2.faults.calls =
      w.faults.calls ++ (s.transcript deadline w).map Exchange.operation := by
  induction s generalizing w with
  | done a => exact (List.append_nil _).symm
  | call c next ih =>
      simp only [run, transcript, List.map_cons]
      rw [ih, c.calls_attempt, List.append_assoc]
      rfl
  | acquire id next ih =>
      simp only [run, transcript]
      cases w.locks.acquire? id with
      | none => exact ih false w
      | some locks => exact ih true _
  | release id next ih => exact ih _
  | isHeld id next ih => exact ih _ w
  | draw next ih => exact ih _ _
  | detach next ih => exact ih w

end Saga

theorem transcript_unwind_cons (deadline : Nat) (undo : Undo) (undos : List Undo) (w : World) :
    (unwind (undo :: undos)).transcript deadline w =
      ⟨undo.toCall, (undo.toCall.attempt (some deadline) w).1⟩ ::
        (unwind undos).transcript deadline (undo.toCall.attempt (some deadline) w).2 := by
  simp only [unwind, Saga.transcript, Saga.transcript_bind, List.append_nil]

theorem map_call_transcript_unwind (deadline : Nat) (undos : List Undo) (w : World) :
    ((unwind undos).transcript deadline w).map (·.call) = undos.map Undo.toCall := by
  induction undos generalizing w with
  | nil => rfl
  | cons undo undos ih => rw [transcript_unwind_cons, List.map_cons, List.map_cons, ih]

/-!
# Operations that take back what they did
-/

/-- Calls in the order of the names, each of them successful, or those up to one on which the
operation fails.  Then what they created is taken back, newest first, together with what the
given stack takes back. -/
inductive InOrder {α : Type} (fatal : Exchange -> TriggerError -> Prop) (names : List String)
    (undos : List Undo) (Q : List Exchange -> α -> Prop) :
    Except TriggerError α -> List Exchange -> Prop
  | done {a : α} {xs : List Exchange} (hnames : xs.map Exchange.operation = names)
      (hok : forall x, x ∈ xs -> x.isOk = true) (hresult : Q xs a) :
      InOrder fatal names undos Q (.ok a) xs
  | takenBack {e : TriggerError} (xs : List Exchange) {undone : List Exchange} {last : Exchange}
      (hnames : (xs ++ [last]).map Exchange.operation <+: names)
      (hok : forall x, x ∈ xs -> x.isOk = true) (hfatal : fatal last e)
      (hundone : undone.map (·.call) = (Exchange.undos xs ++ undos).map Undo.toCall) :
      InOrder fatal names undos Q (.error e) (xs ++ last :: undone)

theorem InOrder.of_error {α : Type} {fatal : Exchange -> TriggerError -> Prop}
    {names : List String} {undos : List Undo} {Q : List Exchange -> α -> Prop} {e : TriggerError}
    {calls : List Exchange} (h : InOrder fatal names undos Q (.error e) calls) :
    exists xs last undone, calls = xs ++ last :: undone ∧
      (xs ++ [last]).map Exchange.operation <+: names ∧ (forall x, x ∈ xs -> x.isOk = true) ∧
        fatal last e ∧ undone.map (·.call) = (Exchange.undos xs ++ undos).map Undo.toCall := by
  cases h with
  | takenBack _ hnames hok hfatal hundone =>
      exact ⟨_, _, _, rfl, hnames, hok, hfatal, hundone⟩

namespace Operation

variable {α β : Type} {fatal : Exchange -> TriggerError -> Prop} {deadline : Nat}
  {names : List String} {undos : List Undo}

/-- The operation makes calls in the order of the names, and if one of them fails takes back
what was created. -/
def Proceeds (fatal : Exchange -> TriggerError -> Prop) (deadline : Nat) (names : List String)
    (undos : List Undo) (op : Operation α) (Q : List Exchange -> α -> Prop) : Prop :=
  forall w, InOrder fatal names undos Q (op.run.run deadline w).1 (op.run.transcript deadline w)

theorem inOrder_bind {l m : List String} {op : Operation α} {f : α -> Operation β}
    {w : World} {Q : List Exchange -> α -> Prop} {R : List Exchange -> β -> Prop}
    (h : InOrder fatal l undos Q (op.run.run deadline w).1 (op.run.transcript deadline w))
    (hf : forall xs a, Q xs a -> (f a).Proceeds fatal deadline m (Exchange.undos xs ++ undos)
      fun ys b => R (xs ++ ys) b) :
    InOrder fatal (l ++ m) undos R ((op >>= f).run.run deadline w).1
      ((op >>= f).run.transcript deadline w) := by
  show InOrder fatal _ _ R ((op.run.bind (ExceptT.bindCont f)).run deadline w).1
    ((op.run.bind (ExceptT.bindCont f)).transcript deadline w)
  rw [Saga.run_bind, Saga.transcript_bind]
  generalize op.run.transcript deadline w = xs at h
  cases hrun : op.run.run deadline w with
  | mk result v =>
      rw [hrun] at h
      cases h with
      | takenBack _ hnames hok hfatal hundone =>
          -- the second operation is not started
          show InOrder fatal _ _ R (.error _) (_ ++ [])
          rw [List.append_nil]
          exact .takenBack _ (hnames.trans (List.prefix_append _ _)) hok hfatal hundone
      | @done a _ hnames hok hresult =>
          have hsecond := hf xs a hresult v
          show InOrder fatal _ _ R ((f a).run.run deadline v).1
            (xs ++ (f a).run.transcript deadline v)
          generalize (f a).run.transcript deadline v = ys at hsecond
          generalize ((f a).run.run deadline v).1 = result at hsecond
          have hboth : forall {zs}, (forall x, x ∈ zs -> x.isOk = true) ->
              forall x, x ∈ xs ++ zs -> x.isOk = true := by
            intro zs hzs x hx
            rcases List.mem_append.mp hx with hx | hx
            · exact hok x hx
            · exact hzs x hx
          cases hsecond with
          | done hnames' hok' hresult' =>
              refine .done ?_ (hboth hok') hresult'
              rw [List.map_append, hnames, hnames']
          | takenBack _ hnames' hok' hfatal hundone =>
              rw [← List.append_assoc]
              refine .takenBack _ ?_ (hboth hok') hfatal ?_
              · rw [List.append_assoc, List.map_append, hnames]
                exact (List.prefix_append_right_inj _).mpr hnames'
              · rw [Exchange.undos_append, List.append_assoc]
                exact hundone

theorem Proceeds.bind {l m : List String} {op : Operation α} {f : α -> Operation β}
    {Q : List Exchange -> α -> Prop} {R : List Exchange -> β -> Prop}
    (h : op.Proceeds fatal deadline l undos Q)
    (hf : forall xs a, Q xs a -> (f a).Proceeds fatal deadline m (Exchange.undos xs ++ undos)
      fun ys b => R (xs ++ ys) b) :
    (op >>= f).Proceeds fatal deadline (l ++ m) undos R :=
  fun w => inOrder_bind (h w) hf

theorem Proceeds.mono {op : Operation α} {Q R : List Exchange -> α -> Prop}
    (h : op.Proceeds fatal deadline names undos Q) (hQ : forall xs a, Q xs a -> R xs a) :
    op.Proceeds fatal deadline names undos R := by
  intro w
  have hw := h w
  generalize op.run.transcript deadline w = xs at hw
  generalize (op.run.run deadline w).1 = result at hw
  cases hw with
  | done hnames hok hresult => exact .done hnames hok (hQ _ _ hresult)
  | takenBack _ hnames hok hfatal hundone => exact .takenBack _ hnames hok hfatal hundone

theorem proceeds_pure (a : α) :
    Proceeds fatal deadline [] undos (pure a) fun xs b => xs = [] ∧ b = a :=
  fun _ => .done rfl (fun _ hx => absurd hx List.not_mem_nil) ⟨rfl, rfl⟩

theorem proceeds_fresh :
    Proceeds fatal deadline [] undos fresh fun xs _ => xs = [] :=
  fun _ => .done rfl (fun _ hx => absurd hx List.not_mem_nil) rfl

theorem proceeds_ofExcept {result : Except TriggerError α} {a : α} (h : result = .ok a) :
    Proceeds fatal deadline [] undos ((ofExcept result).orUndo undos)
      fun xs b => xs = [] ∧ b = a := by
  rw [h]
  exact fun _ => .done rfl (fun _ hx => absurd hx List.not_mem_nil) ⟨rfl, rfl⟩

theorem orUndo_nil (op : Operation α) : op.orUndo [] = op := by
  show Saga.bind op.run _ = op.run
  conv => rhs; rw [← op.run.bind_done]
  congr 1
  funext result
  cases result with
  | ok a => rfl
  | error e => rfl

theorem run_ask_orUndo (c : Call) (undos : List Undo) :
    ((ask c).orUndo undos).run = .call c fun reply =>
      match reply with
      | .ok r => .done (.ok r)
      | .error e => (unwind undos).bind fun _ => .done (.error (c.service.failure e)) := by
  show Saga.call c _ = _
  congr 1
  funext reply
  cases reply with
  | ok r => rfl
  | error e => rfl

theorem proceeds_ask {c : Call} (hfatal : forall e, fatal ⟨c, .error e⟩ (c.service.failure e)) :
    Proceeds fatal deadline [c.operation] undos ((ask c).orUndo undos)
      fun xs r => xs = [⟨c, .ok r⟩] := by
  intro w
  have hunwind := map_call_transcript_unwind deadline undos (c.attempt (some deadline) w).2
  rw [run_ask_orUndo]
  simp only [Saga.run, Saga.transcript]
  cases hreply : (c.attempt (some deadline) w).1 with
  | ok r => exact .done rfl (fun x hx => by rw [List.mem_singleton.mp hx]; rfl) rfl
  | error e =>
      simp only [Saga.transcript_bind, Saga.run_bind]
      refine .takenBack [] (List.prefix_refl _) (fun _ hx => absurd hx List.not_mem_nil)
        (hfatal e) ?_
      rw [List.map_append, hunwind]
      exact List.append_nil _

end Operation
end TelemetryTriggers
