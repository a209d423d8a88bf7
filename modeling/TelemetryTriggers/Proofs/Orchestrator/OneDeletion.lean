import TelemetryTriggers.Proofs.Orchestrator.Interleaving
import TelemetryTriggers.Proofs.Orchestrator.Retired

/-!
# One deletion out of many

Of any number of deletions of a provisioned trigger, one is the first that is given the lock.
If no call fails and nobody else works on the trigger, it ends well.  It is the only one that
removes the rule and the topic: the others find the trigger locked, or they find nothing.

Main definitions: `Saga.Spends`, the calls that are left to a saga until it ends well;
`System.madeBy`, the calls of some operations in a schedule; `Race`, how far the deletions have
come.  The main statements are `Race.follow` and `System.Reachable.one_deletion`.
-/

namespace TelemetryTriggers

/-!
# Calls that have to be made once
-/

namespace Saga

variable {α β : Type} {p : Call -> Bool} {Q : α -> List Call -> Prop} {owed : List Call}

/-- Whatever the saga is answered, it makes calls of a kind only in the order of the list, and
what is left of the list when it ends satisfies the postcondition. -/
def Spends (p : Call -> Bool) (Q : α -> List Call -> Prop) : List Call -> Saga α -> Prop
  | owed, .done a => Q a owed
  | owed, .call c next =>
      exists rest, owed = [c].filter p ++ rest ∧ forall reply, Spends p Q rest (next reply)
  | owed, .acquire _ next => forall free, Spends p Q owed (next free)
  | owed, .release _ next => Spends p Q owed next
  | owed, .isHeld _ next => forall held, Spends p Q owed (next held)
  | owed, .draw next => forall u, Spends p Q owed (next u)
  | owed, .detach next => Spends p Q owed next

theorem Spends.bind {R : β -> List Call -> Prop} {s : Saga α} {f : α -> Saga β}
    (h : s.Spends p Q owed) (hf : forall a owed, Q a owed -> (f a).Spends p R owed) :
    (s.bind f).Spends p R owed := by
  induction s generalizing owed with
  | done a => exact hf a owed h
  | call c next ih =>
      rcases h with ⟨rest, howed, hnext⟩
      exact ⟨rest, howed, fun reply => ih reply (hnext reply)⟩
  | acquire id next ih => exact fun free => ih free (h free)
  | release id next ih => exact ih h
  | isHeld id next ih => exact fun held => ih held (h held)
  | draw next ih => exact fun u => ih u (h u)
  | detach next ih => exact ih h

theorem Spends.step {fails : Call -> ServiceError -> Prop} {s s' : Saga α} {st st' : Standing}
    {w v : World} (h : s.Spends p Q owed) (hstep : s.Step fails st w st' v s') :
    exists rest, owed = s.call?.toList.filter p ++ rest ∧ s'.Spends p Q rest := by
  cases hstep with
  | call c next | failure c next =>
      rcases h with ⟨rest, howed, hnext⟩
      exact ⟨rest, howed, hnext _⟩
  | acquire | busy | isHeld | draw => exact ⟨owed, rfl, h _⟩
  | release | detach => exact ⟨owed, rfl, h⟩

end Saga

namespace Operation

structure Spends {α : Type} (p : Call -> Bool) (owed rest : List Call) (op : Operation α) :
    Prop where
  run : Saga.Spends p (fun (r : Except TriggerError α) left => forall a, r = .ok a -> left = rest)
    owed op.run

namespace Spends

variable {α β : Type} {p : Call -> Bool} {owed rest left : List Call}

theorem bind {op : Operation α} {f : α -> Operation β} (h : Spends p owed rest op)
    (hf : forall a, Spends p rest left (f a)) : Spends p owed left (op >>= f) := by
  constructor
  apply h.run.bind
  intro r owed hleft
  cases r with
  | ok a =>
      rw [hleft a rfl]
      exact (hf a).run
  | error e => exact nofun

theorem pure (a : α) : Spends p owed owed (Pure.pure a) :=
  ⟨fun _ _ => rfl⟩

theorem ask {c : Call} : Spends p ([c].filter p ++ rest) rest (Operation.ask c) := by
  refine ⟨rest, rfl, fun reply => ?_⟩
  cases reply with
  | ok r => exact fun _ _ => rfl
  | error e => exact nofun

theorem ensureGone {c : Call} :
    Spends p ([c].filter p ++ rest) rest (Operation.ensureGone c) := by
  refine ⟨rest, rfl, fun reply => ?_⟩
  cases reply with
  | ok r => exact fun _ _ => rfl
  | error e =>
      cases hgone : e.isAbsence with
      | true =>
          simp only [hgone, if_true]
          exact fun _ _ => rfl
      | false =>
          simp only [hgone, Bool.false_eq_true, if_false]
          exact nofun

theorem removeAll (cs : List Call) :
    Spends p (cs.filter p ++ rest) rest (Lifecycle.removeAll cs) := by
  induction cs with
  | nil => exact pure ()
  | cons c cs ih =>
      rw [show (c :: cs).filter p ++ rest = [c].filter p ++ (cs.filter p ++ rest) by
        rw [← List.append_assoc, ← List.filter_append, List.singleton_append]]
      exact ensureGone.bind fun _ => ih

end Spends
end Operation

def Call.isStripping : Call -> Bool
  | .removeRule _ => true
  | .deleteTopic _ => true
  | _ => false

theorem Call.Reads.not_stripping {c : Call} (h : c.Reads) : c.isStripping = false := by
  cases c with
  | removeRule _ | deleteTopic _ => exact h.elim
  | _ => rfl

def paid {α : Type} (r : Except TriggerError α) (owed : List Call) : Prop :=
  forall a, r = .ok a -> owed = []

theorem deleteRows_spends (id : TriggerId) (targets : List Target) :
    Operation.Spends Call.isStripping [] [] (Lifecycle.deleteRows id targets) := by
  have hnone : (targets.map (fun target : Target => Call.deleteTarget target.id) ++
      [Call.deleteTrigger id]).filter Call.isStripping = [] := by
    apply List.filter_eq_nil_iff.mpr
    intro c hc
    rcases List.mem_append.mp hc with htarget | hlast
    · rcases List.mem_map.mp htarget with ⟨target, _, rfl⟩
      exact Bool.false_ne_true
    · rw [List.mem_singleton.mp hlast]
      exact Bool.false_ne_true
  have hall : Operation.Spends Call.isStripping (_ ++ []) [] (Lifecycle.deleteRows id targets) :=
    .removeAll _
  rw [hnone] at hall
  exact hall

theorem deletion_spends {naming : ResourceNaming} {row : Trigger}
    (hhandles : row.handles = some (naming.handles row.id)) :
    exists next : Except ServiceError (Call.getTrigger row.id).Reply ->
        Saga (Except TriggerError Answer),
      Lifecycle.deletion naming row.user row.id = .call (.getTrigger row.id) next ∧
        (next (.ok (some row))).Spends Call.isStripping paid (handleRemovals naming row.id) := by
  rw [Lifecycle.deletion, Lifecycle.deleteOwned, bind_assoc, Operation.run_ask_bind]
  refine ⟨_, rfl, ?_⟩
  have hmine : Option.filter (fun t : Trigger => t.user == row.user) (some row) = some row := by
    simp [Option.filter]
  have hresources : Operation.Spends Call.isStripping (handleRemovals naming row.id) []
      (Lifecycle.removeResources (naming.handles row.id)) :=
    .removeAll (handleRemovals naming row.id)
  apply Operation.Spends.run
  simp only [hmine, Operation.orFail, pure_bind, bind_assoc, hhandles]
  apply Operation.Spends.bind (Operation.Spends.ask (c := .listTargets row.id))
  intro targets
  apply hresources.bind
  intro _
  exact (deleteRows_spends row.id targets).bind fun _ => .pure _

/-!
# Calls in a schedule
-/

namespace System

variable {s : System} {place : Nat}

def call? (place : Nat) (s : System) : Option Call :=
  s.threads[place]?.bind fun thread => thread.rest.bind Saga.call?

def callBy (who : List Nat) (place : Nat) (s : System) : List Call :=
  if place ∈ who then (s.call? place).toList else []

def madeBy (who : List Nat) : System -> List Nat -> List Call
  | _, [] => []
  | s, place :: places => s.callBy who place ++ madeBy who (s.go place) places

theorem call?_of_rest {request : Request} {st : Standing}
    {work : Saga (Except TriggerError Answer)}
    (hplace : s.threads[place]? = some ⟨request, st, some work⟩) :
    s.call? place = work.call? := by
  rw [call?, hplace]
  rfl

theorem call?_of_stuck (h : s.go? place = none) : s.call? place = none := by
  rw [call?]
  cases hplace : s.threads[place]? with
  | none => rfl
  | some thread =>
      rcases thread with ⟨request, st, rest⟩
      cases rest with
      | none => rfl
      | some work =>
          cases work with
          | call c next =>
              rw [go?, hplace] at h
              cases h
          | _ => rfl

theorem go_calls (s : System) (place : Nat) :
    (s.go place = s ∧ s.call? place = none) ∨
      exists request st st' v work work',
        s.threads[place]? = some ⟨request, st, some work⟩ ∧
          Saga.Step noFault st s.world work st' v work' ∧
            s.go place = ⟨v, s.threads.set place ⟨request, st', some work'⟩⟩ ∧
              s.call? place = work.call? := by
  cases hgo : s.go? place with
  | none =>
      refine Or.inl ⟨?_, call?_of_stuck hgo⟩
      rw [go, hgo]
      rfl
  | some t =>
      right
      have hmoves : Moves noFault place s t := moves_of_go? hgo
      rcases hmoves with ⟨hplace, hstep⟩
      refine ⟨_, _, _, _, _, _, hplace, hstep, ?_, call?_of_rest hplace⟩
      rw [go, hgo]
      rfl

/-- Nobody but the operations at some places ever holds the lock of the trigger in a
schedule. -/
def LeftAlone (s : System) (id : TriggerId) (who places : List Nat) : Prop :=
  forall earlier, earlier <+: places -> forall (other : Nat) thread, other ∉ who ->
    (s.follow earlier).threads[other]? = some thread -> id ∉ thread.standing.locks

end System

/-!
# The deletion that is first
-/

def leading (naming : ResourceNaming) (id : TriggerId) : Terms :=
  ⟨anyCall, World.Fresh naming id, fun _ => False⟩

def trailing (id : TriggerId) : Terms :=
  ⟨Call.Reads, fun _ => False, fun e => e = .conflict id.text ∨ e = Lifecycle.noTrigger id⟩

/-- The deletion that is first has made these calls.  It reads the row, or it has read it, or
it has ended well. -/
inductive Lead (naming : ResourceNaming) (row : Trigger) (made : List Call) (w : World) :
    Standing -> Saga (Except TriggerError Answer) -> Prop
  | asking {st : Standing} {next : Except ServiceError (Call.getTrigger row.id).Reply ->
        Saga (Except TriggerError Answer)}
      (hlocks : st.locks = [row.id]) (hrow : row ∈ w.store.triggers) (hmade : made = [])
      (hinner : (Saga.call (.getTrigger row.id) next).Meets
        (deleting naming noFault anyCall row.id) (leading naming row.id).ends
        (st.inside row.id) w)
      (hspends : (next (.ok (some row))).Spends Call.isStripping paid
        (handleRemovals naming row.id)) :
      Lead naming row made w st ((Saga.call (.getTrigger row.id) next).under row.id)
  | spending {st : Standing} {inner : Saga (Except TriggerError Answer)} {owed : List Call}
      (hlocks : st.locks = [row.id]) (hmade : made ++ owed = handleRemovals naming row.id)
      (hinner : inner.Meets (deleting naming noFault anyCall row.id)
        (leading naming row.id).ends (st.inside row.id) w)
      (hspends : inner.Spends Call.isStripping paid owed) :
      Lead naming row made w st (inner.under row.id)
  | won {st : Standing} (hlocks : st.locks = []) (hfresh : w.Fresh naming row.id)
      (hmade : made = handleRemovals naming row.id) :
      Lead naming row made w st (.done (.ok .deleted))

section Lead

variable {naming : ResourceNaming} {row : Trigger} {made : List Call} {w v : World}
  {st st' : Standing} {work work' : Saga (Except TriggerError Answer)}

theorem Lead.later (h : Lead naming row made w st work)
    (hv : row.id ∈ st.locks -> v.estate naming row.id = w.estate naming row.id)
    (hfresh : w.Fresh naming row.id -> v.Fresh naming row.id) :
    Lead naming row made v st work := by
  have hheld : st.locks = [row.id] -> row.id ∈ st.locks := fun hlocks => by simp [hlocks]
  cases h with
  | asking hlocks hrow hmade hinner hspends =>
      have hv := hv (hheld hlocks)
      exact .asking hlocks (ofEstate_row rfl w v hv hrow) hmade
        (meets_deleting_later (leading naming row.id) World.ofEstate_fresh hinner hv)
        hspends
  | spending hlocks hmade hinner hspends =>
      exact .spending hlocks hmade (meets_deleting_later (leading naming row.id)
        World.ofEstate_fresh hinner (hv (hheld hlocks))) hspends
  | won hlocks hwon hmade => exact .won hlocks (hfresh hwon) hmade

theorem Lead.fresh_of_free (h : Lead naming row made w st work) (hfree : row.id ∉ st.locks) :
    w.Fresh naming row.id := by
  cases h with
  | asking hlocks => exact absurd (by simp [hlocks]) hfree
  | spending hlocks => exact absurd (by simp [hlocks]) hfree
  | won _ hfresh => exact hfresh

theorem Lead.of_done {r : Except TriggerError Answer}
    (h : Lead naming row made w st (.done r)) :
    r = .ok .deleted ∧ made = handleRemovals naming row.id := by
  generalize hwork : Saga.done r = work at h
  cases h with
  | asking => cases hwork
  | @spending inner =>
      cases inner with
      | _ => cases hwork
  | won _ _ hmade =>
      cases hwork
      exact ⟨rfl, hmade⟩

theorem Lead.of_acquire (hw : w.Regular naming) (hprovisioned : row.isProvisioned = true)
    (hrow : row ∈ w.store.triggers) {locks : LockTable} (hlocks : st.locks = [row.id]) :
    Lead naming row [] { w with locks } st
      ((Lifecycle.deletion naming row.user row.id).under row.id) := by
  have hhandles : row.handles = some (naming.handles row.id) := by
    rcases Option.isSome_iff_exists.mp hprovisioned with ⟨handles, hhandles⟩
    rw [hhandles, hw.handles row hrow handles hhandles]
  rcases deletion_spends hhandles with ⟨next, hdeletion, hspends⟩
  have hclears : (Lifecycle.deletion naming row.user row.id).Triple
      (deleting naming noFault anyCall row.id)
      (fun _ w => forall t, some row = some t -> t ∈ w.store.triggers)
      (leading naming row.id).ends := by
    apply deletion_clears (some row) fun _ _ he => he.elim
    · rintro t ⟨⟩
      exact ⟨rfl, rfl⟩
    · exact fun _ h => h
    · intro e hfailing
      rcases hfailing rfl with ⟨_, _, hnever⟩
      exact hnever
  have hinner := hclears (st.inside row.id) { w with locks } (by rintro t ⟨⟩; exact hrow)
  rw [hdeletion] at hinner ⊢
  exact .asking hlocks hrow rfl hinner hspends

theorem Saga.Step.of_call {c : Call} {next : Except ServiceError c.Reply ->
      Saga (Except TriggerError Answer)}
    (h : (Saga.call c next).Step noFault st w st' v work) :
    work = next (c.perform w).1 := by
  cases h with
  | call => rfl
  | failure _ _ _ _ e he => exact he.elim

theorem Lead.step (h : Lead naming row made w st work) (hw : w.Regular naming)
    (hstep : work.Step noFault st w st' v work') :
    Lead naming row (made ++ work.call?.toList.filter Call.isStripping) v st' work' := by
  cases h with
  | asking hlocks hrow hmade hinner hspends =>
      rcases step_under (leading naming row.id) hlocks hinner hw hstep with
        ⟨inner', rfl, hlocks', hinside, hinner'⟩ | ⟨r, hdone, _⟩
      · rcases hmade with rfl
        have hread : ((Call.getTrigger row.id).perform w).1 = .ok (some row) :=
          congrArg Except.ok (hw.integrity.store.trigger?_eq_some hrow)
        have hnext := hinside.of_call
        rw [hread] at hnext
        rw [← hnext] at hspends
        exact .spending hlocks' rfl hinner' hspends
      · cases hdone
  | @spending inner owed hlocks hmade hinner hspends =>
      rcases step_under (leading naming row.id) hlocks hinner hw hstep with
        ⟨inner', rfl, hlocks', hinside, hinner'⟩ | ⟨r, rfl, rfl, hfree, rfl⟩
      · rcases hspends.step hinside with ⟨rest, howed, hspends'⟩
        refine .spending hlocks' ?_ hinner' hspends'
        rw [Saga.call?_under, List.append_assoc, ← howed]
        exact hmade
      · cases r with
        | ok answer =>
            rcases hinner with ⟨rfl, hfresh⟩
            rw [hspends .deleted rfl] at hmade
            exact .won hfree (hfresh.same ⟨rfl, rfl, rfl, rfl⟩) hmade
        | error e => exact hinner.elim
  | won => cases hstep

end Lead

/-!
# The race
-/

theorem Saga.Step.free {α : Type} {fails : Call -> ServiceError -> Prop} {s s' : Saga α}
    {st st' : Standing} {w v : World} {id : TriggerId} (h : s.Step fails st w st' v s')
    (hfree : w.locks.isHeld id = false) (hnot : id ∉ st'.locks) :
    v.locks.isHeld id = false := by
  rw [Bool.eq_false_iff]
  intro hheld
  rcases h.held hheld with hmine | ⟨hold, _⟩
  · exact hnot hmine
  · rw [hfree] at hold
    cases hold

theorem Saga.Step.of_noFault {α : Type} {fails : Call -> ServiceError -> Prop} {s s' : Saga α}
    {st st' : Standing} {w v : World} (h : s.Step noFault st w st' v s') :
    s.Step fails st w st' v s' := by
  cases h with
  | call c next => exact .call c next _ w
  | failure _ _ _ _ _ he => exact he.elim
  | acquire id next st w locks hlocks => exact .acquire id next st w locks hlocks
  | busy id next _ _ hlocks => exact .busy id next _ _ hlocks
  | release id next st w => exact .release id _ st w
  | isHeld id next => exact .isHeld id next _ _
  | draw next st w => exact .draw next st w
  | detach next st w => exact .detach _ st _

inductive Race (naming : ResourceNaming) (row : Trigger) (deletions : List Nat)
    (made : List Call) (s : System) : Prop
  | undecided (hrow : row ∈ s.world.store.triggers)
      (hfree : s.world.locks.isHeld row.id = false) (hmade : made = [])
      (hcoming : s.Deleting naming noFault (leading naming row.id) row.id (· ∈ deletions))
  | decided (winner : Nat) (hmem : winner ∈ deletions) (st : Standing)
      (work : Saga (Except TriggerError Answer))
      (hplace : s.threads[winner]? = some ⟨.delete row.user row.id, st, some work⟩)
      (hlead : Lead naming row made s.world st work)
      (hothers : s.Deleting naming noFault (trailing row.id) row.id
        fun other => other ∈ deletions ∧ other ≠ winner)

section Race

variable {config : Config} {fails : Call -> ServiceError -> Prop} {things : List Thing}
  {ids : IdSource} {row : Trigger} {deletions : List Nat} {made : List Call} {w v : World}
  {threads : List Thread} {place : Nat} {request : Request} {st st' : Standing}
  {work work' : Saga (Except TriggerError Answer)}

theorem ofEstate_trailing (naming : ResourceNaming) (id : TriggerId) :
    OfEstate naming id (trailing id).wins :=
  fun _ _ _ h => h

theorem Race.stranger (h : Race config.naming row deletions made ⟨w, threads⟩)
    (hs : System.Reachable config fails things ids ⟨w, threads⟩) (hids : w.ids.Unrepeated)
    (hplace : threads[place]? = some ⟨request, st, some work⟩)
    (hstep : work.Step fails st w st' v work') (hout : place ∉ deletions)
    (hnot : row.id ∉ st.locks) (hnot' : row.id ∉ st'.locks) :
    Race config.naming row deletions made
      ⟨v, threads.set place ⟨request, st', some work'⟩⟩ := by
  have hestate : v.estate config.naming row.id = w.estate config.naming row.id :=
    estate_of_step hs.ordered (hs.drawn hids).distinct hplace hstep hnot
  have hout : forall other, other ∈ deletions -> other ≠ place := by
    rintro other hother rfl
    exact hout hother
  cases h with
  | undecided hrow hfree hmade hcoming =>
      have hothers := hcoming.others hs hids World.ofEstate_fresh hplace hstep
      refine .undecided (ofEstate_row rfl w v hestate hrow) (hstep.free hfree hnot') hmade ?_
      exact fun other user st work hother => hothers other user st work ⟨hother, hout other hother⟩
  | decided winner hmem st work hwinner hlead hothers =>
      have hothers := hothers.others hs hids (ofEstate_trailing _ _) hplace hstep
      refine .decided winner hmem st work ?_ ?_ ?_
      · exact (List.getElem?_set_ne (hout winner hmem).symm).trans hwinner
      · exact hlead.later (fun _ => hestate) (World.ofEstate_fresh w v hestate)
      · exact fun other user st work hother =>
          hothers other user st work ⟨hother, hout other hother.1⟩

theorem Race.first (hs : System.Reachable config fails things ids ⟨w, threads⟩)
    (hids : w.ids.Unrepeated) (hprovisioned : row.isProvisioned = true)
    (hrow : row ∈ w.store.triggers) (hfree : w.locks.isHeld row.id = false)
    (hcoming : System.Deleting config.naming noFault (leading config.naming row.id) row.id
      (· ∈ deletions) ⟨w, threads⟩)
    (hplace : threads[place]? = some ⟨.delete row.user row.id, st, some work⟩)
    (hstep : work.Step noFault st w st' v work') (hmem : place ∈ deletions) :
    work.call? = none ∧ Race config.naming row deletions []
      ⟨v, threads.set place ⟨.delete row.user row.id, st', some work'⟩⟩ := by
  have hothers := hcoming.others hs hids World.ofEstate_fresh hplace hstep.of_noFault
  have hnobody : forall (other : Nat) thread, threads[other]? = some thread ->
      row.id ∉ thread.standing.locks := by
    intro other thread hother hheld
    have hheld : w.locks.isHeld row.id = true := hs.ordered.held other thread hother _ hheld
    rw [hfree] at hheld
    cases hheld
  cases hcoming place row.user st work hmem hplace with
  | coming hlocks hwork =>
      rcases hwork with rfl | rfl
      · cases hstep
        refine ⟨rfl, .undecided hrow hfree rfl (hothers.insert ?_)⟩
        intro user heq _
        cases heq
        exact .coming hlocks (Or.inr rfl)
      · refine ⟨rfl, ?_⟩
        cases hstep with
        | busy _ _ _ _ hbusy =>
            rw [LockTable.acquire?_of_free hfree] at hbusy
            cases hbusy
        | acquire _ _ _ _ locks hacquire =>
            have hmine : st.locks = [] := hlocks
            refine .decided place hmem _ _
              (List.getElem?_set_self (List.getElem?_eq_some_iff.mp hplace).1) ?_ ?_
            · exact .of_acquire hs.regular hprovisioned hrow (congrArg (row.id :: ·) hmine)
            · intro other user rival rest hother hrest
              apply (hothers other user rival rest hother hrest).of_not_held
                fun _ (hnever : False) => hnever.elim
              rcases getElem?_set_cases hrest with ⟨hsame, _⟩ | ⟨_, hold⟩
              · exact absurd hsame.symm hother.2
              · exact hnobody other _ hold
  | working hlocks _ => exact absurd (by simp [hlocks]) (hnobody place _ hplace)
  | refused => cases hstep

theorem Race.follower {winner : Nat} {stw : Standing}
    {lead : Saga (Except TriggerError Answer)}
    (hs : System.Reachable config fails things ids ⟨w, threads⟩) (hids : w.ids.Unrepeated)
    (hmem : winner ∈ deletions)
    (hwinner : threads[winner]? = some ⟨.delete row.user row.id, stw, some lead⟩)
    (hlead : Lead config.naming row made w stw lead)
    (hothers : System.Deleting config.naming noFault (trailing row.id) row.id
      (fun other => other ∈ deletions ∧ other ≠ winner) ⟨w, threads⟩)
    (hplace : threads[place]? = some ⟨.delete row.user row.id, st, some work⟩)
    (hstep : work.Step noFault st w st' v work') (hplaced : place ∈ deletions)
    (hne : place ≠ winner) :
    work.call?.toList.filter Call.isStripping = [] ∧ Race config.naming row deletions made
      ⟨v, threads.set place ⟨.delete row.user row.id, st', some work'⟩⟩ := by
  have hmine := hothers place row.user st work ⟨hplaced, hne⟩ hplace
  have hrest := hothers.others hs hids (ofEstate_trailing _ _) hplace hstep.of_noFault
  -- the lock is free only when nothing is left
  have hstart : forall st locks, w.locks.acquire? row.id = some locks ->
      (Lifecycle.deletion config.naming row.user row.id).Meets
        (deleting config.naming noFault (trailing row.id).allowed row.id) (trailing row.id).ends st
        { w with locks } := by
    intro st locks hacquire
    have hgone : w.Fresh config.naming row.id := by
      apply hlead.fresh_of_free
      intro hheld
      have hheld : w.locks.isHeld row.id = true := hs.ordered.held winner _ hwinner _ hheld
      rw [(LockTable.acquire?_eq_some hacquire).1] at hheld
      cases hheld
    apply deletion_refused (trailing row.id)
    · exact fun _ hreads => hreads
    · exact Or.inr rfl
    · exact fun _ _ he => he.elim
    · exact hgone.same ⟨rfl, rfl, rfl, rfl⟩
  have hfresh : w.Fresh config.naming row.id -> v.Fresh config.naming row.id := by
    intro hfresh
    rcases hs.fresh_of_move hids hplace hstep.of_noFault hfresh with hfresh | ⟨hcreates, _⟩
    · exact hfresh
    · exact hcreates.elim
  constructor
  · cases hcall : work.call? with
    | none => rfl
    | some c =>
        have hreads : c.Reads := hmine.allowed_of_call hs.regular hcall
        simp [hreads.not_stripping]
  · refine .decided winner hmem stw lead ?_ ?_ (hrest.insert ?_)
    · exact (List.getElem?_set_ne hne).trans hwinner
    · apply hlead.later _ hfresh
      intro hheld
      apply estate_of_step hs.ordered (hs.drawn hids).distinct hplace hstep.of_noFault
      exact hs.ordered.apart winner place _ _ hne.symm hwinner hplace row.id hheld
    · intro user heq _
      cases heq
      rcases hmine.step hs.regular (fun _ => Or.inl rfl) hstart hstep with hgoes | hwin
      · exact hgoes
      · exact hwin.wins.elim

theorem Race.leader {winner : Nat} {lead lead' : Saga (Except TriggerError Answer)}
    (hs : System.Reachable config fails things ids ⟨w, threads⟩) (hids : w.ids.Unrepeated)
    (hmem : winner ∈ deletions)
    (hwinner : threads[winner]? = some ⟨.delete row.user row.id, st, some lead⟩)
    (hlead : Lead config.naming row made w st lead)
    (hothers : System.Deleting config.naming noFault (trailing row.id) row.id
      (fun other => other ∈ deletions ∧ other ≠ winner) ⟨w, threads⟩)
    (hstep : lead.Step noFault st w st' v lead') :
    Race config.naming row deletions (made ++ lead.call?.toList.filter Call.isStripping)
      ⟨v, threads.set winner ⟨.delete row.user row.id, st', some lead'⟩⟩ := by
  have hrest := hothers.others hs hids (ofEstate_trailing _ _) hwinner hstep.of_noFault
  refine .decided winner hmem st' lead' ?_ (hlead.step hs.regular hstep) ?_
  · exact List.getElem?_set_self (List.getElem?_eq_some_iff.mp hwinner).1
  · exact fun other user rival rest hother => hrest other user rival rest ⟨hother, hother.2⟩

variable {s : System}

theorem Race.go (h : Race config.naming row deletions made s)
    (hs : System.Reachable config fails things ids s) (hids : s.world.ids.Unrepeated)
    (hprovisioned : row.isProvisioned = true)
    (hasks : forall other, other ∈ deletions -> s.Asks (.delete row.user row.id) other)
    (halone : forall thread, place ∉ deletions -> s.threads[place]? = some thread ->
      row.id ∉ thread.standing.locks)
    (halone' : forall thread, place ∉ deletions -> (s.go place).threads[place]? = some thread ->
      row.id ∉ thread.standing.locks) :
    Race config.naming row deletions
      (made ++ (s.callBy deletions place).filter Call.isStripping) (s.go place) := by
  rw [System.callBy]
  rcases s.go_calls place with
    ⟨hgo, hcall⟩ | ⟨request, st, st', v, work, work', hplace, hstep, hgo, hcall⟩
  · rw [hcall, hgo, Option.toList_none, ite_self, List.filter_nil, List.append_nil]
    exact h
  rcases s with ⟨w, threads⟩
  by_cases hmem : place ∈ deletions
  · rcases hasks place hmem with ⟨_, _, hmine⟩
    rw [hplace] at hmine
    cases hmine
    rw [if_pos hmem, hcall, hgo]
    cases h with
    | undecided hrow hfree hmade hcoming =>
        rcases Race.first hs hids hprovisioned hrow hfree hcoming hplace hstep hmem with
          ⟨hnone, hrace⟩
        rw [hnone, hmade]
        exact hrace
    | decided winner hwins stw lead hwinner hlead hothers =>
        by_cases hsame : place = winner
        · subst hsame
          rw [hwinner] at hplace
          cases hplace
          exact Race.leader hs hids hmem hwinner hlead hothers hstep
        · rcases Race.follower hs hids hwins hwinner hlead hothers hplace hstep hmem hsame with
            ⟨hnone, hrace⟩
          rw [hnone, List.append_nil]
          exact hrace
  · rw [if_neg hmem, hgo, List.filter_nil, List.append_nil]
    apply h.stranger hs hids hplace hstep.of_noFault hmem (halone _ hmem hplace)
    apply halone' ⟨request, st', some work'⟩ hmem
    rw [hgo]
    exact List.getElem?_set_self (List.getElem?_eq_some_iff.mp hplace).1

end Race

namespace System

variable {s : System} {id : TriggerId} {who places : List Nat} {place : Nat}

theorem LeftAlone.head (h : s.LeftAlone id who places) {thread : Thread} (hout : place ∉ who)
    (hplace : s.threads[place]? = some thread) : id ∉ thread.standing.locks :=
  h [] List.nil_prefix place thread hout hplace

theorem LeftAlone.tail (h : s.LeftAlone id who (place :: places)) :
    (s.go place).LeftAlone id who places :=
  fun earlier hearlier => h (place :: earlier) ((List.prefix_cons_inj place).mpr hearlier)

theorem getElem?_follow_of_not_mem {other : Nat} (h : other ∉ places) :
    (s.follow places).threads[other]? = s.threads[other]? := by
  induction places generalizing s with
  | nil => rfl
  | cons place places ih =>
      refine (ih (List.not_mem_of_not_mem_cons h)).trans (s.getElem?_go_of_ne ?_)
      exact (List.ne_of_not_mem_cons h).symm

theorem LeftAlone.append {more : List Nat} (h : s.LeftAlone id who places)
    (hmore : forall place, place ∈ more -> place ∈ who) :
    s.LeftAlone id who (places ++ more) := by
  intro earlier hearlier other thread hout hother
  rcases List.prefix_or_prefix_of_prefix hearlier (List.prefix_append places more) with
    hbefore | ⟨own, rfl⟩
  · exact h earlier hbefore other thread hout hother
  · have hown : own <+: more := (List.prefix_append_right_inj places).mp hearlier
    rw [follow_append, getElem?_follow_of_not_mem fun hmem => hout (hmore other (hown.subset hmem))]
      at hother
    exact h places List.prefix_rfl other thread hout hother

theorem LeftAlone.of_free (hmore : forall place, place ∈ places -> place ∈ who)
    (hfree : forall thread, thread ∈ s.threads -> id ∉ thread.standing.locks) :
    s.LeftAlone id who places := by
  have hnow : s.LeftAlone id who [] := by
    intro earlier hearlier other thread _ hother
    rw [List.prefix_nil.mp hearlier] at hother
    exact hfree thread (List.mem_of_getElem? hother)
  exact hnow.append hmore

end System

theorem Race.follow {config : Config} {fails : Call -> ServiceError -> Prop}
    {things : List Thing} {ids : IdSource} {row : Trigger} {deletions places : List Nat}
    {made : List Call} {s : System} (h : Race config.naming row deletions made s)
    (hs : System.Reachable config fails things ids s)
    (hids : (s.follow places).world.ids.Unrepeated) (hprovisioned : row.isProvisioned = true)
    (hasks : forall other, other ∈ deletions -> s.Asks (.delete row.user row.id) other)
    (halone : s.LeftAlone row.id deletions places) :
    Race config.naming row deletions
      (made ++ (s.madeBy deletions places).filter Call.isStripping) (s.follow places) := by
  induction places generalizing s made with
  | nil =>
      rw [System.madeBy, List.filter_nil, List.append_nil]
      exact h
  | cons place places ih =>
      have hbefore := (s.precedes_follow (place :: places)).unrepeated hids
      rw [System.madeBy, List.filter_append, ← List.append_assoc]
      apply ih _ (hs.go place) hids _ halone.tail
      · exact h.go hs hbefore hprovisioned hasks (fun _ => halone.head)
          fun _ => halone.tail.head
      · exact fun other hother => (hasks other hother).go place

theorem Race.ended {naming : ResourceNaming} {row : Trigger} {deletions : List Nat}
    {made : List Call} {s : System} (h : Race naming row deletions made s)
    (hsome : deletions ≠ [])
    (hasks : forall place, place ∈ deletions -> s.Asks (.delete row.user row.id) place)
    (hended : forall place, place ∈ deletions -> (s.answer? place).isSome = true) :
    (exists winner, winner ∈ deletions ∧ s.answer? winner = some (.ok .deleted) ∧
      forall other, other ∈ deletions -> other ≠ winner ->
        s.answer? other = some (.error (.conflict row.id.text)) ∨
          s.answer? other = some (.error (Lifecycle.noTrigger row.id))) ∧
      made = handleRemovals naming row.id := by
  have hanswers : forall place, place ∈ deletions -> exists st r, s.answer? place = some r ∧
      s.threads[place]? = some ⟨.delete row.user row.id, st, some (.done r)⟩ := by
    intro place hplace
    rcases Option.isSome_iff_exists.mp (hended place hplace) with ⟨r, hr⟩
    rcases System.answer?_eq_some hr with ⟨request, st, hthread⟩
    rcases hasks place hplace with ⟨_, _, hmine⟩
    rw [hthread] at hmine
    cases hmine
    exact ⟨st, r, hr, hthread⟩
  cases h with
  | undecided _ _ _ hcoming =>
      rcases List.exists_mem_of_ne_nil deletions hsome with ⟨place, hplace⟩
      rcases hanswers place hplace with ⟨st, r, _, hthread⟩
      rcases (hcoming place _ st _ hplace hthread).of_done with ⟨_, _, hnever⟩
      exact hnever.elim
  | decided winner hmem st work hwinner hlead hothers =>
      rcases hanswers winner hmem with ⟨_, r, hr, hthread⟩
      rw [hwinner] at hthread
      cases hthread
      rcases hlead.of_done with ⟨rfl, hmade⟩
      refine ⟨⟨winner, hmem, hr, ?_⟩, hmade⟩
      intro other hother hne
      rcases hanswers other hother with ⟨st', r, hr, hthread⟩
      rcases (hothers other _ st' _ ⟨hother, hne⟩ hthread).of_done with ⟨e, rfl, rfl | rfl⟩
      · exact Or.inl hr
      · exact Or.inr hr

namespace System

/-- However many deletions of a trigger there are, and whatever else is going on, at most one
of them ever ends well, and after that nothing of the trigger exists again.  If the owner of a
provisioned trigger asks for deletions of it, nobody else works on it, and no call fails, one of
them ends well, the others are refused, and together they remove the rule and the topic once. -/
theorem Reachable.one_deletion {config : Config} {fails : Call -> ServiceError -> Prop}
    {things : List Thing} {ids : IdSource} {s : System}
    (hs : Reachable config fails things ids s)
    (hfaults : forall c e, fails c e -> e.isAbsence = false) :
    (forall id place t, s.Deleted id place ->
      Relation.ReflTransGen (Step config fails) s t -> t.world.ids.Unrepeated ->
        (forall item, t.world.Holds item -> item.owner? config.naming ≠ some id) ∧
          forall other, t.Deleted id other -> other = place) ∧
      forall row deletions places, row ∈ s.world.store.triggers -> row.isProvisioned = true ->
        s.world.locks.isHeld row.id = false -> deletions ≠ [] ->
        (forall place, place ∈ deletions ->
          s.threads[place]? = some (.start config (.delete row.user row.id))) ->
        s.LeftAlone row.id deletions places -> (s.follow places).world.ids.Unrepeated ->
          (exists more, (forall place, place ∈ more -> place ∈ deletions) ∧
            s.LeftAlone row.id deletions (places ++ more) ∧
            forall place, place ∈ deletions ->
              ((s.follow (places ++ more)).answer? place).isSome = true) ∧
            ((forall place, place ∈ deletions ->
                ((s.follow places).answer? place).isSome = true) ->
              (exists winner, winner ∈ deletions ∧
                (s.follow places).answer? winner = some (.ok .deleted) ∧
                forall other, other ∈ deletions -> other ≠ winner ->
                  (s.follow places).answer? other = some (.error (.conflict row.id.text)) ∨
                    (s.follow places).answer? other =
                      some (.error (Lifecycle.noTrigger row.id))) ∧
                (s.madeBy deletions places).filter Call.isStripping =
                  [.removeRule (config.naming.ruleHandle row.id),
                    .deleteTopic (config.naming.topicHandle row.id)]) := by
  constructor
  · exact fun id place t hdeleted hlater hids => hdeleted.forever hs hfaults hlater hids
  · intro row deletions places hrow hprovisioned hfree hsome hstarted halone hids
    have hasks : forall place, place ∈ deletions -> s.Asks (.delete row.user row.id) place :=
      fun place hplace => ⟨_, _, hstarted place hplace⟩
    have hstart : Race config.naming row deletions [] s := by
      refine .undecided hrow hfree rfl ?_
      intro place user st work hplace hthread
      cases (hstarted place hplace).symm.trans hthread
      exact .coming rfl (Or.inl (run_delete config row.user row.id))
    have hlater : forall place, place ∈ deletions ->
        (s.follow places).Asks (.delete row.user row.id) place :=
      fun place hplace => (hasks place hplace).follow places
    have hinPlace : forall place, place ∈ deletions -> (s.follow places).InPlace place :=
      fun place hplace => ⟨_, hlater place hplace⟩
    constructor
    · rcases exists_follow_answer hinPlace with ⟨more, hmore, hended⟩
      refine ⟨more, hmore, halone.append hmore, ?_⟩
      rw [follow_append]
      exact hended
    · exact (hstart.follow hs hids hprovisioned hasks halone).ended hsome hlater

def rivals : System :=
  guarded.play .standard ((List.replicate 3 (.delete ⟨7⟩ ⟨Uuid.ofNat 0⟩)).map .start)

/-- The first deletion is given the lock, the second one finds it taken, and the third one
comes too late. -/
def dash : List Nat :=
  [1, 1, 2, 2, 1, 1, 1, 1, 1, 1, 1, 3, 3, 3, 3]

theorem rivals_one_deletion :
    exists row t, row ∈ rivals.world.store.triggers ∧ row.isProvisioned = true ∧
      rivals.world.locks.isHeld row.id = false ∧
      (forall place, place ∈ [1, 2, 3] ->
        rivals.threads[place]? = some (.start .standard (.delete row.user row.id))) ∧
      rivals.LeftAlone row.id [1, 2, 3] dash ∧ (rivals.follow dash).world.ids.Unrepeated ∧
      (forall place, place ∈ [1, 2, 3] ->
        ((rivals.follow dash).answer? place).isSome = true) ∧
      ((exists winner, winner ∈ [1, 2, 3] ∧
        (rivals.follow dash).answer? winner = some (.ok .deleted) ∧
        forall other, other ∈ [1, 2, 3] -> other ≠ winner ->
          (rivals.follow dash).answer? other = some (.error (.conflict row.id.text)) ∨
            (rivals.follow dash).answer? other =
              some (.error (Lifecycle.noTrigger row.id))) ∧
        (rivals.madeBy [1, 2, 3] dash).filter Call.isStripping =
          [.removeRule (Config.standard.naming.ruleHandle row.id),
            .deleteTopic (Config.standard.naming.topicHandle row.id)]) ∧
      (rivals.follow dash).Deleted row.id 1 ∧
      Relation.ReflTransGen (Step .standard noFault) (rivals.follow dash) t ∧
      t.world.ids.Unrepeated ∧
      (forall item, t.world.Holds item -> item.owner? Config.standard.naming ≠ some row.id) ∧
      forall other, t.Deleted row.id other -> other = 1 := by
  have hs : Reachable .standard noFault _ _ rivals := (home_reachable.play _).play _
  have halarm : (rivals.world.store.triggers.any fun t => t.isProvisioned &&
      !rivals.world.locks.isHeld t.id && t.user == ⟨7⟩ && t.id == ⟨Uuid.ofNat 0⟩) = true := by
    decide +kernel
  have hlength : guarded.threads.length = 1 := by decide +kernel
  have hlocks : rivals.threads.all (·.standing.locks.isEmpty) = true := by decide +kernel
  have hended : forall place, place ∈ [1, 2, 3] ->
      ((rivals.follow dash).answer? place).isSome = true := by
    decide +kernel
  have hfirst : (rivals.follow dash).answer? 1 = some (.ok .deleted) := by decide +kernel
  have hids : (rivals.follow dash).world.ids.Unrepeated := by
    have hguarded : home.world.ids.Precedes guarded.world.ids := by
      rw [guarded]
      exact home.precedes_play .standard _
    have hrivals : guarded.world.ids.Precedes rivals.world.ids := by
      rw [rivals]
      exact guarded.precedes_play .standard _
    exact home_unrepeated ((hguarded.trans hrivals).trans (precedes_follow _ dash))
      (by decide +kernel)
  rcases List.any_eq_true.mp halarm with ⟨row, hrow, halarm⟩
  simp only [Bool.and_eq_true, Bool.not_eq_true', beq_iff_eq] at halarm
  rcases halarm with ⟨⟨⟨hprovisioned, hfree⟩, huser⟩, hid⟩
  have hstarted : forall place, place ∈ [1, 2, 3] ->
      rivals.threads[place]? = some (.start .standard (.delete row.user row.id)) := by
    intro place hplace
    have hplaces : 1 ≤ place ∧ place - 1 < 3 := by
      simp only [List.mem_cons, List.not_mem_nil, or_false] at hplace
      omega
    rw [rivals, play_starts, List.getElem?_append_right (by omega), hlength, List.getElem?_map,
      List.getElem?_replicate, if_pos hplaces.2, huser, hid]
    rfl
  have halone : rivals.LeftAlone row.id [1, 2, 3] dash := by
    apply LeftAlone.of_free (by decide)
    intro thread hthread
    rw [List.isEmpty_iff.mp (List.all_eq_true.mp hlocks thread hthread)]
    exact List.not_mem_nil
  have hdeleted : (rivals.follow dash).Deleted row.id 1 := by
    rcases answer?_eq_some hfirst with ⟨request, st, hthread⟩
    have hasks : rivals.Asks (.delete row.user row.id) 1 := ⟨_, _, hstarted 1 (by decide)⟩
    rcases hasks.follow dash with ⟨_, _, hmine⟩
    rw [hthread] at hmine
    cases hmine
    exact ⟨row.user, st, .deleted, hthread⟩
  have hlater : Relation.ReflTransGen (Step .standard noFault) (rivals.follow dash)
      ((rivals.follow dash).turn .standard .restart) :=
    .single (step_restart .standard _)
  have hidsLater : ((rivals.follow dash).turn .standard .restart).world.ids.Unrepeated := by
    rw [ids_restart]
    exact hids
  have hfaults : forall c e, noFault c e -> e.isAbsence = false := fun _ _ he => he.elim
  rcases hs.one_deletion hfaults with ⟨_, hrace⟩
  rcases (hs.follow dash).one_deletion hfaults with ⟨hforever, _⟩
  rcases hforever row.id 1 _ hdeleted hlater hidsLater with ⟨hgone, honly⟩
  exact ⟨row, _, hrow, hprovisioned, hfree, hstarted, halone, hids, hended,
    (hrace row [1, 2, 3] dash hrow hprovisioned hfree nofun hstarted halone hids).2 hended,
    hdeleted, hlater, hidsLater, hgone, honly⟩

end System
end TelemetryTriggers
