import TelemetryTriggers.Proofs.Orchestrator.ConfinedWork
import TelemetryTriggers.Proofs.Registry.Image
import TelemetryTriggers.Proofs.Saga.Calm

/-!
# Stages of a change

A request that changes something comes to its lock without changing anything, works
under the lock and releases it.  The removal of a target reads which trigger the target
has before it locks that trigger.  What it has read stays true until then, because
identifiers of targets are used only once: either the target is gone, or the account
still sees its trigger.

Main definitions: `Stage`, how far such a request has come; `Request.Cleared`, what a
removal has read; `Saga.Replays`, that the steps so far come to the same in other
worlds.  The main statement is `Stage.step`.
-/

namespace TelemetryTriggers

namespace Request

def Changes : Request -> Prop
  | create _ => True
  | delete _ _ => True
  | addTarget _ _ _ => True
  | removeTarget _ _ => True
  | _ => False

def Searches : Request -> Prop
  | removeTarget _ _ => True
  | _ => False

theorem Names.append {request : Request} {id : TriggerId} {drawn : List Uuid}
    (h : request.Names id drawn) (u : Uuid) : request.Names id (drawn ++ [u]) := by
  cases request with
  | create request =>
      show (drawn ++ [u]).head? = some id.uuid
      have hhead : drawn.head? = some id.uuid := h
      rw [List.head?_append, hhead]
      rfl
  | _ => exact h

end Request

/-!
# Work under a lock
-/

def Saga.under (id : TriggerId) (inner : Saga (Except TriggerError Answer)) :
    Saga (Except TriggerError Answer) :=
  inner.bind fun r => .release id (.done r)

theorem Operation.run_locked {α : Type} (id : TriggerId) (op : Operation α)
    (answer : α -> Answer) :
    (Operation.locked id op >>= fun a => pure (answer a)).run =
      .acquire id fun free =>
        if free then (op >>= fun a => pure (answer a)).run.under id
        else .done (.error (.conflict id.text)) := by
  show Saga.acquire id _ = _
  congr 1
  funext free
  cases free with
  | false => rfl
  | true =>
      show (Saga.bind op.run _).bind _ = (Saga.bind op.run _).bind _
      rw [Saga.bind_assoc, Saga.bind_assoc]
      congr 1
      funext r
      cases r with
      | ok a => rfl
      | error e => rfl

theorem Operation.run_ask_bind {α : Type} (c : Call) (f : c.Reply -> Operation α) :
    (Operation.ask c >>= f).run =
      .call c fun
        | .ok r => (f r).run
        | .error e => .done (.error (c.service.failure e)) := by
  show Saga.call c _ = _
  congr 1
  funext reply
  cases reply with
  | ok r => rfl
  | error e => rfl

namespace Saga

/-- The steps up to the lock of a trigger, after which the work is confined to it. -/
def Approach (naming : ResourceNaming) (H : History) (request : Request) :
    List Uuid -> Saga (Except TriggerError Answer) -> Prop
  | _, .done _ => True
  | drawn, .acquire id next =>
      (exists r, next false = .done r) ∧
        exists inner : Saga (Except TriggerError Answer), next true = inner.under id ∧
          inner.Confined naming H id (request.Names id drawn) (fun _ => True) []
  | drawn, .draw next =>
      ¬ request.Searches ∧ forall u, (next u).Approach naming H request (drawn ++ [u])
  | drawn, .detach next => next.Approach naming H request drawn
  | _, _ => False

def Seeks (id : TriggerId) : Saga (Except TriggerError Answer) -> Prop
  | .acquire other _ => other = id
  | .detach next => next.Seeks id
  | _ => False

variable {naming : ResourceNaming} {H : History} {request : Request} {id : TriggerId}
  {drawn : List Uuid}

theorem approach_locked {α : Type} {op : Operation α} (answer : α -> Answer)
    (hop : Operation.Confined naming H id (request.Names id drawn) [] (fun _ => True) op) :
    (Operation.locked id op >>= fun a => pure (answer a)).run.Approach naming H request
      drawn := by
  rw [Operation.run_locked]
  refine ⟨⟨_, rfl⟩, _, rfl, ?_⟩
  exact (hop.bind (Q := fun _ => True) (R := fun _ => True) fun _ _ => .pure trivial).run.post
    fun _ _ => trivial

end Saga

/-!
# What a removal has read
-/

namespace Request

/-- If the target of a removal is still there, it is one of the trigger, which the
account sees. -/
def Cleared (H : History) (id : TriggerId) (w : World) : Request -> Prop
  | removeTarget user target => H.Issued id target.uuid ∧
      forall r, r ∈ w.store.targets -> r.id = target ->
        forall t, t ∈ w.store.triggers -> t.id = id -> Lifecycle.isVisibleTo user t = true
  | _ => True

def Settled (spent : Uuid -> Prop) : Request -> Prop
  | removeTarget _ target => spent target.uuid
  | _ => True

theorem settled_of_not_searches {spent : Uuid -> Prop} {request : Request}
    (h : ¬ request.Searches) : request.Settled spent := by
  cases request with
  | removeTarget user target => exact absurd trivial h
  | _ => trivial

theorem Settled.mono {spent spent' : Uuid -> Prop} {request : Request}
    (h : request.Settled spent) (hspent : forall u, spent u -> spent' u) :
    request.Settled spent' := by
  cases request with
  | removeTarget user target => exact hspent _ h
  | _ => trivial

variable {naming : ResourceNaming} {H : History} {id : TriggerId} {spent : Uuid -> Prop}
  {request : Request} {w v : World}

theorem Cleared.same (h : request.Cleared H id w) (hv : v.store = w.store) :
    request.Cleared H id v := by
  cases request with
  | removeTarget user target =>
      refine ⟨h.1, ?_⟩
      rw [hv]
      exact h.2
  | _ => trivial

theorem cleared_of_not_searches (h : ¬ request.Searches) : request.Cleared H id w := by
  cases request with
  | removeTarget user target => exact absurd trivial h
  | _ => trivial

theorem Cleared.alike (h : request.Cleared H id w) (hH : H.Distinct)
    (hv : v.Assigned naming H) (halike : w.Alike naming id v) : request.Cleared H id v := by
  cases request with
  | removeTarget user target =>
      refine ⟨h.1, ?_⟩
      intro r hr hid t ht htrigger
      rcases hid with rfl
      have hestate : forall item, v.Holds item -> item.owner? naming = some id ->
          w.Holds item := by
        intro item hitem howner
        apply World.holds_of_share halike.estate hitem
        rw [howner, beq_self_eq_true]
      have hrow := hestate (.target r) hr (congrArg some (hv.trigger_of_issued hH hr h.1))
      have hparent := hestate (.trigger t) ht (congrArg some htrigger)
      exact h.2 r hrow rfl t hparent htrigger
  | _ => trivial

theorem Cleared.perform {other : TriggerId} {own : List Uuid} {c : Call}
    (h : request.Cleared H id w) (hsettled : request.Settled spent)
    (hw : w.Assigned naming H) (hH : H.Distinct) (hc : c.Confined naming H other own)
    (hown : forall u, u ∈ own -> ¬ spent u) : request.Cleared H id (c.perform w).2 := by
  cases request with
  | removeTarget user target =>
      refine ⟨h.1, ?_⟩
      intro r hr hid t ht htrigger
      have hold : r ∈ w.store.targets := by
        rcases c.targets_perform w with heq | ⟨row, rfl, heq⟩ | ⟨gone, rfl, heq⟩
        · rw [heq] at hr
          exact hr
        · rw [heq] at hr
          rcases List.mem_append.mp hr with hold | hnew
          · exact hold
          · rw [List.mem_singleton.mp hnew] at hid
            rcases hid with rfl
            exact absurd hsettled (hown _ hc.2.2)
        · rw [heq] at hr
          exact List.mem_of_mem_filter hr
      have hvisible := h.2 r hold hid
      rcases hid with rfl
      have htarget := hw.trigger_of_issued hH hold h.1
      rcases c.triggers_perform w with heq | ⟨row, rfl, heq⟩ | ⟨_, handles, rfl, heq⟩ |
        ⟨_, rfl, heq⟩
      · rw [heq] at ht
        exact hvisible t ht htrigger
      · -- the row of the trigger is there, so it is not inserted a second time
        rcases hw.integrity.store.owned r hold with ⟨parent, hparent, hsame⟩
        have hmem : parent ∈ ((Call.insertTrigger row).perform w).2.store.triggers := by
          rw [heq]
          exact List.mem_append_left _ hparent
        have hids := ((Call.insertTrigger row).integrity_perform hw.integrity).store.trigger_ids
        have heqRow : t = parent := by
          apply List.inj_on_of_nodup_map hids ht hmem
          rw [htrigger, hsame, htarget]
        rw [heqRow]
        exact hvisible parent hparent (hsame.trans htarget)
      · rw [heq] at ht
        rcases List.mem_map.mp ht with ⟨old, hmem, hwritten⟩
        split at hwritten
        · rw [← hwritten] at htrigger ⊢
          have hbefore := hvisible old hmem htrigger
          rw [Lifecycle.isVisibleTo, Bool.and_eq_true_iff] at hbefore
          simp only [Lifecycle.isVisibleTo, Trigger.isProvisioned, Option.isSome_some,
            Bool.and_true]
          exact hbefore.1
        · rw [← hwritten] at htrigger ⊢
          exact hvisible old hmem htrigger
      · rw [heq] at ht
        exact hvisible t (List.mem_of_mem_filter ht) htrigger
  | _ => trivial

end Request

/-!
# The removal of a target up to its lock
-/

section Removal

variable {config : Config} {H : History} {user : UserId} {target : TargetId}

def removalAfter (user : UserId) (target : TargetId) (row : Option Target) :
    Operation Answer := do
  let r ← .orFail row (Lifecycle.noTarget target)
  let _ ← (Lifecycle.visibleTrigger user r.trigger).adapt (Lifecycle.hideTrigger target)
  .detached (.locked r.trigger (Lifecycle.removeTargetOwned user target))
  pure .removed

def removalUnder (user : UserId) (target : TargetId) (id : TriggerId) :
    Saga (Except TriggerError Answer) :=
  .detach (Operation.locked id (Lifecycle.removeTargetOwned user target) >>=
    fun _ => pure .removed).run

theorem removeTarget_eq :
    (Request.removeTarget user target).operation config =
      Operation.ask (.getTarget target) >>= removalAfter user target := by
  simp only [Request.operation, Lifecycle.removeTarget, Lifecycle.getTarget, bind_assoc,
    pure_bind]
  rfl

theorem run_removalAfter (r : Target) :
    (removalAfter user target (some r)).run =
      .call (.getTrigger r.trigger) fun
        | .ok row =>
            if row.any (Lifecycle.isVisibleTo user) then removalUnder user target r.trigger
            else .done (.error (Lifecycle.noTarget target))
        | .error e => .done (.error (Lifecycle.hideTrigger target (.store e))) := by
  show Saga.call _ _ = _
  congr 1
  funext reply
  cases reply with
  | error e => rfl
  | ok row =>
      show ((Operation.orFail (row.filter (Lifecycle.isVisibleTo user))
        (Lifecycle.noTrigger r.trigger)).adapt (Lifecycle.hideTrigger target) >>= fun _ =>
          Operation.detached (.locked r.trigger (Lifecycle.removeTargetOwned user target)) >>=
            fun _ => pure Answer.removed).run = _
      cases row with
      | none => rfl
      | some t =>
          cases hvisible : Lifecycle.isVisibleTo user t with
          | true =>
              simp only [Option.filter, Option.any, hvisible, if_true]
              rfl
          | false =>
              simp only [Option.filter, Option.any, hvisible, Bool.false_eq_true, if_false]
              rfl

end Removal

/-!
# The start of a creation and of an addition
-/

namespace Request

variable {config : Config} {request : CreateRequest} {user : UserId} {id : TriggerId}
  {spec : TargetSpec}

theorem run_create_of_error {e : TriggerError}
    (h : request.validate config.maxTargets = .error e) :
    ((create request).operation config).run = .done (.error e) := by
  simp only [operation, Lifecycle.create, h]
  rfl

theorem run_create_of_ok {valid : ValidRequest}
    (h : request.validate config.maxTargets = .ok valid) :
    ((create request).operation config).run =
      .detach (.draw fun u => (Operation.locked ⟨u⟩
        (Lifecycle.createWithId config.naming request.user valid ⟨u⟩) >>=
          fun details => pure (.created details)).run) := by
  simp only [operation, Lifecycle.create, h]
  rfl

theorem run_addTarget_of_error {e : TriggerError} (h : spec.validate = .error e) :
    ((addTarget user id spec).operation config).run = .done (.error e) := by
  simp only [operation, Lifecycle.addTarget, h]
  rfl

theorem run_addTarget_of_ok {target : ValidTarget} (h : spec.validate = .ok target) :
    ((addTarget user id spec).operation config).run =
      .detach (Operation.locked id
        (Lifecycle.addTargetOwned config.maxTargets user id target) >>=
          fun row => pure (.added row)).run := by
  simp only [operation, Lifecycle.addTarget, h]
  rfl

end Request

/-!
# Stages
-/

/-- The steps that a request has done so far come to the same in all worlds in which
things have their triggers and what a removal has read is true. -/
def Saga.Replays (config : Config) (H : History) (request : Request) (drawn : List Uuid)
    (work : Saga (Except TriggerError Answer)) : Prop :=
  forall (v : World) (ids : IdSource), v.Assigned config.naming H -> ids.Supplies drawn ->
    (forall id, work.Seeks id -> request.Cleared H id v ∧ v.locks.isHeld id = false) ->
    (request.operation config).run.play { v with ids } =
      work.play { v with ids := ids.skip drawn.length }

/-- How far the operation of a request has come, which started when the given locks were
held.  All identifiers that were used for targets are spent. -/
inductive Stage (config : Config) (H : History) (before : LockTable) (spent : Uuid -> Prop)
    (request : Request) (w : World) : Standing -> Saga (Except TriggerError Answer) -> Prop
  | asking {st : Standing} {user : UserId} {target : TargetId}
      (hrequest : request = .removeTarget user target) (hlocks : st.locks = [])
      (hdrawn : st.drawn = []) :
      Stage config H before spent request w st
        (Operation.ask (.getTarget target) >>= removalAfter user target).run
  | reading {st : Standing} {user : UserId} {r : Target}
      (hrequest : request = .removeTarget user r.id) (hlocks : st.locks = [])
      (hdrawn : st.drawn = []) (hissued : H.Issued r.trigger r.id.uuid)
      (hspent : spent r.id.uuid) :
      Stage config H before spent request w st (removalAfter user r.id (some r)).run
  | waiting {st : Standing} {work : Saga (Except TriggerError Answer)}
      (hlocks : st.locks = []) (happroach : work.Approach config.naming H request st.drawn)
      (hreplay : work.Replays config H request st.drawn)
      (hcleared : forall id, work.Seeks id -> request.Cleared H id w)
      (hsettled : request.Settled spent) :
      Stage config H before spent request w st work
  | holding {st : Standing} {id : TriggerId} {draws : Prop} {own : List Uuid}
      {inner : Saga (Except TriggerError Answer)} (hlocks : st.locks = [id])
      (hnew : before.isHeld id = false)
      (hinner : inner.Confined config.naming H id draws (fun _ => True) own)
      (hdraws : draws -> request.Names id st.drawn)
      (hown : forall u, u ∈ own -> u ∈ st.drawn ∧ ¬ spent u) :
      Stage config H before spent request w st (inner.under id)
  | ended {st : Standing} (hlocks : st.locks = []) (r : Except TriggerError Answer) :
      Stage config H before spent request w st (.done r)

section Start

variable {config : Config} {H : History} {before : LockTable} {spent : Uuid -> Prop}
  {w : World} {request : Request}

theorem stage_of_approach {st : Standing} (hst : st.locks = [] ∧ st.drawn = [])
    (hkind : ¬ request.Searches)
    (happroach : (request.operation config).run.Approach config.naming H request []) :
    Stage config H before spent request w st (request.operation config).run := by
  apply Stage.waiting hst.1
  · rw [hst.2]
    exact happroach
  · rw [hst.2]
    exact fun v ids _ _ _ => rfl
  · exact fun id _ => Request.cleared_of_not_searches hkind
  · exact Request.settled_of_not_searches hkind

theorem Request.Changes.stage (h : request.Changes) :
    Stage config H before spent request w ⟨[], [], false⟩ (request.operation config).run := by
  cases request with
  | create request =>
      refine stage_of_approach ⟨rfl, rfl⟩ ?_ ?_
      · exact fun h => h
      cases hvalid : request.validate config.maxTargets with
      | error e =>
          rw [Request.run_create_of_error hvalid]
          trivial
      | ok valid =>
          rw [Request.run_create_of_ok hvalid]
          exact ⟨fun h => h, fun u => Saga.approach_locked .created
            (createWithId_confined ⟨u⟩ rfl request.user valid)⟩
  | delete user id =>
      refine stage_of_approach ⟨rfl, rfl⟩ ?_ ?_
      · exact fun h => h
      exact Saga.approach_locked (fun _ => .deleted) (deleteOwned_confined user)
  | addTarget user id spec =>
      refine stage_of_approach ⟨rfl, rfl⟩ ?_ ?_
      · exact fun h => h
      cases hvalid : spec.validate with
      | error e =>
          rw [Request.run_addTarget_of_error hvalid]
          trivial
      | ok target =>
          rw [Request.run_addTarget_of_ok hvalid]
          exact Saga.approach_locked .added
            (addTargetOwned_confined id rfl config.maxTargets user target)
  | removeTarget user target =>
      rw [removeTarget_eq]
      exact .asking rfl rfl rfl
  | _ => exact h.elim

end Start

/-!
# One step of a request
-/

structure Advance (config : Config) (H : History) (before : LockTable)
    (spent spent' : Uuid -> Prop) (request : Request) (w v : World) (st st' : Standing)
    (work : Saga (Except TriggerError Answer)) : Prop where
  stage : Stage config H before spent' request v st' work
  grows : forall u, spent u -> spent' u
  used : forall u, spent' u -> spent u ∨ u ∈ st.drawn
  rows : forall r, r ∈ v.store.targets -> spent' r.id.uuid
  cleared : forall (other : Request) id, other.Cleared H id w -> other.Settled spent ->
    other.Cleared H id v
  locked : forall id, before.isHeld id = true -> v.locks.isHeld id = true

section Step

variable {config : Config} {H : History} {before : LockTable} {spent : Uuid -> Prop}
  {w v : World} {request : Request} {st st' : Standing}
  {work work' : Saga (Except TriggerError Answer)}

theorem Advance.of_store (hstage : Stage config H before spent request v st' work)
    (hrows : forall r, r ∈ w.store.targets -> spent r.id.uuid) (hstore : v.store = w.store)
    (hlocked : forall id, before.isHeld id = true -> v.locks.isHeld id = true) :
    Advance config H before spent spent request w v st st' work where
  stage := hstage
  grows _ hu := hu
  used _ hu := Or.inl hu
  rows := by
    rw [hstore]
    exact hrows
  cleared _ _ h _ := h.same hstore
  locked := hlocked

theorem Advance.of_call {id : TriggerId} {draws : Prop} {own : List Uuid} {c : Call}
    {next : Except ServiceError c.Reply -> Saga (Except TriggerError Answer)}
    (hw : w.Assigned config.naming H) (hH : H.Distinct)
    (hrows : forall r, r ∈ w.store.targets -> spent r.id.uuid)
    (hlocked : forall id, before.isHeld id = true -> w.locks.isHeld id = true)
    (hlocks : st.locks = [id]) (hnew : before.isHeld id = false)
    (hinner : (Saga.call c next).Confined config.naming H id draws (fun _ => True) own)
    (hdraws : draws -> request.Names id st.drawn)
    (hown : forall u, u ∈ own -> u ∈ st.drawn ∧ ¬ spent u) :
    Advance config H before spent
      (fun u => spent u ∨ exists row, c = .insertTarget row ∧ row.id.uuid = u)
      request w (c.perform w).2 st st ((next (c.perform w).1).under id) where
  stage := by
    apply Stage.holding hlocks hnew (hinner.2.2 w hw) hdraws
    intro u hu
    rcases hown u (c.spend_subset own hu) with ⟨hdrawn, hfresh⟩
    refine ⟨hdrawn, ?_⟩
    rintro (hspent | ⟨row, rfl, hrow⟩)
    · exact hfresh hspent
    · have hother := (List.mem_filter.mp hu).2
      simp [hrow] at hother
  grows _ hu := Or.inl hu
  used := by
    rintro u (hspent | ⟨row, rfl, rfl⟩)
    · exact Or.inl hspent
    · exact Or.inr (hown _ hinner.1.2.2).1
  rows := by
    intro r hr
    rcases c.targets_perform w with heq | ⟨row, rfl, heq⟩ | ⟨target, rfl, heq⟩
    · rw [heq] at hr
      exact Or.inl (hrows r hr)
    · rw [heq] at hr
      rcases List.mem_append.mp hr with hold | hnew
      · exact Or.inl (hrows r hold)
      · rw [List.mem_singleton.mp hnew]
        exact Or.inr ⟨row, rfl, rfl⟩
    · rw [heq] at hr
      exact Or.inl (hrows r (List.mem_of_mem_filter hr))
  cleared _ _ h hsettled := h.perform hsettled hw hH hinner.1 fun u hu => (hown u hu).2
  locked := by
    rw [c.perform_locks]
    exact hlocked

theorem replays_removalUnder {user : UserId} {target : TargetId} {id : TriggerId}
    (hH : H.Distinct) :
    (removalUnder user target id).Replays config H (.removeTarget user target) [] := by
  intro v ids hv _ hseeks
  rcases hseeks id rfl with ⟨⟨hissued, hcleared⟩, hfree⟩
  rw [removeTarget_eq, Operation.run_ask_bind]
  show Saga.play (removalAfter user target (v.store.target? target)).run _ =
    Saga.play (removalUnder user target id) { v with ids }
  cases hrow : v.store.target? target with
  | none =>
      -- the target is gone, which the removal sees with the lock as well as without it
      have howned : (Lifecycle.removeTargetOwned user target).run.play
          { v with ids, locks := ⟨id :: v.locks.held⟩ } =
            (.error (Lifecycle.noTarget target),
              { v with ids, locks := ⟨id :: v.locks.held⟩ }) := by
        rw [Lifecycle.removeTargetOwned, Operation.run_ask_bind]
        show Saga.play (Operation.orFail (v.store.target? target) _ >>= _ : Operation Unit).run _ =
          _
        rw [hrow]
        rfl
      have hlocked := Operation.play_locked_of_free (w := { v with ids }) hfree howned
      have hreleased : LockTable.release ⟨id :: v.locks.held⟩ id = v.locks :=
        LockTable.release_cons hfree
      refine Eq.trans ?_ (Operation.play_bind_of_error hlocked).symm
      rw [hreleased]
      rfl
  | some r =>
      rcases Store.target?_eq_some hrow with ⟨hmem, rfl⟩
      have htrigger := hv.trigger_of_issued hH hmem hissued
      rcases hv.integrity.store.owned r hmem with ⟨t, ht, hid⟩
      have hvisible := hcleared r hmem rfl t ht (hid.trans htrigger)
      have hfound := hv.integrity.store.trigger?_eq_some ht
      rw [run_removalAfter]
      show Saga.play (if (v.store.trigger? r.trigger).any (Lifecycle.isVisibleTo user) then _
        else _) _ = _
      rw [← hid, hfound, Option.any_some, hvisible, if_pos rfl, hid, htrigger]
      rfl

theorem approach_removalUnder {user : UserId} {target : TargetId} {id : TriggerId}
    (hH : H.Distinct) (hissued : H.Issued id target.uuid) (drawn : List Uuid) :
    (removalUnder user target id).Approach config.naming H request drawn :=
  Saga.approach_locked (fun _ => .removed) (removeTargetOwned_confined hH user hissued)

theorem Stage.step_reading {user : UserId} {r : Target}
    (hrequest : request = .removeTarget user r.id) (hlocks : st.locks = [])
    (hdrawn : st.drawn = []) (hissued : H.Issued r.trigger r.id.uuid)
    (hspent : spent r.id.uuid) (hw : w.Assigned config.naming H) (hH : H.Distinct) :
    Stage config H before spent request w st
      (if (w.store.trigger? r.trigger).any (Lifecycle.isVisibleTo user) then
        removalUnder user r.id r.trigger
      else .done (.error (Lifecycle.noTarget r.id))) := by
  subst hrequest
  split
  · rename_i hvisible
    apply Stage.waiting hlocks (approach_removalUnder hH hissued _)
    · rw [hdrawn]
      exact replays_removalUnder hH
    · intro id hseeks
      have hid : r.trigger = id := hseeks
      subst hid
      refine ⟨hissued, ?_⟩
      intro _ _ _ t ht hid
      rw [← hid, hw.integrity.store.trigger?_eq_some ht] at hvisible
      exact hvisible
    · exact hspent
  · exact .ended hlocks _

theorem Stage.step_draw {next : Uuid -> Saga (Except TriggerError Answer)}
    (hlocks : st.locks = [])
    (happroach : (Saga.draw next).Approach config.naming H request st.drawn)
    (hreplay : (Saga.draw next).Replays config H request st.drawn)
    (hsettled : request.Settled spent) (u : Uuid) (detached : Bool) :
    Stage config H before spent request w ⟨st.locks, st.drawn ++ [u], detached⟩ (next u) := by
  refine .waiting hlocks (happroach.2 u) ?_ ?_ hsettled
  · intro v ids hv hids _
    have hplay := hreplay v ids hv hids.front fun _ hseeks => hseeks.elim
    have hnext : (ids.skip st.drawn.length).next.1 = u := hids.skip.head
    rw [hplay, Saga.play]
    show (next (ids.skip st.drawn.length).next.1).play _ = _
    rw [hnext, List.length_append]
    rfl
  · exact fun id _ => Request.cleared_of_not_searches happroach.1

theorem Stage.step_acquire {id : TriggerId}
    {next : Bool -> Saga (Except TriggerError Answer)} {locks : LockTable}
    (happroach : (Saga.acquire id next).Approach config.naming H request st.drawn)
    (hacquire : w.locks.acquire? id = some locks)
    (hlocked : forall id, before.isHeld id = true -> w.locks.isHeld id = true)
    (hlocks : st.locks = []) (v : World) :
    Stage config H before spent request v { st with locks := id :: st.locks } (next true) := by
  rcases happroach.2 with ⟨inner, hnext, hinner⟩
  rw [hnext, hlocks]
  refine .holding rfl ?_ hinner (fun h => h) nofun
  -- what was locked at the start is locked still, and this lock was free
  rw [Bool.eq_false_iff]
  intro hheld
  have hfree := (LockTable.acquire?_eq_some hacquire).1
  rw [hlocked id hheld] at hfree
  cases hfree

theorem Stage.step_holding_draw {id : TriggerId} {draws : Prop} {own : List Uuid}
    {next : Uuid -> Saga (Except TriggerError Answer)} (hlocks : st.locks = [id])
    (hnew : before.isHeld id = false)
    (hinner : (Saga.draw next).Confined config.naming H id draws (fun _ => True) own)
    (hdraws : draws -> request.Names id st.drawn)
    (hown : forall u, u ∈ own -> u ∈ st.drawn ∧ ¬ spent u) {u : Uuid} (hfresh : ¬ spent u)
    (hdrawn : H request (st.drawn ++ [u])) (v : World) :
    Stage config H before spent request v { st with drawn := st.drawn ++ [u] }
      ((next u).under id) := by
  have hnames := (hdraws hinner.1).append u
  have hissued : H.Issued id u :=
    ⟨request, _, hdrawn, hnames, List.mem_append_right _ (List.mem_singleton_self u)⟩
  refine .holding hlocks hnew (hinner.2 u hissued) (fun _ => hnames) ?_
  intro other hother
  rcases List.mem_cons.mp hother with rfl | hold
  · exact ⟨List.mem_append_right _ (List.mem_singleton_self other), hfresh⟩
  · exact ⟨List.mem_append_left _ (hown other hold).1, (hown other hold).2⟩

theorem Stage.step (h : Stage config H before spent request w st work)
    (hw : w.Assigned config.naming H) (hH : H.Distinct)
    (hrows : forall r, r ∈ w.store.targets -> spent r.id.uuid)
    (hgave : forall u, spent u -> w.ids.Gave u)
    (hlocked : forall id, before.isHeld id = true -> w.locks.isHeld id = true)
    (hnext : work.next? st w = some (st', v, work')) (hdrawn : H request st'.drawn)
    (hids : v.ids.Unrepeated) :
    exists spent', Advance config H before spent spent' request w v st st' work' := by
  cases h with
  | asking hrequest hlocks hnone =>
      rw [Operation.run_ask_bind] at hnext
      cases hnext
      refine ⟨spent, .of_store ?_ hrows rfl hlocked⟩
      show Stage config H before spent request w st
        (removalAfter _ _ (w.store.target? _)).run
      cases hrow : w.store.target? _ with
      | none => exact .ended hlocks _
      | some r =>
          rcases Store.target?_eq_some hrow with ⟨hmem, rfl⟩
          exact .reading hrequest hlocks hnone (hw.targets r hmem).issued (hrows r hmem)
  | reading hrequest hlocks hnone hissued hspent =>
      rw [run_removalAfter] at hnext
      cases hnext
      refine ⟨spent, .of_store ?_ hrows rfl hlocked⟩
      exact Stage.step_reading hrequest hlocks hnone hissued hspent hw hH
  | waiting hlocks happroach hreplay hcleared hsettled =>
      cases work with
      | done r => cases hnext
      | call c next => exact happroach.elim
      | release id next => exact happroach.elim
      | isHeld id next => exact happroach.elim
      | detach next =>
          cases hnext
          exact ⟨spent, .of_store (.waiting hlocks happroach hreplay hcleared hsettled) hrows
            rfl hlocked⟩
      | draw next =>
          cases hnext
          exact ⟨spent, .of_store (.step_draw hlocks happroach hreplay hsettled _ _) hrows rfl
            hlocked⟩
      | acquire id next =>
          simp only [Saga.next?] at hnext
          cases hacquire : w.locks.acquire? id with
          | none =>
              rw [hacquire] at hnext
              cases hnext
              rcases happroach.1 with ⟨r, hr⟩
              rw [hr]
              exact ⟨spent, .of_store (.ended hlocks r) hrows rfl hlocked⟩
          | some locks =>
              rw [hacquire] at hnext
              cases hnext
              refine ⟨spent, .of_store (.step_acquire happroach hacquire hlocked hlocks _) hrows
                rfl ?_⟩
              intro other hother
              rw [LockTable.isHeld_acquire? hacquire, hlocked other hother, Bool.or_true]
  | @holding id draws own inner hlocks hnew hinner hdraws hown =>
      cases inner with
      | done r =>
          cases hnext
          have hnone : st.locks.filter (· != id) = [] := by simp [hlocks]
          refine ⟨spent, .of_store (.ended hnone r) hrows rfl ?_⟩
          intro other hother
          have hne : other ≠ id := by
            rintro rfl
            rw [hnew] at hother
            cases hother
          show (w.locks.release id).isHeld other = true
          rw [LockTable.isHeld_release_of_ne w.locks hne]
          exact hlocked other hother
      | call c next =>
          cases hnext
          exact ⟨_, .of_call hw hH hrows hlocked hlocks hnew hinner hdraws hown⟩
      | draw next =>
          cases hnext
          refine ⟨spent, .of_store ?_ hrows rfl hlocked⟩
          apply Stage.step_holding_draw hlocks hnew hinner hdraws hown _ hdrawn
          exact fun hspent => hids.next_ne (hgave _ hspent) rfl
      | acquire id next => exact hinner.elim
      | release id next => exact hinner.elim
      | isHeld id next => exact hinner.elim
      | detach next => exact hinner.elim
  | ended hlocks r => cases hnext

end Step
end TelemetryTriggers
