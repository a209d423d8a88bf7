import TelemetryTriggers.Proofs.Orchestrator.ServingWork
import TelemetryTriggers.Proofs.Orchestrator.Stages

/-!
# Phases of a change

A change reads at most until it has its lock, and all the work after that is on the
trigger that it has locked.  When it gives the lock back, the trigger is served, unless a
change of its targets ended in an error of the store.

Main definitions: `Request.Aims`, the trigger that a change is for; `Saga.Coming`, the way
to the lock; `Phase`, how far a change has come.  The main statements are
`Request.Changes.coming` and `Phase.step`.
-/

namespace TelemetryTriggers

namespace Request

def Retargets (H : History) (id : TriggerId) : Request -> Prop
  | addTarget _ other _ => other = id
  | removeTarget _ target => H.Issued id target.uuid
  | _ => False

def Aims (H : History) (id : TriggerId) (drawn : List Uuid) : Request -> Prop
  | create _ => drawn.head? = some id.uuid
  | delete _ other => other = id
  | request => request.Retargets H id

def Creates : Request -> Prop
  | create _ => True
  | _ => False

theorem Aims.grows {H : History} {id : TriggerId} {drawn later : List Uuid} {request : Request}
    (h : request.Aims H id drawn) (hlater : drawn <+: later) : request.Aims H id later := by
  cases request with
  | create request =>
      rcases hlater with ⟨rest, rfl⟩
      have hhead : drawn.head? = some id.uuid := h
      show (drawn ++ rest).head? = some id.uuid
      rw [List.head?_append, hhead]
      rfl
  | _ => exact h

theorem Aims.head {H : History} {id : TriggerId} {drawn : List Uuid} {request : Request}
    (h : request.Aims H id drawn) (hcreates : request.Creates) :
    drawn.head? = some id.uuid := by
  cases request with
  | create _ => exact h
  | _ => cases hcreates

theorem Creates.changes {request : Request} (h : request.Creates) : request.Changes := by
  cases request with
  | create _ => trivial
  | _ => cases h

theorem Makes.creates {naming : ResourceNaming} {request : Request} {c : Call}
    (h : request.Makes naming c) (hc : c.Founds) : request.Creates := by
  cases request with
  | create _ => trivial
  | delete _ _ | addTarget _ _ _ | removeTarget _ _ | recover => exact absurd hc h
  | _ => exact absurd hc (Call.Reads.not_founds h)

theorem Makes.reads_or_recover {naming : ResourceNaming} {request : Request} {c : Call}
    (h : request.Makes naming c) (hchanges : ¬ request.Changes) :
    c.Reads ∨ request = .recover := by
  cases request with
  | create _ | delete _ _ | addTarget _ _ _ | removeTarget _ _ => exact absurd trivial hchanges
  | recover => exact Or.inr rfl
  | _ => exact Or.inl h

end Request

def World.Open (naming : ResourceNaming) (H : History) (broken : TriggerId -> Prop)
    (id : TriggerId) (request : Request) (w : World) : Prop :=
  w.Served naming H broken id ∧ (request.Creates -> w.Unheard naming id)

/-- The trigger is served, or a change of its targets ends in an error of the store. -/
def Leaves (naming : ResourceNaming) (H : History) (broken : TriggerId -> Prop)
    (id : TriggerId) (request : Request) (r : Except TriggerError Answer) : Assertion :=
  fun st w => Reliably (World.Served naming H broken id) st w ∨
    (request.Retargets H id ∧ exists cause, r = .error (.store cause))

namespace Saga

variable (config : Config) (fails : Call -> ServiceError -> Prop) (H : History)
  (broken : TriggerId -> Prop)

/-- Up to its lock the saga asks questions only, and the work under the lock serves the
trigger. -/
def Coming (request : Request) : List Uuid -> Saga (Except TriggerError Answer) -> Prop
  | _, .done _ => True
  | drawn, .call c next =>
      c.Reads ∧ (forall e, Coming request drawn (next (.error e))) ∧
        forall w, w.Sound config H -> Coming request drawn (next (c.perform w).1)
  | drawn, .acquire id next =>
      request.Aims H id drawn ∧ (exists r, next false = .done r) ∧
        exists inner : Saga (Except TriggerError Answer), next true = inner.under id ∧
          inner.Triple (serving config fails H id)
            (Reliably (World.Open config.naming H broken id request))
            (Leaves config.naming H broken id request)
  | drawn, .draw next => forall u, Coming request (drawn ++ [u]) (next u)
  | drawn, .detach next => Coming request drawn next
  | _, .release _ _ => False
  | _, .isHeld _ _ => False

variable {config fails H broken} {request : Request} {id : TriggerId} {drawn : List Uuid}

theorem coming_locked {α : Type} {op : Operation α} (answer : α -> Answer)
    (haims : request.Aims H id drawn)
    (hop : Operation.Triple (serving config fails H id)
      (Reliably (World.Open config.naming H broken id request)) op
      (fun _ => Reliably (World.Served config.naming H broken id))
      fun e => Leaves config.naming H broken id request (.error e)) :
    Coming config fails H broken request drawn
      (Operation.locked id op >>= fun a => pure (answer a)).run := by
  rw [Operation.run_locked]
  refine ⟨haims, ⟨_, rfl⟩, _, rfl, ?_⟩
  have hwork : Operation.Triple (serving config fails H id)
      (Reliably (World.Open config.naming H broken id request))
      (op >>= fun a => pure (answer a))
      (fun _ => Reliably (World.Served config.naming H broken id))
      fun e => Leaves config.naming H broken id request (.error e) :=
    hop.bind fun _ => Operation.Triple.pure fun st w h => h
  apply hwork.meets.consequence
  · exact fun st w h => h
  · intro r st w h
    cases r with
    | ok a => exact Or.inl h
    | error e => exact h

end Saga

/-!
# The start of a change
-/

section Start

variable {config : Config} {fails : Call -> ServiceError -> Prop} {H : History}
  {broken : TriggerId -> Prop} {request : Request}

theorem coming_removeTarget (hfaults : forall c e, fails c e -> e.isAbsence = false)
    (hdistinct : H.Distinct) (user : UserId) (target : TargetId) :
    Saga.Coming config fails H broken (.removeTarget user target) []
      ((Request.removeTarget user target).operation config).run := by
  rw [removeTarget_eq, Operation.run_ask_bind]
  refine ⟨trivial, fun e => trivial, ?_⟩
  intro w hw
  show Saga.Coming _ _ _ _ _ _ (removalAfter user target (w.store.target? target)).run
  cases hrow : w.store.target? target with
  | none => trivial
  | some r =>
      rcases Store.target?_eq_some hrow with ⟨hmem, rfl⟩
      have hissued := (hw.targets r hmem).issued
      rw [run_removalAfter]
      refine ⟨trivial, fun e => trivial, ?_⟩
      intro v _
      show Saga.Coming _ _ _ _ _ _ (if (v.store.trigger? r.trigger).any _ then _ else _)
      split
      · refine Saga.coming_locked (fun _ => .removed) ?_ ?_
        · exact hissued
        apply (removeTargetOwned_serving hfaults hdistinct hissued).consequence
        · exact fun st w h => h.mono And.left
        · exact fun _ st w h => h
        · intro e st w h
          rcases h with hserved | ⟨cause, rfl⟩
          · exact Or.inl hserved
          · exact Or.inr ⟨hissued, cause, rfl⟩
      · trivial

theorem Request.Changes.coming (h : request.Changes)
    (hfaults : forall c e, fails c e -> e.isAbsence = false) (hdistinct : H.Distinct)
    (hknown : H request []) :
    Saga.Coming config fails H broken request [] (request.operation config).run := by
  cases request with
  | create request =>
      cases hvalid : request.validate config.maxTargets with
      | error e =>
          rw [run_create_of_error hvalid]
          trivial
      | ok valid =>
          rw [run_create_of_ok hvalid]
          intro u
          refine Saga.coming_locked .created ?_ ?_
          · rfl
          apply (createWithId_serving request.user valid).consequence
          · exact fun st w h => h.mono fun hw => ⟨hw.1, hw.2 trivial⟩
          · exact fun _ st w h => h
          · exact fun _ st w h => Or.inl h
  | delete user id =>
      refine Saga.coming_locked (fun _ => .deleted) ?_ ?_
      · rfl
      apply (deleteOwned_serving hknown).consequence
      · exact fun st w h => h.mono And.left
      · exact fun _ st w h => h
      · exact fun _ st w h => Or.inl h
  | addTarget user id spec =>
      cases hvalid : spec.validate with
      | error e =>
          rw [run_addTarget_of_error hvalid]
          trivial
      | ok target =>
          rw [run_addTarget_of_ok hvalid]
          refine Saga.coming_locked .added ?_ ?_
          · rfl
          apply (addTargetOwned_serving config.maxTargets target).consequence
          · exact fun st w h => h.mono And.left
          · exact fun _ st w h => h
          · intro e st w h
            rcases h with hserved | ⟨cause, rfl⟩
            · exact Or.inl hserved
            · exact Or.inr ⟨rfl, cause, rfl⟩
  | removeTarget user target => exact coming_removeTarget hfaults hdistinct user target
  | _ => exact h.elim

end Start

/-!
# Phases
-/

theorem Saga.Step.of_under {fails : Call -> ServiceError -> Prop} {id : TriggerId}
    {inner work : Saga (Except TriggerError Answer)} {st st' : Standing} {w v : World}
    (h : (inner.under id).Step fails st w st' v work) :
    (exists inner', work = inner'.under id ∧ inner.Step fails st w st' v inner') ∨
      exists r, inner = .done r ∧ Saga.Step fails st w (.release id (.done r)) st' v work := by
  cases inner with
  | done r => exact Or.inr ⟨r, rfl, h⟩
  | call c next =>
      have hcall : Saga.Step fails st w (.call c fun reply => (next reply).under id) st' v work :=
        h
      cases hcall with
      | call => exact Or.inl ⟨_, rfl, .call c next st w⟩
      | failure _ _ _ _ e he => exact Or.inl ⟨_, rfl, .failure c next st w e he⟩
  | acquire other next =>
      have hacquire : Saga.Step fails st w (.acquire other fun free => (next free).under id) st' v
          work := h
      cases hacquire with
      | acquire _ _ _ _ locks hlocks => exact Or.inl ⟨_, rfl, .acquire other next st w locks hlocks⟩
      | busy _ _ _ _ hlocks => exact Or.inl ⟨_, rfl, .busy other next st w hlocks⟩
  | release other next =>
      have hrelease : Saga.Step fails st w (.release other (next.under id)) st' v work := h
      cases hrelease
      exact Or.inl ⟨_, rfl, .release other next st w⟩
  | isHeld other next =>
      have hasked : Saga.Step fails st w (.isHeld other fun held => (next held).under id) st' v
          work := h
      cases hasked
      exact Or.inl ⟨_, rfl, .isHeld other next st w⟩
  | draw next =>
      have hdraw : Saga.Step fails st w (.draw fun u => (next u).under id) st' v work := h
      cases hdraw
      exact Or.inl ⟨_, rfl, .draw next st w⟩
  | detach next =>
      have hdetach : Saga.Step fails st w (.detach (next.under id)) st' v work := h
      cases hdetach
      exact Or.inl ⟨_, rfl, .detach next st w⟩

def Standing.inside (id : TriggerId) (st : Standing) : Standing :=
  { st with locks := [id, id] }

/-- A change is on its way to its lock, or it works under the lock.  The way has also
come to its end when the change has. -/
inductive Phase (config : Config) (fails : Call -> ServiceError -> Prop) (H : History)
    (broken : TriggerId -> Prop) (request : Request) (w : World) :
    Standing -> Saga (Except TriggerError Answer) -> Prop
  | coming {st : Standing} {work : Saga (Except TriggerError Answer)} (hlocks : st.locks = [])
      (hwork : work.Coming config fails H broken request st.drawn) :
      Phase config fails H broken request w st work
  | working {st : Standing} {id : TriggerId} {inner : Saga (Except TriggerError Answer)}
      (hlocks : st.locks = [id]) (haims : request.Aims H id st.drawn)
      (hinner : inner.Meets (serving config fails H id)
        (Leaves config.naming H broken id request) (st.inside id) w) :
      Phase config fails H broken request w st (inner.under id)

structure Phase.Advance (config : Config) (fails : Call -> ServiceError -> Prop)
    (H : History) (broken : TriggerId -> Prop) (request : Request) (w v : World)
    (st st' : Standing) (work : Saga (Except TriggerError Answer)) : Prop where
  phase : Phase config fails H broken request v st' work
  topics : forall t, t ∈ v.broker.topics -> t ∈ w.broker.topics ∨
    exists id, st'.locks = [id] ∧ request.Creates ∧ request.Aims H id st'.drawn ∧
      t.name = config.naming.topicName id
  rules : forall r, r ∈ v.engine.rules -> r ∈ w.engine.rules ∨
    exists id, r.name = config.naming.ruleName id ∧ r.topic = config.naming.topicHandle id
  ended : st.locks ≠ [] -> st'.locks = [] -> exists r, work = .done r
  left : forall id, id ∈ st.locks -> id ∉ st'.locks -> request.Aims H id st'.drawn ∧
    (v.Served config.naming H broken id ∨
      (request.Retargets H id ∧ exists cause, work = .done (.error (.store cause))))

section Step

variable {config : Config} {fails : Call -> ServiceError -> Prop} {H : History}
  {broken : TriggerId -> Prop} {request : Request} {w v : World} {st st' : Standing}
  {work work' : Saga (Except TriggerError Answer)}

theorem between_trans {id : TriggerId} (st : Standing) (w v u : World)
    (hv : (serving config fails H id).between st w v)
    (hu : (serving config fails H id).between st v u) :
    (serving config fails H id).between st w u :=
  ⟨hv.1.trans hu.1, hv.2.trans hu.2⟩

theorem Phase.later (h : Phase config fails H broken request w st work)
    (hids : w.ids.Precedes v.ids)
    (hv : forall id, id ∈ st.locks -> w.SameTargets config.naming id v) :
    Phase config fails H broken request v st work := by
  cases h with
  | coming hlocks hwork => exact .coming hlocks hwork
  | @working id inner hlocks haims hinner =>
      refine .working hlocks haims (hinner.later between_trans ?_ ⟨hids, hv id ?_⟩)
      · intro r st w v hleaves hbetween
        rcases hleaves with hserved | hbroken
        · exact Or.inl (stable_reliably World.onTargets_serving st w v hserved hbetween)
        · exact Or.inr hbroken
      · rw [hlocks]
        exact List.mem_singleton_self id

theorem Phase.Advance.of_services (hphase : Phase config fails H broken request v st' work')
    (hsame : w.SameServices v) (hlocks : st'.locks = st.locks) :
    Phase.Advance config fails H broken request w v st st' work' where
  phase := hphase
  topics := by
    rw [hsame.topics]
    exact fun t ht => Or.inl ht
  rules := by
    rw [hsame.engine]
    exact fun r hr => Or.inl hr
  ended := by
    rw [hlocks]
    exact fun hsome hnone => absurd hnone hsome
  left := by
    rw [hlocks]
    exact fun id hid hgone => absurd hid hgone

theorem Phase.Advance.of_call {id : TriggerId} {c : Call}
    {next : Except ServiceError c.Reply -> Saga (Except TriggerError Answer)}
    (hlocks : st.locks = [id]) (haims : request.Aims H id st.drawn)
    (hmakes : request.Makes config.naming c) (hnamed : c.NamedFor config.naming id)
    (hdone : (next (c.perform w).1).Meets (serving config fails H id)
      (Leaves config.naming H broken id request) (st.inside id) (c.perform w).2) :
    Phase.Advance config fails H broken request w (c.perform w).2 st st
      ((next (c.perform w).1).under id) where
  phase := .working hlocks haims hdone
  topics := by
    intro t ht
    rcases Call.topic_origin ht with hold | ⟨name, rfl, rfl⟩
    · exact Or.inl hold
    · exact Or.inr ⟨id, hlocks, hmakes.creates trivial, haims, hnamed⟩
  rules := by
    intro r hr
    rcases Call.rule_origin hr with hold | ⟨name, predicate, topic, rfl, rfl⟩
    · exact Or.inl hold
    · exact Or.inr ⟨id, hnamed⟩
  ended hsome hnone := absurd hnone hsome
  left _ hid hgone := absurd hid hgone

theorem Phase.Advance.of_release {id : TriggerId} {r : Except TriggerError Answer}
    (hlocks : st.locks = [id]) (haims : request.Aims H id st.drawn)
    (hids : w.ids.Unrepeated) (hleaves : Leaves config.naming H broken id request r st w) :
    Phase.Advance config fails H broken request w { w with locks := w.locks.release id } st
      { st with locks := st.locks.filter (· != id) } (.done r) where
  phase := .coming (by simp [hlocks]) trivial
  topics _ ht := Or.inl ht
  rules _ hr := Or.inl hr
  ended _ _ := ⟨r, rfl⟩
  left := by
    intro other hother _
    rw [hlocks] at hother
    rcases List.mem_singleton.mp hother with rfl
    refine ⟨haims, ?_⟩
    rcases hleaves with hserved | ⟨hretargets, cause, rfl⟩
    · have hsame : w.SameTargets config.naming other { w with locks := w.locks.release other } :=
        .of_services ⟨rfl, rfl, rfl, rfl⟩
      exact Or.inl (World.onTargets_serving w _ hsame (hserved hids))
    · exact Or.inr ⟨hretargets, cause, rfl⟩

theorem Phase.step_coming (hlocks : st.locks = [])
    (hwork : work.Coming config fails H broken request st.drawn) (hw : w.Sound config H)
    (hopen : forall id, w.locks.isHeld id = false -> request.Aims H id st.drawn ->
      (exists next, work = .acquire id next) -> w.Open config.naming H broken id request)
    (hstep : work.Step fails st w st' v work') :
    Phase.Advance config fails H broken request w v st st' work' := by
  cases hstep with
  | call c next =>
      rw [hwork.1.perform_eq]
      exact .of_services (.coming hlocks (hwork.2.2 w hw)) (.refl w) rfl
  | failure c next st w e he =>
      exact .of_services (.coming hlocks (hwork.2.1 e)) (.refl w) rfl
  | acquire id next st w locks hacquire =>
      rcases hwork with ⟨haims, _, inner, hnext, hinner⟩
      have hfree := (LockTable.acquire?_eq_some hacquire).1
      have hsame : w.SameTargets config.naming id { w with locks } :=
        .of_services ⟨rfl, rfl, rfl, rfl⟩
      have hready := hopen id hfree haims ⟨next, rfl⟩
      constructor
      · rw [hnext]
        refine .working (congrArg (id :: ·) hlocks) ?_ ?_
        · exact haims
        apply hinner
        intro _
        refine ⟨World.onTargets_serving w _ hsame hready.1, fun hcreates => ?_⟩
        exact hsame.subscriptions.trans (hready.2 hcreates)
      · exact fun t ht => Or.inl ht
      · exact fun r hr => Or.inl hr
      · exact fun hsome => absurd hlocks hsome
      · intro other hother
        rw [hlocks] at hother
        cases hother
  | busy id next st w hbusy =>
      rcases hwork.2.1 with ⟨r, hr⟩
      rw [hr]
      exact .of_services (.coming hlocks trivial) (.refl w) rfl
  | release id next => exact hwork.elim
  | isHeld id next => exact hwork.elim
  | draw next => exact .of_services (.coming hlocks (hwork _)) ⟨rfl, rfl, rfl, rfl⟩ rfl
  | detach next => exact .of_services (.coming hlocks hwork) (.refl w) rfl

theorem Phase.step_working {id : TriggerId} {inner : Saga (Except TriggerError Answer)}
    (hlocks : st.locks = [id]) (haims : request.Aims H id st.drawn)
    (hmakes : (inner.under id).Only (request.Makes config.naming))
    (hinner : inner.Meets (serving config fails H id)
      (Leaves config.naming H broken id request) (st.inside id) w)
    (hw : w.Sound config H) (hnumbered : w.Numbered) (hids : v.ids.Unrepeated)
    (hstep : (inner.under id).Step fails st w st' v work') :
    Phase.Advance config fails H broken request w v st st' work' := by
  have hnow : (serving config fails H id).between (st.inside id) w w := ⟨.refl _, .refl w⟩
  have hinv : (serving config fails H id).inv w := ⟨hw, hnumbered⟩
  rcases hstep.of_under with ⟨inner', rfl, hinside⟩ | ⟨r, rfl, hrelease⟩
  · cases hinside with
    | call c next =>
        rcases hinner w hnow hinv with ⟨hnamed, _, hdone⟩
        exact .of_call hlocks haims hmakes.1 hnamed hdone
    | failure c next _ _ e he =>
        rcases hinner w hnow hinv with ⟨_, hfails, _⟩
        exact .of_services (.working hlocks haims (hfails e he)) (.refl w) rfl
    | acquire | busy | release => cases hinner.1
    | isHeld | detach =>
        exact .of_services (.working hlocks haims (hinner w hnow hinv)) (.refl w) rfl
    | draw =>
        refine .of_services (.working hlocks (haims.grows (List.prefix_append _ _)) ?_)
          ⟨rfl, rfl, rfl, rfl⟩ rfl
        exact hinner w hnow hinv trivial
  · cases hrelease
    exact .of_release hlocks haims hids hinner

theorem Phase.step (h : Phase config fails H broken request w st work)
    (hmakes : work.Only (request.Makes config.naming)) (hw : w.Sound config H)
    (hnumbered : w.Numbered) (hids : v.ids.Unrepeated)
    (hopen : forall id, w.locks.isHeld id = false -> request.Aims H id st.drawn ->
      st.locks = [] -> (exists next, work = .acquire id next) ->
        w.Open config.naming H broken id request)
    (hstep : work.Step fails st w st' v work') :
    Phase.Advance config fails H broken request w v st st' work' := by
  cases h with
  | coming hlocks hwork =>
      exact Phase.step_coming hlocks hwork hw (fun id hfree haims => hopen id hfree haims hlocks)
        hstep
  | working hlocks haims hinner =>
      exact Phase.step_working hlocks haims hmakes hinner hw hnumbered hids hstep

end Step
end TelemetryTriggers
