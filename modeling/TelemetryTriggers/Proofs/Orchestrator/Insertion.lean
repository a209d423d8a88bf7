import TelemetryTriggers.Proofs.Orchestrator.Phases
import TelemetryTriggers.Proofs.Orchestrator.SweepSafety

/-!
# Rows are inserted once

An operation inserts the row of one trigger at most, under the first identifier that it
drew, and never tries again.  As long as fresh identifiers do not repeat, nobody else
draws that identifier, so a row that is gone does not come back.

Main definitions: `Saga.InsertsOnce`; `System.Settled`, after which no row of the trigger
is inserted any more.  The main statements are `System.Reachable.settled` and
`System.Settled.row_origin`.
-/

namespace TelemetryTriggers

def Call.Inserts : Call -> Prop
  | insertTrigger _ => True
  | _ => False

theorem Call.Inserts.founds {c : Call} (h : c.Inserts) : c.Founds := by
  cases c with
  | insertTrigger _ => trivial
  | _ => cases h

theorem Call.row_origin {c : Call} {w : World} {row : Trigger}
    (hrow : row ∈ (c.perform w).2.store.triggers) :
    (exists old, old ∈ w.store.triggers ∧ old.id = row.id) ∨ c = .insertTrigger row := by
  rcases c.triggers_perform w with heq | ⟨made, hc, heq⟩ | ⟨id, handles, _, heq⟩ | ⟨id, _, heq⟩
  · rw [heq] at hrow
    exact Or.inl ⟨row, hrow, rfl⟩
  · rw [heq] at hrow
    rcases List.mem_append.mp hrow with hold | hnew
    · exact Or.inl ⟨row, hold, rfl⟩
    · rw [List.mem_singleton.mp hnew]
      exact Or.inr hc
  · rw [heq] at hrow
    rcases List.mem_map.mp hrow with ⟨old, hold, hwritten⟩
    refine Or.inl ⟨old, hold, ?_⟩
    rw [← hwritten]
    split
    · rfl
    · rfl
  · rw [heq] at hrow
    exact Or.inl ⟨row, List.mem_of_mem_filter hrow, rfl⟩

/-!
# Sagas that insert once
-/

namespace Saga

variable {α β : Type} {first : Option Uuid}

/-- The saga, which may have drawn an identifier first, inserts one row at most and that
under the first identifier, whatever it is answered. -/
def InsertsOnce : Option Uuid -> Saga α -> Prop
  | _, .done _ => True
  | first, .call c next =>
      (forall row, c = .insertTrigger row -> first = some row.id.uuid ∧
        forall reply, (next reply).Only (¬ ·.Inserts)) ∧
      forall reply, (next reply).InsertsOnce first
  | first, .acquire _ next => forall free, (next free).InsertsOnce first
  | first, .release _ next => next.InsertsOnce first
  | first, .isHeld _ next => forall held, (next held).InsertsOnce first
  | first, .draw next => forall u, (next u).InsertsOnce (first.or (some u))
  | first, .detach next => next.InsertsOnce first

theorem Only.insertsOnce {s : Saga α} (h : s.Only (¬ ·.Inserts)) : s.InsertsOnce first := by
  induction s generalizing first with
  | done a => trivial
  | call c next ih =>
      refine ⟨?_, fun reply => ih reply (h.2 reply)⟩
      intro row hc
      subst hc
      exact absurd trivial h.1
  | acquire id next ih => exact fun free => ih free (h free)
  | release id next ih => exact ih h
  | isHeld id next ih => exact fun held => ih held (h held)
  | draw next ih => exact fun u => ih u (h u)
  | detach next ih => exact ih h

theorem Only.bind_insertsOnce {u : Uuid} {s : Saga α} {f : α -> Saga β}
    (h : s.Only (¬ ·.Inserts)) (hf : forall a, (f a).InsertsOnce (some u)) :
    (s.bind f).InsertsOnce (some u) := by
  induction s with
  | done a => exact hf a
  | call c next ih =>
      refine ⟨?_, fun reply => ih reply (h.2 reply)⟩
      intro row hc
      subst hc
      exact absurd trivial h.1
  | acquire id next ih => exact fun free => ih free (h free)
  | release id next ih => exact ih h
  | isHeld id next ih => exact fun held => ih held (h held)
  | draw next ih => exact fun other => ih other (h other)
  | detach next ih => exact ih h

theorem InsertsOnce.bind {s : Saga α} {f : α -> Saga β} (h : s.InsertsOnce first)
    (hf : forall a, (f a).Only (¬ ·.Inserts)) : (s.bind f).InsertsOnce first := by
  induction s generalizing first with
  | done a => exact (hf a).insertsOnce
  | call c next ih =>
      refine ⟨?_, fun reply => ih reply (h.2 reply)⟩
      intro row hc
      rcases h.1 row hc with ⟨hfirst, hrest⟩
      exact ⟨hfirst, fun reply => (hrest reply).bind hf⟩
  | acquire id next ih => exact fun free => ih free (h free)
  | release id next ih => exact ih h
  | isHeld id next ih => exact fun held => ih held (h held)
  | draw next ih => exact fun u => ih u (h u)
  | detach next ih => exact ih h

theorem InsertsOnce.step {fails : Call -> ServiceError -> Prop} {s s' : Saga α}
    {st st' : Standing} {w v : World} (h : s.InsertsOnce st.drawn.head?)
    (hstep : s.Step fails st w st' v s') : s'.InsertsOnce st'.drawn.head? := by
  cases hstep with
  | call c next => exact h.2 _
  | failure c next st w e he => exact h.2 _
  | acquire id next => exact h true
  | busy id next => exact h false
  | release id next => exact h
  | isHeld id next => exact h _
  | draw next =>
      show InsertsOnce (st.drawn ++ [w.ids.next.1]).head? _
      rw [List.head?_append]
      exact h _
  | detach next => exact h

end Saga

theorem Operation.insertsOnce_ask_bind {α : Type} {row : Trigger} {f : Unit -> Operation α}
    (hf : forall r, Operation.Only (¬ ·.Inserts) (f r)) :
    (Operation.ask (.insertTrigger row) >>= f).run.InsertsOnce (some row.id.uuid) := by
  rw [Operation.run_ask_bind]
  constructor
  · intro other hc
    cases hc
    refine ⟨rfl, ?_⟩
    intro reply
    cases reply with
    | ok r => exact (hf r).run
    | error e => trivial
  · intro reply
    cases reply with
    | ok r => exact (hf r).run.insertsOnce
    | error e => trivial

/-!
# Requests
-/

section Requests

variable {config : Config}

theorem createWithId_insertsOnce (naming : ResourceNaming) (user : UserId)
    (request : ValidRequest) (u : Uuid) :
    (Lifecycle.createWithId naming user request ⟨u⟩).run.InsertsOnce (some u) := by
  have hthing : Operation.Only (¬ ·.Inserts)
      (Lifecycle.pairedThing user request.thingName) := by
    apply Operation.Only.bind
    · exact .ask fun h => h
    · exact fun _ => .orFail _ _
  rw [Lifecycle.createWithId]
  apply hthing.run.bind_insertsOnce
  intro r
  cases r with
  | error e => trivial
  | ok thing =>
      apply Operation.insertsOnce_ask_bind
      intro _
      apply provision_only fun c hc hinserts => hc (Call.Inserts.founds hinserts)
      · exact fun h => h
      · exact fun _ _ h => h
      · exact fun _ h => h

theorem create_insertsOnce (request : CreateRequest) :
    ((Request.create request).operation config).run.InsertsOnce none := by
  cases hvalid : request.validate config.maxTargets with
  | error e =>
      rw [Request.run_create_of_error hvalid]
      trivial
  | ok valid =>
      rw [Request.run_create_of_ok hvalid]
      intro u
      show Saga.InsertsOnce (some u) (Operation.locked ⟨u⟩ _ >>= _).run
      rw [Operation.run_locked]
      intro free
      cases free with
      | false => trivial
      | true =>
          apply Saga.InsertsOnce.bind
          · apply (createWithId_insertsOnce config.naming request.user valid u).bind
            intro r
            cases r with
            | ok details => trivial
            | error e => trivial
          · exact fun _ => trivial

theorem operation_insertsOnce (config : Config) (request : Request) :
    (request.operation config).run.InsertsOnce none := by
  by_cases hcreates : request.Creates
  · cases request with
    | create request => exact create_insertsOnce request
    | _ => cases hcreates
  · apply Saga.Only.insertsOnce
    apply (operation_makes config request).run.mono
    exact fun c hmakes hinserts => hcreates (hmakes.creates hinserts.founds)

end Requests

/-!
# Systems
-/

namespace System

variable {config : Config} {fails : Call -> ServiceError -> Prop} {things : List Thing}
  {ids : IdSource} {s t : System} {id : TriggerId}

theorem Reachable.insertsOnce (hs : Reachable config fails things ids s) :
    forall thread, thread ∈ s.threads -> forall work, thread.rest = some work ->
      work.InsertsOnce thread.standing.drawn.head? := by
  induction hs with
  | start => exact nofun
  | step _ hstep ih =>
      apply hstep.rest (P := fun st work => work.InsertsOnce st.drawn.head?) _ _ ih
      · exact operation_insertsOnce config
      · exact fun _ _ _ _ _ _ _ hmove h => h.step hmove

/-- The identifier was given out, and who drew it first inserts nothing any more. -/
structure Settled (id : TriggerId) (s : System) : Prop where
  gave : s.world.ids.Gave id.uuid
  spared : forall thread, thread ∈ s.threads -> forall work, thread.rest = some work ->
    thread.standing.drawn.head? = some id.uuid -> work.Only (¬ ·.Inserts)

theorem head_of_step {α : Type} {work work' : Saga α} {st st' : Standing} {w v : World}
    (hstep : work.Step fails st w st' v work') (hgave : w.ids.Gave id.uuid)
    (hv : v.ids.Unrepeated) (hhead : st'.drawn.head? = some id.uuid) :
    st.drawn.head? = some id.uuid := by
  cases hstep with
  | draw next =>
      have hhead : (st.drawn ++ [w.ids.next.1]).head? = some id.uuid := hhead
      rw [List.head?_append] at hhead
      cases hdrawn : st.drawn.head? with
      | some u =>
          rw [hdrawn] at hhead
          exact hhead
      | none =>
          rw [hdrawn] at hhead
          exact absurd (Option.some.inj hhead).symm (hv.next_ne hgave)
  | _ => exact hhead

theorem Settled.step (h : s.Settled id) (hstep : Step config fails s t)
    (ht : t.world.ids.Unrepeated) : t.Settled id where
  gave := hstep.precedes.gave h.gave
  spared := by
    apply hstep.rest (P := fun st work => st.drawn.head? = some id.uuid ->
      work.Only (¬ ·.Inserts)) _ _ h.spared
    · exact fun _ hhead => nomatch hhead
    · intro place request st st' work work' _ hmove hspared hhead
      exact (hspared (head_of_step hmove h.gave ht hhead)).step hmove

/-- A row of the trigger was there before the step, or the step inserted it, and then the
operation that drew its identifier first has inserted it. -/
theorem Step.row_origin (hstep : Step config fails s t) {row : Trigger}
    (hrow : row ∈ t.world.store.triggers) :
    (exists old, old ∈ s.world.store.triggers ∧ old.id = row.id) ∨
      exists place request st next, s.threads[place]? =
          some ⟨request, st, some (.call (.insertTrigger row) next)⟩ ∧
        exists reply, t.threads = s.threads.set place ⟨request, st, some (next reply)⟩ := by
  have hsame : t.world.store = s.world.store ->
      exists old, old ∈ s.world.store.triggers ∧ old.id = row.id := by
    intro hstore
    rw [hstore] at hrow
    exact ⟨row, hrow, rfl⟩
  cases hstep with
  | move hmoves =>
      cases hmoves with
      | @move w v threads request st st' work work' hplace hmove =>
          cases hmove with
          | call c next =>
              rcases Call.row_origin hrow with hold | rfl
              · exact Or.inl hold
              · exact Or.inr ⟨_, request, st, next, hplace, _, rfl⟩
          | _ => exact Or.inl (hsame rfl)
  | _ => exact Or.inl (hsame rfl)

theorem Reachable.settled (hs : Reachable config fails things ids s)
    (hids : s.world.ids.Unrepeated) {row : Trigger} (hrow : row ∈ s.world.store.triggers) :
    s.Settled row.id := by
  induction hs generalizing row with
  | start =>
      rw [(World.rows_ofThings things ids).1] at hrow
      cases hrow
  | @step s t hs hstep ih =>
      have hearlier := hstep.precedes.unrepeated hids
      rcases hstep.row_origin hrow with ⟨old, hold, hid⟩ | ⟨place, request, st, next, hplace,
        reply, hthreads⟩
      · rw [← hid]
        exact (ih hearlier hold).step hstep hids
      · have honce := hs.insertsOnce _ (List.mem_of_getElem? hplace) _ rfl
        rcases honce.1 row rfl with ⟨hfirst, hrest⟩
        have hmine : row.id.uuid ∈ st.drawn := List.mem_of_head? hfirst
        constructor
        · rcases (hs.drawn hearlier).past place _ hplace _ hmine with ⟨k, hk, hgave⟩
          exact hstep.precedes.gave ⟨k, hk, hgave⟩
        · intro thread hthread work hwork hhead
          rw [hthreads] at hthread
          rcases List.mem_iff_getElem?.mp hthread with ⟨other, hother⟩
          rcases getElem?_set_cases hother with ⟨_, rfl⟩ | ⟨hne, hother⟩
          · cases hwork
            exact hrest reply
          · exact absurd (List.mem_of_head? hhead)
              ((hs.drawn hearlier).apart place other _ _ hne hplace hother _ hmine)

theorem Settled.row_origin (h : s.Settled id) (hs : Reachable config fails things ids s)
    (hstep : Step config fails s t) {row : Trigger} (hrow : row ∈ t.world.store.triggers)
    (hid : row.id = id) : exists old, old ∈ s.world.store.triggers ∧ old.id = id := by
  subst hid
  rcases hstep.row_origin hrow with hold | ⟨place, request, st, next, hplace, _⟩
  · exact hold
  · have hthread := List.mem_of_getElem? hplace
    rcases (hs.insertsOnce _ hthread _ rfl).1 row rfl with ⟨hfirst, _⟩
    exact absurd trivial (h.spared _ hthread _ rfl hfirst).1

end System
end TelemetryTriggers
