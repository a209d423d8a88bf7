import TelemetryTriggers.Proofs.Lifecycle.Clearance
import TelemetryTriggers.Proofs.Orchestrator.InStep

/-!
# Phases of a deletion

A deletion makes no call until it has the lock of its trigger.  From then on it keeps to its
terms, and it is refused, or it ends well and gives the lock back.  What others do meanwhile
does not matter, since the trigger is not theirs.

Main definitions: `Deletion`, how far a deletion has come; `System.Deleting`, all deletions of
a trigger.  The main statements are `Deletion.step` and `System.Deleting.move`.
-/

namespace TelemetryTriggers

def Saga.call? {α : Type} : Saga α -> Option Call
  | .call c _ => some c
  | _ => none

def lockedDeletion (naming : ResourceNaming) (user : UserId) (id : TriggerId) :
    Saga (Except TriggerError Answer) :=
  .acquire id fun free =>
    if free then (Lifecycle.deletion naming user id).under id
    else .done (.error (.conflict id.text))

theorem run_delete (config : Config) (user : UserId) (id : TriggerId) :
    ((Request.delete user id).operation config).run =
      .detach (lockedDeletion config.naming user id) :=
  congrArg Saga.detach
    (Operation.run_locked id (Lifecycle.deleteOwned config.naming user id) fun _ => .deleted)

/-- A deletion is on its way to its lock, or it works under the lock, or it has been refused. -/
inductive Deletion (naming : ResourceNaming) (fails : Call -> ServiceError -> Prop)
    (terms : Terms) (user : UserId) (id : TriggerId) (w : World) :
    Standing -> Saga (Except TriggerError Answer) -> Prop
  | coming {st : Standing} {work : Saga (Except TriggerError Answer)} (hlocks : st.locks = [])
      (hwork : work = .detach (lockedDeletion naming user id) ∨
        work = lockedDeletion naming user id) :
      Deletion naming fails terms user id w st work
  | working {st : Standing} {inner : Saga (Except TriggerError Answer)}
      (hlocks : st.locks = [id])
      (hinner : inner.Meets (deleting naming fails terms.allowed id) terms.ends
        (st.inside id) w) :
      Deletion naming fails terms user id w st (inner.under id)
  | refused {st : Standing} {e : TriggerError} (hlocks : st.locks = [])
      (he : terms.refuses e) :
      Deletion naming fails terms user id w st (.done (.error e))

structure Deletion.Wins (terms : Terms) (id : TriggerId) (w v : World) (st st' : Standing)
    (work : Saga (Except TriggerError Answer)) : Prop where
  held : st.locks = [id]
  free : st'.locks = []
  answered : work = .done (.ok .deleted)
  wins : terms.wins w
  world : v = { w with locks := w.locks.release id }

section Phases

variable {naming : ResourceNaming} {fails : Call -> ServiceError -> Prop} {terms : Terms}
  {user : UserId} {id : TriggerId} {w v : World} {st st' : Standing}
  {inner work work' : Saga (Except TriggerError Answer)}

theorem meets_deleting_later (terms : Terms) (hwins : OfEstate naming id terms.wins)
    (h : inner.Meets (deleting naming fails terms.allowed id) terms.ends st w)
    (hv : v.estate naming id = w.estate naming id) :
    inner.Meets (deleting naming fails terms.allowed id) terms.ends st v := by
  apply h.later _ _ hv
  · intro st w v u hv hu
    exact Eq.trans hu hv
  · intro r st w v hends hv
    cases r with
    | ok answer => exact ⟨hends.1, hwins w v hv hends.2⟩
    | error e => exact hends

theorem Deletion.later (hwins : OfEstate naming id terms.wins)
    (h : Deletion naming fails terms user id w st work)
    (hv : id ∈ st.locks -> v.estate naming id = w.estate naming id) :
    Deletion naming fails terms user id v st work := by
  cases h with
  | coming hlocks hwork => exact .coming hlocks hwork
  | working hlocks hinner =>
      apply Deletion.working hlocks
      apply meets_deleting_later terms hwins hinner
      apply hv
      rw [hlocks]
      exact List.mem_singleton_self id
  | refused hlocks he => exact .refused hlocks he

theorem Deletion.mono {allowed : Call -> Prop} {wins wins' : World -> Prop}
    {refuses : TriggerError -> Prop} (hwins : forall w, wins w -> wins' w)
    (h : Deletion naming fails ⟨allowed, wins, refuses⟩ user id w st work) :
    Deletion naming fails ⟨allowed, wins', refuses⟩ user id w st work := by
  cases h with
  | coming hlocks hwork => exact .coming hlocks hwork
  | working hlocks hinner =>
      apply Deletion.working hlocks
      apply Saga.Meets.mono hinner
      intro r st w hends
      cases r with
      | ok answer => exact ⟨hends.1, hwins w hends.2⟩
      | error e => exact hends
  | refused hlocks he => exact .refused hlocks he

theorem Deletion.of_not_held {terms' : Terms}
    (hrefuses : forall e, terms.refuses e -> terms'.refuses e)
    (h : Deletion naming fails terms user id w st work) (hfree : id ∉ st.locks) :
    Deletion naming fails terms' user id w st work := by
  cases h with
  | coming hlocks hwork => exact .coming hlocks hwork
  | working hlocks _ => exact absurd (by simp [hlocks]) hfree
  | refused hlocks he => exact .refused hlocks (hrefuses _ he)

theorem Deletion.of_done {r : Except TriggerError Answer}
    (h : Deletion naming fails terms user id w st (.done r)) :
    exists e, r = .error e ∧ terms.refuses e := by
  generalize hwork : Saga.done r = work at h
  cases h with
  | coming _ hcoming =>
      subst hwork
      rcases hcoming with hcoming | hcoming
      · cases hcoming
      · cases hcoming
  | @working inner =>
      cases inner with
      | _ => cases hwork
  | @refused e _ he =>
      cases hwork
      exact ⟨e, rfl, he⟩

theorem Saga.call?_under (id : TriggerId) (inner : Saga (Except TriggerError Answer)) :
    (inner.under id).call? = inner.call? := by
  cases inner with
  | _ => rfl

theorem Deletion.allowed_of_call (h : Deletion naming fails terms user id w st work)
    (hw : w.Regular naming) {c : Call} (hcall : work.call? = some c) : terms.allowed c := by
  cases h with
  | coming _ hwork =>
      rcases hwork with rfl | rfl
      · cases hcall
      · cases hcall
  | @working inner _ hinner =>
      rw [Saga.call?_under] at hcall
      cases inner with
      | call c' next =>
          cases hcall
          exact (hinner w rfl hw).1
      | _ => cases hcall
  | refused => cases hcall

theorem step_under (terms : Terms) (hlocks : st.locks = [id])
    (hinner : inner.Meets (deleting naming fails terms.allowed id) terms.ends (st.inside id) w)
    (hw : w.Regular naming) (hstep : (inner.under id).Step fails st w st' v work') :
    (exists inner' : Saga (Except TriggerError Answer), work' = inner'.under id ∧
      st'.locks = [id] ∧ inner.Step fails st w st' v inner' ∧
        inner'.Meets (deleting naming fails terms.allowed id) terms.ends (st'.inside id) v) ∨
      exists r, inner = .done r ∧ work' = .done r ∧ st'.locks = [] ∧
        v = { w with locks := w.locks.release id } := by
  rcases hstep.of_under with ⟨inner', rfl, hinside⟩ | ⟨r, rfl, hrelease⟩
  · refine Or.inl ⟨inner', rfl, ?_⟩
    cases hinside with
    | call c next =>
        rcases hinner w rfl hw with ⟨_, _, hdone⟩
        exact ⟨hlocks, .call c next st w, hdone⟩
    | failure c next _ _ e he =>
        rcases hinner w rfl hw with ⟨_, hfails, _⟩
        exact ⟨hlocks, .failure c next st w e he, hfails e he⟩
    | acquire | busy | release => cases hinner.1
    | isHeld other next => exact ⟨hlocks, .isHeld other next st w, hinner w rfl hw⟩
    | draw next => exact ⟨hlocks, .draw next st w, hinner w rfl hw trivial⟩
    | detach => exact ⟨hlocks, .detach inner' st w, hinner w rfl hw⟩
  · cases hrelease
    exact Or.inr ⟨r, rfl, rfl, by simp [hlocks], rfl⟩

theorem Deletion.step (h : Deletion naming fails terms user id w st work)
    (hw : w.Regular naming)
    (hbusy : w.locks.acquire? id = none -> terms.refuses (.conflict id.text))
    (hstart : forall st locks, w.locks.acquire? id = some locks ->
      (Lifecycle.deletion naming user id).Meets (deleting naming fails terms.allowed id)
        terms.ends st { w with locks })
    (hstep : work.Step fails st w st' v work') :
    Deletion naming fails terms user id v st' work' ∨ Deletion.Wins terms id w v st st' work' := by
  cases h with
  | coming hlocks hwork =>
      left
      rcases hwork with rfl | rfl
      · cases hstep
        exact .coming hlocks (Or.inr rfl)
      · cases hstep with
        | acquire _ _ _ _ locks hacquire =>
            exact .working (congrArg (id :: ·) hlocks) (hstart _ locks hacquire)
        | busy _ _ _ _ hheld => exact .refused hlocks (hbusy hheld)
  | @working inner hlocks hinner =>
      rcases step_under terms hlocks hinner hw hstep with
        ⟨inner', rfl, hlocks', _, hinner'⟩ | ⟨r, rfl, rfl, hfree, hv⟩
      · exact Or.inl (.working hlocks' hinner')
      · cases r with
        | ok answer =>
            rcases hinner with ⟨rfl, hwins⟩
            exact Or.inr ⟨hlocks, hfree, rfl, hwins, hv⟩
        | error e => exact Or.inl (.refused hfree hinner)
  | refused => cases hstep

end Phases

/-!
# All deletions of a trigger
-/

theorem System.Reachable.regular {config : Config} {fails : Call -> ServiceError -> Prop}
    {things : List Thing} {ids : IdSource} {s : System}
    (hs : Reachable config fails things ids s) : s.world.Regular config.naming :=
  ⟨hs.ordered.inv.integrity, hs.named, hs.ordered.inv.handles⟩

def System.Deleting (naming : ResourceNaming) (fails : Call -> ServiceError -> Prop)
    (terms : Terms) (id : TriggerId) (who : Nat -> Prop) (s : System) : Prop :=
  forall (place : Nat) user st work, who place ->
    s.threads[place]? = some ⟨.delete user id, st, some work⟩ ->
      Deletion naming fails terms user id s.world st work

namespace System.Deleting

variable {config : Config} {fails among : Call -> ServiceError -> Prop} {things : List Thing}
  {ids : IdSource} {terms : Terms} {id : TriggerId} {who : Nat -> Prop} {w v : World}
  {threads : List Thread} {place : Nat} {request : Request} {st st' : Standing}
  {work work' : Saga (Except TriggerError Answer)} {s t : System}

theorem mono {allowed : Call -> Prop} {wins wins' : World -> Prop}
    {refuses : TriggerError -> Prop} {naming : ResourceNaming}
    (h : s.Deleting naming fails ⟨allowed, wins, refuses⟩ id who)
    (hwins : forall w, wins w -> wins' w) :
    s.Deleting naming fails ⟨allowed, wins', refuses⟩ id who :=
  fun place user st work hwho hplace => (h place user st work hwho hplace).mono hwins

theorem others (h : Deleting config.naming fails terms id who ⟨w, threads⟩)
    (hs : Reachable config among things ids ⟨w, threads⟩) (hids : w.ids.Unrepeated)
    (hwins : OfEstate config.naming id terms.wins)
    (hplace : threads[place]? = some ⟨request, st, some work⟩)
    (hstep : work.Step among st w st' v work') :
    Deleting config.naming fails terms id (fun other => who other ∧ other ≠ place)
      ⟨v, threads.set place ⟨request, st', some work'⟩⟩ := by
  intro other user rival rest hwho hother
  rcases getElem?_set_cases hother with ⟨hsame, _⟩ | ⟨hne, hold⟩
  · exact absurd hsame.symm hwho.2
  · apply (h other user rival rest hwho.1 hold).later hwins
    intro hheld
    apply estate_of_step hs.ordered (hs.drawn hids).distinct hplace hstep
    exact fun hmine => hs.ordered.apart place other _ _ hne hplace hold id hmine hheld

theorem around (h : Deleting config.naming fails terms id who ⟨w, threads⟩)
    (hwins : OfEstate config.naming id terms.wins) (hv : w.SameServices v) :
    Deleting config.naming fails terms id who ⟨v, threads⟩ :=
  fun place user st work hwho hplace =>
    (h place user st work hwho hplace).later hwins fun _ => World.estate_of_services hv

theorem insert (hothers : Deleting config.naming fails terms id
      (fun other => who other ∧ other ≠ place)
      ⟨v, threads.set place ⟨request, st', some work'⟩⟩)
    (hmine : forall user, request = .delete user id -> who place ->
      Deletion config.naming fails terms user id v st' work') :
    Deleting config.naming fails terms id who
      ⟨v, threads.set place ⟨request, st', some work'⟩⟩ := by
  intro other user rival rest hwho hother
  by_cases hsame : other = place
  · subst hsame
    rcases getElem?_set_cases hother with ⟨_, heq⟩ | ⟨hne, _⟩
    · cases heq
      exact hmine user rfl hwho
    · exact absurd rfl hne
  · exact hothers other user rival rest ⟨hwho, hsame⟩ hother

theorem move (h : Deleting config.naming fails terms id who ⟨w, threads⟩)
    (hs : Reachable config fails things ids ⟨w, threads⟩) (hids : w.ids.Unrepeated)
    (hwins : OfEstate config.naming id terms.wins) (hbusy : terms.refuses (.conflict id.text))
    (hstart : forall user st locks, w.locks.acquire? id = some locks ->
      (Lifecycle.deletion config.naming user id).Meets
        (deleting config.naming fails terms.allowed id) terms.ends st { w with locks })
    (hplace : threads[place]? = some ⟨request, st, some work⟩)
    (hstep : work.Step fails st w st' v work') :
    Deleting config.naming fails terms id who
        ⟨v, threads.set place ⟨request, st', some work'⟩⟩ ∨
      (who place ∧ (exists user, request = .delete user id) ∧
        Deletion.Wins terms id w v st st' work') := by
  have hothers := h.others hs hids hwins hplace hstep
  by_cases hmine : who place ∧ exists user, request = .delete user id
  · rcases hmine with ⟨hwho, user, rfl⟩
    rcases (h place user st work hwho hplace).step hs.regular (fun _ => hbusy) (hstart user)
      hstep with hgoes | hends
    · left
      apply hothers.insert
      intro other heq _
      cases heq
      exact hgoes
    · exact Or.inr ⟨hwho, ⟨user, rfl⟩, hends⟩
  · left
    apply hothers.insert
    exact fun user heq hwho => absurd ⟨hwho, user, heq⟩ hmine

theorem start (h : Deleting config.naming fails terms id who ⟨w, threads⟩) :
    Deleting config.naming fails terms id who ⟨w, threads ++ [.start config request]⟩ := by
  intro place user st work hwho hplace
  rcases getElem?_append_cases hplace with hold | ⟨_, hnew⟩
  · exact h place user st work hwho hold
  · cases hnew
    exact .coming rfl (Or.inl (run_delete config user id))

theorem abandon {thread : Thread} (h : Deleting config.naming fails terms id who ⟨w, threads⟩) :
    Deleting config.naming fails terms id who ⟨w, threads.set place thread.dropped⟩ := by
  intro other user st work hwho hother
  rcases getElem?_set_cases hother with ⟨_, heq⟩ | ⟨_, hold⟩
  · cases congrArg Thread.rest heq
  · exact h other user st work hwho hold

theorem restart :
    Deleting config.naming fails terms id who ⟨w, threads.map Thread.dropped⟩ := by
  intro place user st work _ hplace
  rcases getElem?_dropped_cases hplace with ⟨old, _, heq⟩
  cases congrArg Thread.rest heq

end System.Deleting
end TelemetryTriggers
