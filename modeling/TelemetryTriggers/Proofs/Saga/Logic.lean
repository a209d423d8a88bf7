import TelemetryTriggers.Saga.Undo

/-!
# What a saga does, whoever runs it

The answers that a saga gets depend on what happens around it: which calls fail,
and what other work does between its steps.  A `Setting` bounds both.  In a setting
a saga meets a postcondition if it ends in it whatever the setting lets happen, and
if every call that it makes on the way is one that the setting allows.

Main definitions: `Setting`; `Saga.Meets`, by recursion on the saga; `Saga.Triple`
and `Operation.Triple`, the same with a precondition.  The rules below them are one
for each way in which operations are put together.
-/

namespace TelemetryTriggers

/-- What a piece of work has come to own: the locks that it holds, the identifiers
that it drew, oldest first, and whether it goes on without its caller. -/
structure Standing where
  locks : List TriggerId
  drawn : List Uuid
  detached : Bool
deriving DecidableEq

abbrev Assertion : Type :=
  Standing -> World -> Prop

/-- What can happen around a piece of work, and what is asked of it. -/
structure Setting where
  /-- Calls can fail in this way without an effect. -/
  fails : Call -> ServiceError -> Prop
  /-- Other work can lead from the first world to the second. -/
  between : Standing -> World -> World -> Prop
  /-- This holds whenever the piece of work does something. -/
  inv : World -> Prop
  /-- The piece of work may make this call. -/
  allowed : Standing -> Call -> World -> Prop
  /-- These identifiers can be what the piece of work has drawn. -/
  drawable : List Uuid -> Prop

namespace Saga

/-- In the setting the saga makes allowed calls only, takes one lock at a time and
only when it is detached, and ends in the postcondition. -/
def Meets {α : Type} (S : Setting) (post : α -> Assertion) : Saga α -> Assertion
  | .done a, st, w => post a st w
  | .call c next, st, w =>
      forall v, S.between st w v -> S.inv v ->
        S.allowed st c v ∧
          (forall e, S.fails c e -> Meets S post (next (.error e)) st v) ∧
          Meets S post (next (c.perform v).1) st (c.perform v).2
  | .acquire id next, st, w =>
      st.locks = [] ∧ st.detached = true ∧
        forall v, S.between st w v -> S.inv v ->
          (v.locks.acquire? id = none -> Meets S post (next false) st v) ∧
          (forall locks, v.locks.acquire? id = some locks ->
            Meets S post (next true) { st with locks := [id] } { v with locks })
  | .release id next, st, w =>
      st.locks = [id] ∧
        forall v, S.between st w v -> S.inv v ->
          Meets S post next { st with locks := [] }
            { v with locks := v.locks.release id }
  | .isHeld id next, st, w =>
      forall v, S.between st w v -> S.inv v ->
        Meets S post (next (v.locks.isHeld id)) st v
  | .draw next, st, w =>
      forall v, S.between st w v -> S.inv v ->
        S.drawable (st.drawn ++ [v.ids.next.1]) ->
          Meets S post (next v.ids.next.1)
            { st with drawn := st.drawn ++ [v.ids.next.1] } { v with ids := v.ids.next.2 }
  | .detach next, st, w =>
      forall v, S.between st w v -> S.inv v ->
        Meets S post next { st with detached := true } v

variable {α β : Type} {S : Setting}

theorem Meets.mono {post post' : α -> Assertion} {s : Saga α} {st : Standing} {w : World}
    (h : s.Meets S post st w) (hpost : forall a st w, post a st w -> post' a st w) :
    s.Meets S post' st w := by
  induction s generalizing st w with
  | done a => exact hpost a st w h
  | call c next ih =>
      intro v hv hinv
      rcases h v hv hinv with ⟨hallowed, hfails, hdone⟩
      exact ⟨hallowed, fun e he => ih _ (hfails e he), ih _ hdone⟩
  | acquire id next ih =>
      rcases h with ⟨hlocks, hdetached, hnext⟩
      refine ⟨hlocks, hdetached, ?_⟩
      intro v hv hinv
      rcases hnext v hv hinv with ⟨hbusy, hfree⟩
      exact ⟨fun hheld => ih _ (hbusy hheld), fun locks hl => ih _ (hfree locks hl)⟩
  | release id next ih => exact ⟨h.1, fun v hv hinv => ih (h.2 v hv hinv)⟩
  | isHeld id next ih => exact fun v hv hinv => ih _ (h v hv hinv)
  | draw next ih => exact fun v hv hinv hd => ih _ (h v hv hinv hd)
  | detach next ih => exact fun v hv hinv => ih (h v hv hinv)

theorem Meets.detached {post : α -> Assertion} {s : Saga α} {st : Standing} {w : World}
    (h : s.Meets S post st w) (hst : st.detached = true) :
    s.Meets S (fun a st w => post a st w ∧ st.detached = true) st w := by
  induction s generalizing st w with
  | done a => exact ⟨h, hst⟩
  | call c next ih =>
      intro v hv hinv
      rcases h v hv hinv with ⟨hallowed, hfails, hdone⟩
      exact ⟨hallowed, fun e he => ih _ (hfails e he) hst, ih _ hdone hst⟩
  | acquire id next ih =>
      rcases h with ⟨hlocks, hdetached, hnext⟩
      refine ⟨hlocks, hdetached, ?_⟩
      intro v hv hinv
      rcases hnext v hv hinv with ⟨hbusy, hfree⟩
      exact ⟨fun hheld => ih _ (hbusy hheld) hst,
        fun locks hl => ih _ (hfree locks hl) hst⟩
  | release id next ih => exact ⟨h.1, fun v hv hinv => ih (h.2 v hv hinv) hst⟩
  | isHeld id next ih => exact fun v hv hinv => ih _ (h v hv hinv) hst
  | draw next ih => exact fun v hv hinv hd => ih _ (h v hv hinv hd) hst
  | detach next ih => exact fun v hv hinv => ih (h v hv hinv) rfl

theorem Meets.bind {post : β -> Assertion} {s : Saga α} {f : α -> Saga β} {st : Standing}
    {w : World} (h : s.Meets S (fun a => (f a).Meets S post) st w) :
    (s.bind f).Meets S post st w := by
  induction s generalizing st w with
  | done a => exact h
  | call c next ih =>
      intro v hv hinv
      rcases h v hv hinv with ⟨hallowed, hfails, hdone⟩
      exact ⟨hallowed, fun e he => ih _ (hfails e he), ih _ hdone⟩
  | acquire id next ih =>
      rcases h with ⟨hlocks, hdetached, hnext⟩
      refine ⟨hlocks, hdetached, ?_⟩
      intro v hv hinv
      rcases hnext v hv hinv with ⟨hbusy, hfree⟩
      exact ⟨fun hheld => ih _ (hbusy hheld), fun locks hl => ih _ (hfree locks hl)⟩
  | release id next ih => exact ⟨h.1, fun v hv hinv => ih (h.2 v hv hinv)⟩
  | isHeld id next ih => exact fun v hv hinv => ih _ (h v hv hinv)
  | draw next ih => exact fun v hv hinv hd => ih _ (h v hv hinv hd)
  | detach next ih => exact fun v hv hinv => ih (h v hv hinv)

/-- What a saga meets it still meets after other work has gone on, if that can be
said of its end. -/
theorem Meets.later {post : α -> Assertion} {s : Saga α} {st : Standing} {w v : World}
    (htrans : forall st w v u, S.between st w v -> S.between st v u -> S.between st w u)
    (hpost : forall a st w v, post a st w -> S.between st w v -> post a st v)
    (h : s.Meets S post st w) (hv : S.between st w v) : s.Meets S post st v := by
  cases s with
  | done a => exact hpost a st w v h hv
  | call c next => exact fun u hu hinv => h u (htrans st w v u hv hu) hinv
  | acquire id next =>
      exact ⟨h.1, h.2.1, fun u hu hinv => h.2.2 u (htrans st w v u hv hu) hinv⟩
  | release id next => exact ⟨h.1, fun u hu hinv => h.2 u (htrans st w v u hv hu) hinv⟩
  | isHeld id next => exact fun u hu hinv => h u (htrans st w v u hv hu) hinv
  | draw next => exact fun u hu hinv => h u (htrans st w v u hv hu) hinv
  | detach next => exact fun u hu hinv => h u (htrans st w v u hv hu) hinv

def Triple (S : Setting) (P : Assertion) (s : Saga α) (Q : α -> Assertion) : Prop :=
  forall st w, P st w -> s.Meets S Q st w

theorem Triple.bind {P : Assertion} {Q : α -> Assertion} {R : β -> Assertion} {s : Saga α}
    {f : α -> Saga β} (hs : s.Triple S P Q) (hf : forall a, (f a).Triple S (Q a) R) :
    (s.bind f).Triple S P R := by
  intro st w hP
  exact ((hs st w hP).mono fun a st w hQ => hf a st w hQ).bind

theorem Triple.consequence {P P' : Assertion} {Q Q' : α -> Assertion} {s : Saga α}
    (hs : s.Triple S P Q) (hP : forall st w, P' st w -> P st w)
    (hQ : forall a st w, Q a st w -> Q' a st w) : s.Triple S P' Q' := by
  intro st w hP'
  exact (hs st w (hP st w hP')).mono hQ

end Saga

def Setting.Stable (S : Setting) (P : Assertion) : Prop :=
  forall st w v, P st w -> S.between st w v -> P st v

/-!
# Operations

An operation ends in one of two assertions, the second one for its failures.
-/

namespace Operation

def ends {α : Type} (Q : α -> Assertion) (E : TriggerError -> Assertion) :
    Except TriggerError α -> Assertion
  | .ok a => Q a
  | .error e => E e

/-- Started in the first assertion, the operation ends in the second or, if it fails, in
the third. -/
structure Triple {α : Type} (S : Setting) (P : Assertion) (op : Operation α)
    (Q : α -> Assertion) (E : TriggerError -> Assertion) : Prop where
  meets : Saga.Triple S P op.run (ends Q E)

namespace Triple

variable {α β : Type} {S : Setting} {P P' : Assertion} {Q Q' : α -> Assertion}
  {R : β -> Assertion} {E E' : TriggerError -> Assertion}

theorem consequence {op : Operation α} (h : Triple S P op Q E)
    (hP : forall st w, P' st w -> P st w) (hQ : forall a st w, Q a st w -> Q' a st w)
    (hE : forall e st w, E e st w -> E' e st w) : Triple S P' op Q' E' := by
  constructor
  apply h.meets.consequence hP
  intro r st w hr
  cases r with
  | ok a => exact hQ a st w hr
  | error e => exact hE e st w hr

theorem pre {op : Operation α} (h : Triple S P op Q E)
    (hP : forall st w, P' st w -> P st w) : Triple S P' op Q E :=
  h.consequence hP (fun _ _ _ hQ => hQ) fun _ _ _ hE => hE

theorem post {op : Operation α} (h : Triple S P op Q E)
    (hQ : forall a st w, Q a st w -> Q' a st w) : Triple S P op Q' E :=
  h.consequence (fun _ _ hP => hP) hQ fun _ _ _ hE => hE

theorem bind {op : Operation α} {f : α -> Operation β} (h : Triple S P op Q E)
    (hf : forall a, Triple S (Q a) (f a) R E) : Triple S P (op >>= f) R E := by
  constructor
  apply h.meets.bind
  intro r
  cases r with
  | ok a => exact (hf a).meets
  | error e => exact fun st w hE => hE

theorem pure {a : α} (h : forall st w, P st w -> Q a st w) :
    Triple S P (Pure.pure a) Q E :=
  ⟨h⟩

theorem fail {e : TriggerError} (h : forall st w, P st w -> E e st w) :
    Triple S P (Operation.fail e) Q E :=
  ⟨h⟩

theorem ofExcept {result : Except TriggerError α}
    (hok : forall a, result = .ok a -> forall st w, P st w -> Q a st w)
    (herror : forall e, result = .error e -> forall st w, P st w -> E e st w) :
    Triple S P (Operation.ofExcept result) Q E := by
  cases result with
  | ok a => exact ⟨hok a rfl⟩
  | error e => exact ⟨herror e rfl⟩

theorem orFail {value : Option α} {e : TriggerError}
    (hsome : forall a, value = some a -> forall st w, P st w -> Q a st w)
    (hnone : value = none -> forall st w, P st w -> E e st w) :
    Triple S P (Operation.orFail value e) Q E := by
  cases value with
  | some a => exact ⟨hsome a rfl⟩
  | none => exact ⟨hnone rfl⟩

theorem ofSaga {s : Saga α} (h : s.Triple S P Q) :
    Triple S P (Operation.ofSaga s) Q E :=
  ⟨h.bind fun _ _ _ hQ => hQ⟩

theorem adapt {op : Operation α} {f : TriggerError -> TriggerError}
    (h : Triple S P op Q fun e => E (f e)) : Triple S P (op.adapt f) Q E := by
  constructor
  apply h.meets.bind
  intro r
  cases r with
  | ok a => exact fun st w hQ => hQ
  | error e => exact fun st w hE => hE

theorem given {fact : Prop} {op : Operation α} (h : fact -> Triple S P op Q E) :
    Triple S (fun st w => P st w ∧ fact) op Q E := by
  constructor
  intro st w h
  rcases h with ⟨hP, hfact⟩
  exact (h hfact).meets st w hP

theorem bind_given {fact : α -> Prop} {op : Operation α} {f : α -> Operation β}
    (h : Triple S P op (fun a st w => Q a st w ∧ fact a) E)
    (hf : forall a, fact a -> Triple S (Q a) (f a) R E) : Triple S P (op >>= f) R E :=
  bind h fun a => given (hf a)

/-!
# Calls and identifiers

The precondition has to be stable, since other work can come before the call.
-/

theorem ask {c : Call} {Q : c.Reply -> Assertion} (hP : S.Stable P)
    (hallowed : forall st w, P st w -> S.inv w -> S.allowed st c w)
    (hfails : forall st w e, P st w -> S.fails c e -> E (c.service.failure e) st w)
    (hok : forall st w r v, P st w -> S.inv w -> c.perform w = (.ok r, v) -> Q r st v)
    (herror : forall st w e v, P st w -> S.inv w -> c.perform w = (.error e, v) ->
      E (c.service.failure e) st v) :
    Triple S P (Operation.ask c) Q E := by
  constructor
  intro st w h v hv hinv
  have hv := hP st w v h hv
  refine ⟨hallowed st v hv hinv, fun e he => hfails st v e hv he, ?_⟩
  cases hperform : c.perform v with
  | mk reply u =>
      cases reply with
      | ok r => exact hok st v r u hv hinv hperform
      | error e => exact herror st v e u hv hinv hperform

theorem ensureGone {c : Call} {Q : Unit -> Assertion} (hP : S.Stable P)
    (hallowed : forall st w, P st w -> S.inv w -> S.allowed st c w)
    (hfails : forall st w e, P st w -> S.fails c e ->
      ends Q E (if e.isAbsence then .ok () else .error (c.service.failure e)) st w)
    (hok : forall st w r v, P st w -> S.inv w -> c.perform w = (.ok r, v) -> Q () st v)
    (herror : forall st w e v, P st w -> S.inv w -> c.perform w = (.error e, v) ->
      ends Q E (if e.isAbsence then .ok () else .error (c.service.failure e)) st v) :
    Triple S P (Operation.ensureGone c) Q E := by
  have hend : forall e st w,
      ends Q E (if e.isAbsence then .ok () else .error (c.service.failure e)) st w ->
        Saga.Meets S (ends Q E)
          (if e.isAbsence then .done (.ok ()) else .done (.error (c.service.failure e)))
          st w := by
    intro e st w h
    cases hgone : e.isAbsence with
    | true =>
        rw [hgone] at h
        exact h
    | false =>
        rw [hgone] at h
        exact h
  constructor
  intro st w h v hv hinv
  have hv := hP st w v h hv
  refine ⟨hallowed st v hv hinv, fun e he => hend e st v (hfails st v e hv he), ?_⟩
  cases hperform : c.perform v with
  | mk reply u =>
      cases reply with
      | ok r => exact hok st v r u hv hinv hperform
      | error e => exact hend e st u (herror st v e u hv hinv hperform)

theorem fresh {Q : Uuid -> Assertion} (hP : S.Stable P)
    (h : forall st w, P st w -> S.inv w -> S.drawable (st.drawn ++ [w.ids.next.1]) ->
      Q w.ids.next.1 { st with drawn := st.drawn ++ [w.ids.next.1] }
        { w with ids := w.ids.next.2 }) :
    Triple S P Operation.fresh Q E := by
  constructor
  intro st w hw v hv hinv hdrawable
  exact h st v (hP st w v hw hv) hinv hdrawable

theorem detached {D : Assertion} {op : Operation α} (hP : S.Stable P)
    (h : Triple S D op Q E)
    (hdetach : forall st w, P st w -> S.inv w -> D { st with detached := true } w) :
    Triple S P (Operation.detached op) Q E := by
  constructor
  intro st w hw v hv hinv
  exact h.meets _ v (hdetach st v (hP st w v hw hv) hinv)

/-!
# Work under a lock
-/

theorem locked {id : TriggerId} {op : Operation α} (hP : S.Stable P)
    (hfree : forall st w, P st w -> st.locks = [] ∧ st.detached = true)
    (hbusy : forall st w, P st w -> E (.conflict id.text) st w)
    (hacquire : forall st w locks, P st w -> S.inv w -> w.locks.acquire? id = some locks ->
      P' { st with locks := [id] } { w with locks })
    (hop : Triple S P' op Q' E')
    (hQ' : forall a, S.Stable (Q' a)) (hE' : forall e, S.Stable (E' e))
    (hQlocks : forall a st w, Q' a st w -> st.locks = [id])
    (hElocks : forall e st w, E' e st w -> st.locks = [id])
    (hQ : forall a st w, Q' a st w -> S.inv w ->
      Q a { st with locks := [] } { w with locks := w.locks.release id })
    (hE : forall e st w, E' e st w -> S.inv w ->
      E e { st with locks := [] } { w with locks := w.locks.release id }) :
    Triple S P (Operation.locked id op) Q E := by
  constructor
  intro st w hw
  rcases hfree st w hw with ⟨hlocks, hdetached⟩
  refine ⟨hlocks, hdetached, ?_⟩
  intro v hv hinv
  have hv := hP st w v hw hv
  constructor
  · intro _
    exact hbusy st v hv
  · intro locks hacquired
    apply Saga.Meets.bind
    refine Saga.Meets.mono (hop.meets _ _ (hacquire st v locks hv hinv hacquired)) ?_
    intro r st w hr
    cases r with
    | ok a =>
        refine ⟨hQlocks a st w hr, ?_⟩
        intro v hv hinv
        exact hQ a st v (hQ' a st w v hr hv) hinv
    | error e =>
        refine ⟨hElocks e st w hr, ?_⟩
        intro v hv hinv
        exact hE e st v (hE' e st w v hr hv) hinv

/-!
# Taking back
-/

theorem orUndo {undos : List Undo} {op : Operation α} (h : Triple S P op Q E')
    (hundo : forall e, Saga.Triple S (E' e) (unwind undos) fun _ => E e) :
    Triple S P (op.orUndo undos) Q E := by
  constructor
  apply h.meets.bind
  intro r
  cases r with
  | ok a => exact fun st w hQ => hQ
  | error e => exact Saga.Triple.bind (hundo e) fun _ st w hE => hE

end Triple
end Operation

theorem unwind_triple {S : Setting} {P : List Undo -> Assertion} {undos : List Undo}
    (hP : forall undos, S.Stable (P undos))
    (hallowed : forall undo undos st w, P (undo :: undos) st w -> S.inv w ->
      S.allowed st undo.toCall w)
    (hfails : forall undo undos st w e, P (undo :: undos) st w -> S.inv w ->
      S.fails undo.toCall e -> P undos st w)
    (hdone : forall undo undos st w, P (undo :: undos) st w -> S.inv w ->
      P undos st (undo.toCall.perform w).2) :
    Saga.Triple S (P undos) (unwind undos) fun _ => P [] := by
  induction undos with
  | nil => exact fun st w h => h
  | cons undo undos ih =>
      intro st w h v hv hinv
      have hv := hP _ st w v h hv
      have hrest : forall st w failures, P undos st w ->
          Saga.Meets S (fun _ => P [])
            ((unwind undos).bind fun n => .done (n + failures)) st w := by
        intro st w failures hw
        exact Saga.Meets.bind ((ih st w hw).mono fun _ st w h => h)
      refine ⟨hallowed undo undos st v hv hinv, ?_, ?_⟩
      · intro e he
        exact hrest st v _ (hfails undo undos st v e hv hinv he)
      · exact hrest st _ _ (hdone undo undos st v hv hinv)

end TelemetryTriggers
