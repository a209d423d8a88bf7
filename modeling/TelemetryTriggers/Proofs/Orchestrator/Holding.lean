import TelemetryTriggers.Proofs.Orchestrator.Provisioned
import TelemetryTriggers.Proofs.Saga.Keep
import TelemetryTriggers.Proofs.Saga.Undo

/-!
# Work under a lock

An operation that holds the lock of a trigger can rely on what it knows about the row
of the trigger.  The removals that it makes are of things that it knows to belong to
the trigger.

Main definitions: `Holding`; `Undo.Concerns`, what belongs to a trigger as far as an
operation can know.  The rules below are those of `Operation.Triple` in the setting of
the discipline.
-/

namespace TelemetryTriggers

def Holding (id : TriggerId) (R : Trigger -> Prop) : Assertion :=
  fun st w => st.locks = [id] ∧ forall t, t ∈ w.store.triggers -> t.id = id -> R t

def Locked (id : TriggerId) : Assertion :=
  fun st _ => st.locks = [id]

def Unlocked : Assertion :=
  fun st _ => st.locks = []

/-!
# Removals
-/

namespace Undo

def Concerns (naming : ResourceNaming) (H : History) (id : TriggerId) : Undo -> Prop
  | deleteTrigger other => other = id
  | deleteTarget target => H.Issued id target.uuid
  | deleteTopic topic => naming.triggerForHandle? topic = some id
  | unsubscribe handle => exists topic u,
      handle = Broker.subscriptionHandle topic u ∧ naming.triggerForHandle? topic = some id
  | removeRule handle => exists name,
      handle = RuleEngine.handleFor name ∧ naming.triggerForRule? name = some id

variable {config : Config} {H : History} {request : Request} {id : TriggerId} {undo : Undo}
  {w : World}

theorem Concerns.about (h : undo.Concerns config.naming H id) (hw : w.Sound config H)
    (hdistinct : undo.toCall.OnTargets -> H.Distinct) :
    undo.toCall.About config.naming id w := by
  cases undo with
  | deleteTrigger other => exact h
  | deleteTarget target =>
      intro r hr heq
      rcases heq with rfl
      exact hdistinct trivial _ _ _ (hw.targets r hr).issued h
  | deleteTopic topic => exact h
  | unsubscribe handle =>
      rcases h with ⟨topic, u, hhandle, hid⟩
      intro s hs hsame
      rw [hw.integrity.broker.topic_of_suffixed hs (hsame.trans hhandle)]
      exact hid
  | removeRule handle =>
      rcases h with ⟨name, hhandle, hid⟩
      intro r hr hsame
      have hname : r.name = name := by
        apply RuleEngine.handleFor_injective
        rw [← hw.integrity.engine.named r hr, hsame, hhandle]
      rw [hname]
      exact hid

theorem concerns_deleteTarget {naming : ResourceNaming} {r : Target}
    (h : r.BelongsTo naming H id) : (deleteTarget r.id).Concerns naming H id :=
  h.issued

theorem concerns_unsubscribe {naming : ResourceNaming} {r : Target}
    (h : r.BelongsTo naming H id) : (unsubscribe r.subscription).Concerns naming H id := by
  rcases h.suffixed with ⟨u, hsubscription⟩
  exact ⟨_, u, hsubscription, naming.triggerForHandle?_topicHandle id⟩

theorem permitted (hw : w.Sound config H)
    (hconcerns : H.Distinct ∨ ¬ undo.toCall.OnTargets -> undo.Concerns config.naming H id)
    (hspares : request = .recover ∨ undo.toCall.Strips -> forall t, t ∈ w.store.triggers ->
      t.id = id -> t.isProvisioned = true -> request = .delete t.user t.id) :
    undo.toCall.Permitted config H request id w where
  about hknown := by
    apply (hconcerns hknown).about hw
    intro honTargets
    rcases hknown with hdistinct | hnot
    · exact hdistinct
    · exact absurd honTargets hnot
  fits := by
    cases undo with
    | _ => trivial
  spares := hspares

end Undo

/-!
# Rules
-/

section Rules

variable {fails : Call -> ServiceError -> Prop} {config : Config} {H : History}
  {request : Request} {id : TriggerId} {R : Trigger -> Prop}

theorem stable_holding :
    ((order config H).setting fails request).Stable (Holding id R) := by
  intro st w v h hv
  rcases h with ⟨hlocks, hrow⟩
  refine ⟨hlocks, ?_⟩
  intro t ht hid
  have hmine : id ∈ st.locks := by simp [hlocks]
  exact hrow t ((hv id hmine (.trigger t) trivial (congrArg some hid)).mp ht) hid

theorem stable_locked {S : Setting} : S.Stable (Locked id) :=
  fun _ _ _ hlocks _ => hlocks

theorem stable_unlocked {S : Setting} : S.Stable Unlocked :=
  fun _ _ _ hlocks _ => hlocks

namespace Operation.Triple

variable {P : Assertion} {E : TriggerError -> Assertion}

theorem read {c : Call} {Q : c.Reply -> Assertion} (hc : c.Reads) (hknown : H request [])
    (hP : ((order config H).setting fails request).Stable P)
    (hok : forall st w r, P st w -> w.Sound config H -> (c.perform w).1 = .ok r -> Q r st w)
    (herror : forall e st w, P st w -> E e st w) :
    Triple ((order config H).setting fails request) P (Operation.ask c) Q E := by
  apply ask hP
  · exact fun st w _ _ => ⟨hknown, Or.inl hc⟩
  · exact fun st w e h _ => herror _ st w h
  · intro st w r v h hw hperform
    have hv : v = w := by
      rw [← hc.perform_eq w, hperform]
    rw [hv]
    exact hok st w r h hw (congrArg Prod.fst hperform)
  · intro st w e v h _ hperform
    rw [Call.perform_error hperform]
    exact herror _ st w h

theorem change {c : Call} {Q : c.Reply -> Assertion} (hknown : H request [])
    (hP : ((order config H).setting fails request).Stable P)
    (hlocks : forall st w, P st w -> st.locks = [id])
    (hpermitted : forall st w, P st w -> w.Sound config H ->
      c.Permitted config H request id w)
    (hok : forall st w r v, P st w -> w.Sound config H -> c.perform w = (.ok r, v) ->
      Q r st v)
    (herror : forall e st w, P st w -> E e st w) :
    Triple ((order config H).setting fails request) P (Operation.ask c) Q E := by
  apply ask hP
  · exact fun st w h hw => ⟨hknown, Or.inr ⟨id, hlocks st w h, hpermitted st w h hw⟩⟩
  · exact fun st w e h _ => herror _ st w h
  · exact hok
  · intro st w e v h _ hperform
    rw [Call.perform_error hperform]
    exact herror _ st w h

end Operation.Triple

theorem Holding.perform_undo {undo : Undo} {st : Standing} {w : World}
    (h : Holding id R st w) (hw : w.Integrity) :
    Holding id R st (undo.toCall.perform w).2 := by
  refine ⟨h.1, ?_⟩
  intro t ht hid
  have hitem : (undo.toCall.perform w).2.Holds (.trigger t) := ht
  exact h.2 t (Undo.holds_of_perform hw hitem) hid

structure Removable (config : Config) (H : History) (request : Request) (id : TriggerId)
    (R : Trigger -> Prop) (undo : Undo) : Prop where
  concerns : H.Distinct ∨ ¬ undo.toCall.OnTargets -> undo.Concerns config.naming H id
  spares : request = .recover ∨ undo.toCall.Strips -> forall t, t.id = id -> R t ->
    t.isProvisioned = true -> request = .delete t.user t.id

theorem Holding.permitted {undo : Undo} {st : Standing} {w : World} (h : Holding id R st w)
    (hw : w.Sound config H) (hundo : Removable config H request id R undo) :
    undo.toCall.Permitted config H request id w := by
  apply Undo.permitted hw hundo.concerns
  intro hneeded t ht hid hprovisioned
  exact hundo.spares hneeded t hid (h.2 t ht hid) hprovisioned

theorem keeps_holding (hknown : H request []) :
    ((order config H).setting fails request).Keeps (Holding id R) fun c => c.Reads ∨
      exists undo : Undo, c = undo.toCall ∧ Removable config H request id R undo where
  stable := stable_holding
  allowed := by
    intro c st w hc h hw
    rcases hc with hreads | ⟨undo, rfl, hundo⟩
    · exact ⟨hknown, Or.inl hreads⟩
    · exact ⟨hknown, Or.inr ⟨id, h.1, h.permitted hw hundo⟩⟩
  perform := by
    intro c st w hc h hw
    rcases hc with hreads | ⟨undo, rfl, _⟩
    · rw [hreads.perform_eq]
      exact h
    · exact h.perform_undo hw.integrity

theorem ensureGone_holding {undo : Undo} (hknown : H request [])
    (hundo : Removable config H request id R undo) :
    Operation.Triple ((order config H).setting fails request) (Holding id R)
      (.ensureGone undo.toCall) (fun _ => Holding id R) fun _ => Holding id R :=
  (keeps_holding hknown).ensureGone (Or.inr ⟨undo, rfl, hundo⟩)

theorem unwind_holding {undos : List Undo} (hknown : H request [])
    (hundos : forall undo, undo ∈ undos -> Removable config H request id R undo) :
    Saga.Triple ((order config H).setting fails request) (Holding id R) (unwind undos)
      fun _ => Holding id R :=
  (keeps_holding hknown).unwind fun undo hundo => Or.inr ⟨undo, rfl, hundos undo hundo⟩

/-!
# Locks
-/

theorem locked_standing {S : Setting} {α : Type} {f : List Uuid -> Prop} {op : Operation α}
    (hop : Operation.Triple S (fun st _ => st.locks = [id] ∧ f st.drawn) op
      (fun _ => Locked id) fun _ => Locked id) :
    Operation.Triple S (fun st _ => (st.locks = [] ∧ st.detached = true) ∧ f st.drawn)
      (Operation.locked id op) (fun _ => Unlocked) fun _ => Unlocked := by
  apply Operation.Triple.locked _ _ _ _ hop
  · exact fun _ => stable_locked
  · exact fun _ => stable_locked
  · exact fun _ st w h => h
  · exact fun _ st w h => h
  · exact fun _ st w _ _ => rfl
  · exact fun _ st w _ _ => rfl
  · exact fun st w v h _ => h
  · exact fun st w h => h.1
  · exact fun st w h => h.1.1
  · exact fun st w locks h _ _ => ⟨rfl, h.2⟩

theorem detached_standing {S : Setting} {α : Type} {op : Operation α}
    (hop : Operation.Triple S (fun st _ => (st.locks = [] ∧ st.detached = true) ∧ True) op
      (fun _ => Unlocked) fun _ => Unlocked) :
    Operation.Triple S Unlocked (Operation.detached op) (fun _ => Unlocked)
      fun _ => Unlocked := by
  apply Operation.Triple.detached stable_unlocked hop
  exact fun st w h _ => ⟨⟨h, rfl⟩, trivial⟩

theorem Operation.Triple.meets_settled {S : Setting} {P : Assertion} {op : Operation Answer}
    (h : Operation.Triple S P op (fun _ => Unlocked) fun _ => Unlocked) {st : Standing}
    {w : World} (hP : P st w) : op.run.Meets S settled st w := by
  apply (h.meets st w hP).mono
  intro r st w h
  cases r with
  | ok answer => exact h
  | error e => exact h

end Rules
end TelemetryTriggers
