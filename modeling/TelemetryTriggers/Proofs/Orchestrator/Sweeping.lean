import TelemetryTriggers.Proofs.Orchestrator.Operations

/-!
# Sweeps keep the order

A sweep visits its candidates one after the other.  Under the lock of a candidate's
trigger it looks at the row again, and the row stays what it is then.  So what it
removes belongs to a trigger that is not provisioned, however old the listings are.
-/

namespace TelemetryTriggers

section Sweep

variable {fails : Call -> ServiceError -> Prop} {config : Config} {H : History}
  {id : TriggerId}

theorem removable_of_draft {undo : Undo} (hundo : undo.Concerns config.naming H id) :
    Removable config H .recover id (·.isProvisioned = false) undo where
  concerns _ := hundo
  spares := by
    intro _ t _ hdraft hprovisioned
    cases hdraft.symm.trans hprovisioned

def Candidate.Orderly (fails : Call -> ServiceError -> Prop) (config : Config) (H : History)
    (c : Candidate) : Prop :=
  Operation.Triple ((order config H).setting fails .recover)
    (Holding c.trigger (·.isProvisioned = false)) c.removal
    (fun _ => Holding c.trigger (·.isProvisioned = false))
    fun _ => Holding c.trigger (·.isProvisioned = false)

def Roaming : Assertion :=
  fun st _ => st.locks = [] ∧ st.detached = true

theorem stable_roaming : ((order config H).setting fails .recover).Stable Roaming :=
  fun _ _ _ h _ => h

/-!
# One visit
-/

theorem meets_release {st : Standing} {w : World} {visit : Visit} (hlocks : st.locks = [id])
    (hdetached : st.detached = true) :
    Saga.Meets ((order config H).setting fails .recover) (fun _ => Roaming)
      (.release id (.done visit)) st w :=
  ⟨hlocks, fun _ _ _ => ⟨rfl, hdetached⟩⟩

theorem visit_order (hknown : H .recover []) {c : Candidate}
    (hc : c.Orderly fails config H) :
    Saga.Triple ((order config H).setting fails .recover) Roaming c.visit
      fun _ => Roaming := by
  intro st w h
  rcases h with ⟨hlocks, hdetached⟩
  refine ⟨hlocks, hdetached, ?_⟩
  intro v _ _
  constructor
  · exact fun _ => ⟨hlocks, hdetached⟩
  intro locks _ u _ hu
  refine ⟨⟨hknown, Or.inl trivial⟩, fun e _ => meets_release rfl hdetached, ?_⟩
  show Saga.Meets _ _
    (if Option.any Trigger.isProvisioned (u.store.trigger? c.trigger) then _ else _) _ u
  split
  · exact meets_release rfl hdetached
  · rename_i hfree
    -- the row was looked up under the lock, so it stays what it was found to be
    have hdraft : forall t, t ∈ u.store.triggers -> t.id = c.trigger ->
        t.isProvisioned = false := by
      intro t ht hid
      rw [← hid, hu.integrity.store.trigger?_eq_some ht] at hfree
      simpa using hfree
    apply Saga.Meets.bind
    have hremoval := hc.meets { st with locks := [c.trigger] } u ⟨rfl, hdraft⟩
    apply Saga.Meets.mono (hremoval.detached hdetached)
    intro r st w h
    rcases h with ⟨hend, hdetached⟩
    cases r with
    | ok _ => exact meets_release hend.1 hdetached
    | error _ => exact meets_release hend.1 hdetached

theorem visitAll_order (hknown : H .recover []) {cs : List Candidate}
    (hcs : forall c, c ∈ cs -> c.Orderly fails config H) :
    Saga.Triple ((order config H).setting fails .recover) Roaming (visitAll cs)
      fun _ => Roaming := by
  induction cs with
  | nil => exact fun st w h => h
  | cons c cs ih =>
      have hrest := ih fun other hother => hcs other (List.mem_cons_of_mem _ hother)
      apply Saga.Triple.bind (visit_order hknown (hcs c List.mem_cons_self))
      exact fun _ => Saga.Triple.bind hrest fun _ st w h => h

/-!
# The candidates
-/

theorem purgeTargets_draft (hknown : H .recover []) {targets : List Target}
    (htargets : forall r, r ∈ targets -> r.BelongsTo config.naming H id) :
    Operation.Triple ((order config H).setting fails .recover)
      (Holding id (·.isProvisioned = false)) (purgeTargets targets)
      (fun _ => Holding id (·.isProvisioned = false))
      fun _ => Holding id (·.isProvisioned = false) := by
  induction targets with
  | nil => exact Operation.Triple.pure fun st w h => h
  | cons target targets ih =>
      have htarget := htargets target List.mem_cons_self
      apply Operation.Triple.bind (ensureGone_holding hknown
        (removable_of_draft (Undo.concerns_unsubscribe htarget)))
      intro _
      apply Operation.Triple.bind (ensureGone_holding hknown
        (removable_of_draft (Undo.concerns_deleteTarget htarget)))
      exact fun _ => ih fun r hr => htargets r (List.mem_cons_of_mem _ hr)

theorem purgeDraft_order (hknown : H .recover []) :
    Operation.Triple ((order config H).setting fails .recover)
      (Holding id (·.isProvisioned = false)) (purgeDraft id)
      (fun _ => Holding id (·.isProvisioned = false))
      fun _ => Holding id (·.isProvisioned = false) := by
  rw [purgeDraft]
  apply Operation.Triple.bind_given (listTargets_read hknown stable_holding)
  intro targets htargets
  apply Operation.Triple.bind (purgeTargets_draft hknown htargets)
  intro _
  have hrow : Removable config H .recover id (·.isProvisioned = false) (.deleteTrigger id) :=
    removable_of_draft rfl
  exact ensureGone_holding hknown hrow

theorem orderly_ofRow? (hknown : H .recover []) {row : Trigger} {c : Candidate}
    (hc : Candidate.ofRow? row = some c) : c.Orderly fails config H := by
  unfold Candidate.ofRow? at hc
  split at hc
  · cases hc
  · cases hc
    exact purgeDraft_order hknown

theorem orderly_ofRule? (hknown : H .recover []) {provisioned : List TriggerId}
    {info : RuleInfo} {c : Candidate}
    (hhandle : info.handle = RuleEngine.handleFor info.name)
    (hc : Candidate.ofRule? config.naming provisioned info = some c) :
    c.Orderly fails config H := by
  unfold Candidate.ofRule? at hc
  split at hc
  · cases hc
  · rename_i id hid
    split at hc
    · cases hc
    · cases hc
      have hrule : Removable config H .recover id (·.isProvisioned = false)
          (.removeRule info.handle) :=
        removable_of_draft ⟨info.name, hhandle, hid⟩
      exact ensureGone_holding hknown hrule

theorem orderly_ofTopic? (hknown : H .recover []) {provisioned : List TriggerId}
    {t : Topic} {c : Candidate} (hhandle : t.handle = Broker.handleFor t.name)
    (hc : Candidate.ofTopic? config.naming provisioned t = some c) :
    c.Orderly fails config H := by
  unfold Candidate.ofTopic? at hc
  split at hc
  · cases hc
  · rename_i id hid
    split at hc
    · cases hc
    · cases hc
      have htopic : Removable config H .recover id (·.isProvisioned = false)
          (.deleteTopic t.handle) :=
        removable_of_draft (concerns_deleteTopic hhandle hid)
      exact ensureGone_holding hknown htopic

/-!
# The whole sweep
-/

theorem sweep_order (hknown : H .recover []) :
    Operation.Triple ((order config H).setting fails .recover) Roaming
      (sweep config.naming) (fun _ => Roaming) fun _ => Roaming := by
  rw [sweep]
  apply Operation.Triple.bind (Q := fun _ => Roaming)
  · apply Operation.Triple.read (c := .listAllTriggers) trivial hknown stable_roaming
    · exact fun st w rows h _ _ => h
    · exact fun _ st w h => h
  intro rows
  apply Operation.Triple.bind (Q := fun _ => Roaming)
  · apply Operation.Triple.ofSaga
    apply visitAll_order hknown
    intro c hc
    rcases List.mem_filterMap.mp hc with ⟨row, _, hrow⟩
    exact orderly_ofRow? hknown hrow
  intro drafts
  apply Operation.Triple.bind_given
    ((keeps_reads hknown stable_roaming).listRules (fun _ hw => hw.integrity) trivial)
  intro rules hrules
  apply Operation.Triple.bind (Q := fun _ => Roaming)
  · apply Operation.Triple.ofSaga
    apply visitAll_order hknown
    intro c hc
    rcases List.mem_filterMap.mp hc with ⟨info, hinfo, hrule⟩
    exact orderly_ofRule? hknown (hrules info hinfo) hrule
  intro visits
  apply Operation.Triple.bind_given
    ((keeps_reads hknown stable_roaming).listTopics (fun _ hw => hw.integrity) trivial)
  intro topics htopics
  apply Operation.Triple.bind (Q := fun _ => Roaming)
  · apply Operation.Triple.ofSaga
    apply visitAll_order hknown
    intro c hc
    rcases List.mem_filterMap.mp hc with ⟨t, ht, htopic⟩
    exact orderly_ofTopic? hknown (htopics t ht) htopic
  exact fun _ => Operation.Triple.pure fun st w h => h

theorem recover_order (hknown : H .recover []) :
    Operation.Triple ((order config H).setting fails .recover) Unlocked (recover config)
      (fun _ => Unlocked) fun _ => Unlocked := by
  apply Operation.Triple.detached (D := Roaming) stable_unlocked
  · apply (sweep_order hknown).consequence
    · exact fun st w h => h
    · exact fun _ st w h => h.1
    · exact fun _ st w h => h.1
  · exact fun st w h _ => ⟨h, rfl⟩

end Sweep
end TelemetryTriggers
