import TelemetryTriggers.Proofs.Deployments
import TelemetryTriggers.Proofs.Saga.Alone
import TelemetryTriggers.Proofs.Saga.Keep
import TelemetryTriggers.Proofs.Services.Change
import TelemetryTriggers.Recovery

/-!
# Names that are recognised

A deployment takes a topic or a rule for one of its own if an identifier follows the
beginning of the name, in whichever spelling.  Sweeps and deletions of drafts leave all
other topics and rules alone, whatever the services hold and whichever calls fail.  A
creation uses one spelling only, so a sweep can remove what no creation has made.

Main definition: `World.SparesForeign`.  The main statement is
`ResourceNaming.recognised_by_spelling`.
-/

namespace TelemetryTriggers

namespace ResourceNaming

theorem idAfter?_eq_some_iff {start name : String} {id : TriggerId} :
    idAfter? start name = some id ↔
      exists text : String, name = start ++ text ∧
        text.toList.map Char.toLower ∈ id.uuid.spellings := by
  constructor
  · intro h
    rcases Option.bind_eq_some_iff.mp h with ⟨rest, hrest, hid⟩
    rcases Option.map_eq_some_iff.mp hid with ⟨u, hu, rfl⟩
    refine ⟨String.ofList rest, ?_, ?_⟩
    · rw [← String.toList_inj, String.toList_append, String.toList_ofList]
      exact Text.eq_append_of_stripStart hrest
    · rw [String.toList_ofList]
      exact Uuid.parseChars?_eq_some_iff.mp hu
  · rintro ⟨text, rfl, htext⟩
    exact idAfter?_append (Uuid.parseChars?_eq_some_iff.mpr htext)

end ResourceNaming

/-!
# Calls that spare what is foreign
-/

/-- Every topic and every rule of the first world whose name is not recognised is in the
second one. -/
structure World.SparesForeign (naming : ResourceNaming) (w v : World) : Prop where
  topics : forall t, t ∈ w.broker.topics -> naming.triggerForTopic? t.name = none ->
    t ∈ v.broker.topics
  rules : forall r, r ∈ w.engine.rules -> naming.triggerForRule? r.name = none ->
    r ∈ v.engine.rules

def Call.Spares (naming : ResourceNaming) : Call -> Prop
  | deleteTopic topic => exists name id, topic = Broker.handleFor name ∧
      naming.triggerForTopic? name = some id
  | removeRule rule => exists name id, rule = RuleEngine.handleFor name ∧
      naming.triggerForRule? name = some id
  | _ => True

section Sparing

variable {naming : ResourceNaming} {w : World}

theorem World.SparesForeign.perform {v : World} {c : Call} (h : w.SparesForeign naming v)
    (hv : v.Integrity) (hc : c.Spares naming) : w.SparesForeign naming (c.perform v).2 := by
  constructor
  · intro t ht hforeign
    have hold := h.topics t ht hforeign
    rcases c.topics_perform v with heq | ⟨name, rfl, heq⟩ | ⟨topic, rfl, heq⟩
    · rw [heq]
      exact hold
    · rw [heq]
      exact List.mem_append_left _ hold
    · rw [heq]
      rcases hc with ⟨name, id, rfl, hid⟩
      refine List.mem_filter.mpr ⟨hold, ?_⟩
      rw [bne_iff_ne, hv.broker.named t hold]
      intro hsame
      rw [Broker.handleFor_injective hsame, hid] at hforeign
      cases hforeign
  · intro r hr hforeign
    have hold := h.rules r hr hforeign
    rcases c.rules_perform v with heq | ⟨name, predicate, topic, rfl, heq⟩ | ⟨rule, rfl, heq⟩
    · rw [heq]
      exact hold
    · rw [heq]
      exact List.mem_append_left _ hold
    · rw [heq]
      rcases hc with ⟨name, id, rfl, hid⟩
      refine List.mem_filter.mpr ⟨hold, ?_⟩
      rw [bne_iff_ne, hv.engine.named r hold]
      intro hsame
      rw [RuleEngine.handleFor_injective hsame, hid] at hforeign
      cases hforeign

def Sparing (naming : ResourceNaming) (w : World) (locks : List TriggerId) : Assertion :=
  fun st v => st.locks = locks ∧ st.detached = true ∧ w.SparesForeign naming v

def Setting.anyFault : Setting :=
  .alone (fun _ _ => True) fun _ => True

variable {locks : List TriggerId} {c : Call}

theorem stable_sparing : Setting.anyFault.Stable (Sparing naming w locks) :=
  Setting.alone_stable fun _ _ _ h => ⟨h.1, h.2.1, h.2.2.topics, h.2.2.rules⟩

theorem keeps_sparing : Setting.anyFault.Keeps (Sparing naming w locks) (Call.Spares naming) where
  stable := stable_sparing
  allowed _ _ _ := trivial
  perform hc h hv := ⟨h.1, h.2.1, h.2.2.perform hv hc⟩

/-!
# Sweeps
-/

def Candidate.Sparing (naming : ResourceNaming) (w : World) (c : Candidate) : Prop :=
  forall locks, Operation.Triple .anyFault (TelemetryTriggers.Sparing naming w locks) c.removal
    (fun _ => TelemetryTriggers.Sparing naming w locks)
    fun _ => TelemetryTriggers.Sparing naming w locks

theorem purgeTargets_sparing (targets : List Target) :
    Operation.Triple .anyFault (Sparing naming w locks) (purgeTargets targets)
      (fun _ => Sparing naming w locks) fun _ => Sparing naming w locks := by
  induction targets with
  | nil => exact Operation.Triple.pure fun _ _ h => h
  | cons target targets ih =>
      apply Operation.Triple.bind (keeps_sparing.ensureGone (c := .unsubscribe _) trivial)
      intro _
      apply Operation.Triple.bind (keeps_sparing.ensureGone (c := .deleteTarget _) trivial)
      exact fun _ => ih

theorem sparing_ofRow? {row : Trigger} {c : Candidate}
    (hc : Candidate.ofRow? row = some c) : c.Sparing naming w := by
  unfold Candidate.ofRow? at hc
  split at hc
  · cases hc
  · cases hc
    intro locks
    show Operation.Triple _ _ (purgeDraft row.id) _ _
    rw [purgeDraft]
    apply Operation.Triple.bind (keeps_sparing.ask (c := .listTargets row.id) trivial)
    intro targets
    apply Operation.Triple.bind (purgeTargets_sparing targets)
    exact fun _ => keeps_sparing.ensureGone (c := .deleteTrigger row.id) trivial

theorem sparing_ofRule? {provisioned : List TriggerId} {info : RuleInfo} {c : Candidate}
    (hhandle : info.handle = RuleEngine.handleFor info.name)
    (hc : Candidate.ofRule? naming provisioned info = some c) : c.Sparing naming w := by
  unfold Candidate.ofRule? at hc
  split at hc
  · cases hc
  · next id hid =>
      split at hc
      · cases hc
      · cases hc
        exact fun _ => keeps_sparing.ensureGone ⟨info.name, id, hhandle, hid⟩

theorem sparing_ofTopic? {provisioned : List TriggerId} {t : Topic} {c : Candidate}
    (hhandle : t.handle = Broker.handleFor t.name)
    (hc : Candidate.ofTopic? naming provisioned t = some c) : c.Sparing naming w := by
  unfold Candidate.ofTopic? at hc
  split at hc
  · cases hc
  · next id hid =>
      split at hc
      · cases hc
      · cases hc
        exact fun _ => keeps_sparing.ensureGone ⟨t.name, id, hhandle, hid⟩

theorem visit_sparing {c : Candidate} (hc : c.Sparing naming w) :
    Saga.Triple .anyFault (Sparing naming w []) c.visit fun _ => Sparing naming w [] := by
  intro st v h
  have hrelease : forall (visit : Visit) st v, Sparing naming w [c.trigger] st v ->
      Saga.Meets .anyFault (fun _ : Visit => Sparing naming w [])
        (.release c.trigger (.done visit)) st v := by
    intro visit st v h
    refine ⟨h.1, fun u hu _ => ?_⟩
    have hu := stable_sparing st v u h hu
    exact ⟨rfl, hu.2.1, hu.2.2.topics, hu.2.2.rules⟩
  refine ⟨h.1, h.2.1, fun u hu _ => ?_⟩
  have hu := stable_sparing st v u h hu
  refine ⟨fun _ => hu, fun locks _ => ?_⟩
  have hlocked : Sparing naming w [c.trigger] { st with locks := [c.trigger] }
      { u with locks } := ⟨rfl, hu.2.1, hu.2.2.topics, hu.2.2.rules⟩
  intro v hv hinv
  have hlocked := stable_sparing _ _ v hlocked hv
  refine ⟨trivial, fun _ _ => hrelease _ _ _ hlocked, ?_⟩
  show Saga.Meets _ _ (if Option.any Trigger.isProvisioned (v.store.trigger? c.trigger) then _
    else _) _ v
  split
  · exact hrelease _ _ _ hlocked
  · apply Saga.Meets.bind
    apply ((hc [c.trigger]).meets _ v hlocked).mono
    intro r st v hend
    cases r with
    | ok _ => exact hrelease _ _ _ hend
    | error _ => exact hrelease _ _ _ hend

theorem visitAll_sparing {cs : List Candidate} (hcs : forall c, c ∈ cs -> c.Sparing naming w) :
    Saga.Triple .anyFault (Sparing naming w []) (visitAll cs) fun _ => Sparing naming w [] := by
  induction cs with
  | nil => exact fun _ _ h => h
  | cons c cs ih =>
      have hrest := ih fun d hd => hcs d (List.mem_cons_of_mem c hd)
      apply Saga.Triple.bind (visit_sparing (hcs c List.mem_cons_self))
      exact fun _ => Saga.Triple.bind hrest fun _ _ _ h => h

theorem sweep_sparing :
    Operation.Triple .anyFault (Sparing naming w []) (sweep naming)
      (fun _ => Sparing naming w []) fun _ => Sparing naming w [] := by
  rw [sweep]
  apply Operation.Triple.bind (keeps_sparing.ask (c := .listAllTriggers) trivial)
  intro rows
  apply Operation.Triple.bind (Q := fun _ => Sparing naming w [])
  · apply Operation.Triple.ofSaga
    apply visitAll_sparing
    intro c hc
    rcases List.mem_filterMap.mp hc with ⟨row, _, hrow⟩
    exact sparing_ofRow? hrow
  intro drafts
  apply Operation.Triple.bind_given (keeps_sparing.listRules (fun _ hv => hv) trivial)
  intro rules hrules
  apply Operation.Triple.bind (Q := fun _ => Sparing naming w [])
  · apply Operation.Triple.ofSaga
    apply visitAll_sparing
    intro c hc
    rcases List.mem_filterMap.mp hc with ⟨info, hinfo, hrule⟩
    exact sparing_ofRule? (hrules info hinfo) hrule
  intro visits
  apply Operation.Triple.bind_given (keeps_sparing.listTopics (fun _ hv => hv) trivial)
  intro topics htopics
  apply Operation.Triple.bind (Q := fun _ => Sparing naming w [])
  · apply Operation.Triple.ofSaga
    apply visitAll_sparing
    intro c hc
    rcases List.mem_filterMap.mp hc with ⟨t, ht, htopic⟩
    exact sparing_ofTopic? (htopics t ht) htopic
  exact fun _ => Operation.Triple.pure fun _ _ h => h

/-!
# Deletions of drafts
-/

theorem deleteOwned_sparing {user : UserId} {id : TriggerId}
    (hdraft : forall t, t ∈ w.store.triggers -> t.id = id -> t.isProvisioned = false) :
    Operation.Triple .anyFault
      (fun st v => Sparing naming w [id] st v ∧ v.store.triggers = w.store.triggers)
      (Lifecycle.deleteOwned naming user id) (fun _ => Sparing naming w [id])
      fun _ => Sparing naming w [id] := by
  have hread : Operation.Triple .anyFault
      (fun st v => Sparing naming w [id] st v ∧ v.store.triggers = w.store.triggers)
      (.ask (.getTrigger id)) (fun (row : Option Trigger) st v => Sparing naming w [id] st v ∧
        forall t, row = some t -> t.isProvisioned = false)
      fun _ => Sparing naming w [id] := by
    apply Operation.Triple.ask (c := .getTrigger id)
    · exact Setting.alone_stable fun _ _ _ h =>
        ⟨⟨h.1.1, h.1.2.1, h.1.2.2.topics, h.1.2.2.rules⟩, h.2⟩
    · exact fun _ _ _ _ => trivial
    · exact fun _ _ _ h _ => h.1
    · intro st v row u h _ hperform
      cases hperform
      refine ⟨h.1, ?_⟩
      intro t ht
      rcases Store.trigger?_eq_some ht with ⟨hrow, hid⟩
      rw [h.2] at hrow
      exact hdraft t hrow hid
    · intro st v e u h _ hperform
      cases hperform
  rw [Lifecycle.deleteOwned]
  apply Operation.Triple.bind_given hread
  intro row hrow
  have hfound : Operation.Triple .anyFault (Sparing naming w [id])
      (.orFail (row.filter (·.user == user)) (Lifecycle.noTrigger id))
      (fun t st v => Sparing naming w [id] st v ∧ t.handles = none)
      fun _ => Sparing naming w [id] := by
    apply Operation.Triple.orFail
    · intro t ht st v h
      have hdraft := hrow t (Option.filter_eq_some_iff.mp ht).1
      exact ⟨h, Option.isNone_iff_eq_none.mp (Option.isSome_eq_false_iff.mp hdraft)⟩
    · exact fun _ _ _ h => h
  apply Operation.Triple.bind_given hfound
  intro t hhandles
  apply Operation.Triple.bind (keeps_sparing.ask (c := .listTargets id) trivial)
  intro targets
  simp only [hhandles]
  apply Operation.Triple.bind (keeps_sparing.removeLeftovers (fun _ hv => hv) trivial trivial
    (fun name hid => ⟨name, id, rfl, hid⟩) fun name hid => ⟨name, id, rfl, hid⟩)
  intro _
  apply Operation.Triple.bind (keeps_sparing.unsubscribeAll fun _ _ => trivial)
  exact fun _ => keeps_sparing.deleteRows (fun _ _ => trivial) trivial

theorem delete_sparing {config : Config} {user : UserId} {id : TriggerId}
    (hdraft : forall t, t ∈ w.store.triggers -> t.id = id -> t.isProvisioned = false) :
    Operation.Triple .anyFault
      (fun st v => Sparing config.naming w [] st v ∧ v.store.triggers = w.store.triggers)
      (Lifecycle.delete config user id) (fun _ => Sparing config.naming w [])
      fun _ => Sparing config.naming w [] := by
  have hstable : Setting.anyFault.Stable fun st v =>
      Sparing config.naming w [] st v ∧ v.store.triggers = w.store.triggers :=
    Setting.alone_stable fun _ _ _ h =>
      ⟨⟨h.1.1, h.1.2.1, h.1.2.2.topics, h.1.2.2.rules⟩, h.2⟩
  apply Operation.Triple.detached hstable
  · apply Operation.Triple.locked hstable (fun _ _ h => ⟨h.1.1, h.1.2.1⟩) (fun _ _ h => h.1)
      (fun _ _ _ h _ _ => ⟨⟨rfl, h.1.2.1, h.1.2.2.topics, h.1.2.2.rules⟩, h.2⟩)
      (deleteOwned_sparing hdraft)
    · exact fun _ => stable_sparing
    · exact fun _ => stable_sparing
    · exact fun _ _ _ h => h.1
    · exact fun _ _ _ h => h.1
    · exact fun _ _ _ h _ => ⟨rfl, h.2.1, h.2.2.topics, h.2.2.rules⟩
    · exact fun _ _ _ h _ => ⟨rfl, h.2.1, h.2.2.topics, h.2.2.rules⟩
  · exact fun _ _ h _ => ⟨⟨h.1.1, rfl, h.1.2.2⟩, h.2⟩

/-!
# What is removed
-/

theorem spares_of_meets {α : Type} {op : Operation α} (hw : w.Integrity) (deadline : Nat)
    (h : op.run.Meets .anyFault
      (Operation.ends (fun _ => Sparing naming w []) fun _ => Sparing naming w [])
      ⟨[], [], true⟩ w) :
    w.SparesForeign naming (op.run.run deadline w).2 := by
  rcases Saga.Meets.run hw (w.faults.within_all deadline) h with ⟨_, st, hpost⟩
  cases hresult : (op.run.run deadline w).1 with
  | ok _ =>
      rw [hresult] at hpost
      exact hpost.2.2
  | error _ =>
      rw [hresult] at hpost
      exact hpost.2.2

end Sparing

/-- A topic or a rule is recognised exactly by a spelling of an identifier after the
beginning of its name.  The names that creations give are among these, and neither a sweep
nor the deletion of a draft removes a topic or a rule with another name. -/
theorem ResourceNaming.recognised_by_spelling (config : Config) :
    (forall name id,
      (config.naming.triggerForTopic? name = some id ↔
        exists text : String, name = config.naming.topicStart ++ text ∧
          text.toList.map Char.toLower ∈ id.uuid.spellings) ∧
      (config.naming.triggerForRule? name = some id ↔
        exists text : String, name = config.naming.ruleStart ++ text ∧
          text.toList.map Char.toLower ∈ id.uuid.spellings)) ∧
    (forall id, config.naming.triggerForTopic? (config.naming.topicName id) = some id ∧
      config.naming.triggerForRule? (config.naming.ruleName id) = some id) ∧
    forall w : World, w.Integrity -> forall deadline,
      w.SparesForeign config.naming ((sweep config.naming).run.run deadline w).2 ∧
      forall user id,
        (forall t, t ∈ w.store.triggers -> t.id = id -> t.isProvisioned = false) ->
          w.SparesForeign config.naming
            ((Lifecycle.delete config user id).run.run deadline w).2 := by
  refine ⟨fun name id => ⟨idAfter?_eq_some_iff, idAfter?_eq_some_iff⟩,
    fun id => ⟨triggerForTopic?_topicName _ id, triggerForRule?_ruleName _ id⟩, ?_⟩
  intro w hw deadline
  have hstart : Sparing config.naming w [] ⟨[], [], true⟩ w :=
    ⟨rfl, rfl, fun _ ht _ => ht, fun _ hr _ => hr⟩
  constructor
  · exact spares_of_meets hw deadline (sweep_sparing.meets _ w hstart)
  · intro user id hdraft
    exact spares_of_meets hw deadline ((delete_sparing hdraft).meets _ w ⟨hstart, rfl⟩)

/-- The name of a trigger's topic with capitals, as no creation writes it. -/
def shouted : String :=
  "trigger-67E55044-10B1-426F-9247-BB680E5FE0C8"

def marketplace : World :=
  let condition : Condition := ⟨"temp", .greaterThan, 30⟩
  let draft : Trigger := ⟨⟨Uuid.ofNat 1⟩, ⟨7⟩, ⟨1⟩, condition, "Too hot", none⟩
  let calls : List Call :=
    [.insertTrigger draft, .createTopic shouted,
      .subscribe (Broker.handleFor shouted) "email" "anna@example.com",
      .installRule "billing_alerts" ⟨"meter", condition, "Paid", ""⟩
        (Broker.handleFor shouted)]
  calls.foldl (fun w c => (c.perform w).2) (.ofThings [] ⟨Uuid.ofNat, 0⟩)

theorem marketplace_recognised :
    marketplace.Integrity ∧
      ResourceNaming.standard.triggerForTopic? shouted = some ResourceNaming.overlapped ∧
      marketplace.SparesForeign ResourceNaming.standard
        ((sweep ResourceNaming.standard).run.run 10000 marketplace).2 ∧
      (forall t, t ∈ marketplace.store.triggers -> t.id = ⟨Uuid.ofNat 1⟩ ->
        t.isProvisioned = false) ∧
      marketplace.SparesForeign ResourceNaming.standard
        ((Lifecycle.delete Config.standard ⟨7⟩ ⟨Uuid.ofNat 1⟩).run.run 10000
          marketplace).2 := by
  have hw : marketplace.Integrity :=
    World.Reachable.integrity (((((World.Reachable.start _ _).call _).call _).call _).call _)
  have hdraft : forall t, t ∈ marketplace.store.triggers -> t.id = ⟨Uuid.ofNat 1⟩ ->
      t.isProvisioned = false := by
    decide +kernel
  rcases ResourceNaming.recognised_by_spelling Config.standard with ⟨hnames, _, hspares⟩
  rcases hspares marketplace hw 10000 with ⟨hsweep, hdelete⟩
  refine ⟨hw, ?_, hsweep, hdraft, hdelete ⟨7⟩ ⟨Uuid.ofNat 1⟩ hdraft⟩
  apply (hnames shouted ResourceNaming.overlapped).1.mpr
  exact ⟨"67E55044-10B1-426F-9247-BB680E5FE0C8", by decide, by decide +kernel⟩

/-- A name that no creation gives is recognised, and a sweep removes the topic with its
subscription. -/
theorem shouted_swept :
    ResourceNaming.standard.validate = .ok () ∧
      ResourceNaming.standard.triggerForTopic? shouted = some ResourceNaming.overlapped ∧
      (forall id, ResourceNaming.standard.topicName id ≠ shouted) ∧
      marketplace.counts = ⟨1, 0, 1, 1, 1, 0⟩ ∧
      ((sweep ResourceNaming.standard).run.run 10000 marketplace).2.counts =
        ⟨0, 0, 0, 0, 1, 0⟩ := by
  have hread : ResourceNaming.standard.triggerForTopic? shouted =
      some ResourceNaming.overlapped := by decide +kernel
  refine ⟨by decide +kernel, hread, ?_, by decide +kernel, by decide +kernel⟩
  intro id hname
  rw [← hname, ResourceNaming.triggerForTopic?_topicName] at hread
  rw [Option.some.inj hread] at hname
  exact absurd hname (by decide +kernel)

end TelemetryTriggers
