import TelemetryTriggers.Lifecycle.Delete
import TelemetryTriggers.Proofs.Saga.Logic
import TelemetryTriggers.Proofs.Services.World

/-!
# What calls of one kind keep

If every call of a kind keeps an assertion, so does all work that makes calls of this kind
only, however its calls are answered and wherever it stops.  Much of a deletion is such
work, and so is everything that takes something back.

Main definition: `Setting.Keeps`.
-/

namespace TelemetryTriggers

/-- As long as the assertion is true, calls of the kind may be made, and they keep it true. -/
structure Setting.Keeps (S : Setting) (K : Assertion) (P : Call -> Prop) : Prop where
  stable : S.Stable K
  allowed : forall {c st w}, P c -> K st w -> S.inv w -> S.allowed st c w
  perform : forall {c st w}, P c -> K st w -> S.inv w -> K st (c.perform w).2

namespace Setting.Keeps

variable {S : Setting} {K : Assertion} {P : Call -> Prop} {c : Call}

theorem mono {Q : Call -> Prop} (h : S.Keeps K P) (hQ : forall c, Q c -> P c) : S.Keeps K Q :=
  ⟨h.stable, fun hc hK hw => h.allowed (hQ _ hc) hK hw,
    fun hc hK hw => h.perform (hQ _ hc) hK hw⟩

theorem question {fact : c.Reply -> Prop} (h : S.Keeps K P) (hc : P c)
    (hfact : forall w r, S.inv w -> (c.perform w).1 = .ok r -> fact r) :
    Operation.Triple S K (.ask c) (fun r st w => K st w ∧ fact r) fun _ => K := by
  apply Operation.Triple.ask h.stable
  · exact fun st w hK hw => h.allowed hc hK hw
  · exact fun st w e hK _ => hK
  · intro st w r v hK hw hperform
    have hkept := h.perform hc hK hw
    rw [hperform] at hkept
    exact ⟨hkept, hfact w r hw (congrArg Prod.fst hperform)⟩
  · intro st w e v hK hw hperform
    have hkept := h.perform hc hK hw
    rw [hperform] at hkept
    exact hkept

theorem ask (h : S.Keeps K P) (hc : P c) :
    Operation.Triple S K (.ask c) (fun _ => K) fun _ => K :=
  Operation.Triple.post (Q := fun _ st w => K st w ∧ True)
    (h.question hc fun _ _ _ _ => trivial) fun _ _ _ hK => hK.1

theorem ensureGone (h : S.Keeps K P) (hc : P c) :
    Operation.Triple S K (.ensureGone c) (fun _ => K) fun _ => K := by
  have hend : forall (e : ServiceError) st w, K st w ->
      Operation.ends (fun _ : Unit => K) (fun _ => K)
        (if e.isAbsence then .ok () else .error (c.service.failure e)) st w := by
    intro e st w hK
    cases e.isAbsence with
    | true => exact hK
    | false => exact hK
  apply Operation.Triple.ensureGone h.stable
  · exact fun st w hK hw => h.allowed hc hK hw
  · exact fun st w e hK _ => hend e st w hK
  · intro st w r v hK hw hperform
    have hkept := h.perform hc hK hw
    rw [hperform] at hkept
    exact hkept
  · intro st w e v hK hw hperform
    have hkept := h.perform hc hK hw
    rw [hperform] at hkept
    exact hend e st v hkept

theorem invoke (h : S.Keeps K P) (hc : P c) :
    Saga.Triple S K (.invoke c) fun _ => K := by
  intro st w hK v hv hinv
  have hK := h.stable st w v hK hv
  exact ⟨h.allowed hc hK hinv, fun _ _ => hK, h.perform hc hK hinv⟩

theorem unwind {undos : List Undo} (h : S.Keeps K P)
    (hundos : forall undo, undo ∈ undos -> P undo.toCall) :
    Saga.Triple S K (unwind undos) fun _ => K := by
  let rest : List Undo -> Assertion :=
    fun undos st w => K st w ∧ forall undo, undo ∈ undos -> P undo.toCall
  have hall : Saga.Triple S (rest undos) (TelemetryTriggers.unwind undos) fun _ => rest [] := by
    apply unwind_triple (P := rest)
    · exact fun undos st w v hK hv => ⟨h.stable st w v hK.1 hv, hK.2⟩
    · exact fun undo undos st w hK hw => h.allowed (hK.2 undo List.mem_cons_self) hK.1 hw
    · exact fun undo undos st w e hK _ _ =>
        ⟨hK.1, fun other hother => hK.2 other (List.mem_cons_of_mem undo hother)⟩
    · exact fun undo undos st w hK hw => ⟨h.perform (hK.2 undo List.mem_cons_self) hK.1 hw,
        fun other hother => hK.2 other (List.mem_cons_of_mem undo hother)⟩
  apply hall.consequence
  · exact fun st w hK => ⟨hK, hundos⟩
  · exact fun _ st w hK => hK.1

/-!
# Parts of a deletion
-/

theorem removeAll {cs : List Call} (h : S.Keeps K P) (hcs : forall c, c ∈ cs -> P c) :
    Operation.Triple S K (Lifecycle.removeAll cs) (fun _ => K) fun _ => K := by
  induction cs with
  | nil => exact Operation.Triple.pure fun st w hK => hK
  | cons c cs ih =>
      apply Operation.Triple.bind (h.ensureGone (hcs c List.mem_cons_self))
      exact fun _ => ih fun d hd => hcs d (List.mem_cons_of_mem c hd)

theorem removeResources {handles : Handles} (h : S.Keeps K P)
    (hrule : P (.removeRule handles.rule)) (htopic : P (.deleteTopic handles.topic)) :
    Operation.Triple S K (Lifecycle.removeResources handles) (fun _ => K) fun _ => K := by
  apply h.removeAll
  intro c hc
  rcases List.mem_cons.mp hc with rfl | hlast
  · exact hrule
  · rw [List.mem_singleton.mp hlast]
    exact htopic

theorem unsubscribeAll {targets : List Target} (h : S.Keeps K P)
    (htargets : forall r, r ∈ targets -> P (.unsubscribe r.subscription)) :
    Operation.Triple S K (Lifecycle.unsubscribeAll targets) (fun _ => K) fun _ => K := by
  induction targets with
  | nil => exact Operation.Triple.pure fun st w hK => hK
  | cons target targets ih =>
      apply Operation.Triple.bind
      · exact Operation.Triple.ofSaga (h.invoke (htargets target List.mem_cons_self))
      · exact fun _ => ih fun r hr => htargets r (List.mem_cons_of_mem target hr)

theorem deleteRows {id : TriggerId} {targets : List Target} (h : S.Keeps K P)
    (htargets : forall r, r ∈ targets -> P (.deleteTarget r.id)) (hrow : P (.deleteTrigger id)) :
    Operation.Triple S K (Lifecycle.deleteRows id targets) (fun _ => K) fun _ => K := by
  apply h.removeAll
  intro c hc
  rcases List.mem_append.mp hc with htarget | hlast
  · rcases List.mem_map.mp htarget with ⟨r, hr, rfl⟩
    exact htargets r hr
  · rw [List.mem_singleton.mp hlast]
    exact hrow

theorem listRules (h : S.Keeps K P) (hinv : forall w, S.inv w -> w.Integrity)
    (hlist : P .listRules) :
    Operation.Triple S K (.ask .listRules)
      (fun rules st w => K st w ∧
        forall info, info ∈ rules -> info.handle = RuleEngine.handleFor info.name)
      fun _ => K := by
  apply h.question (c := .listRules) hlist
  intro w rules hw hrules info hinfo
  have hrules : w.engine.rulesByName = rules := Except.ok.inj hrules
  rw [← hrules] at hinfo
  rcases RuleEngine.mem_rulesByName.mp hinfo with ⟨rule, hrule, rfl⟩
  exact (hinv w hw).engine.named rule hrule

theorem listTopics (h : S.Keeps K P) (hinv : forall w, S.inv w -> w.Integrity)
    (hlist : P .listTopics) :
    Operation.Triple S K (.ask .listTopics)
      (fun topics st w => K st w ∧
        forall t, t ∈ topics -> t.handle = Broker.handleFor t.name)
      fun _ => K := by
  apply h.question (c := .listTopics) hlist
  intro w topics hw htopics t ht
  have htopics : w.broker.topicsByName = topics := Except.ok.inj htopics
  rw [← htopics] at ht
  exact (hinv w hw).broker.named t (Broker.mem_topicsByName.mp ht)

theorem removeLeftovers {naming : ResourceNaming} {id : TriggerId} (h : S.Keeps K P)
    (hinv : forall w, S.inv w -> w.Integrity) (hrules : P .listRules) (htopics : P .listTopics)
    (hrule : forall name, naming.triggerForRule? name = some id ->
      P (.removeRule (RuleEngine.handleFor name)))
    (htopic : forall name, naming.triggerForTopic? name = some id ->
      P (.deleteTopic (Broker.handleFor name))) :
    Operation.Triple S K (Lifecycle.removeLeftovers naming id) (fun _ => K) fun _ => K := by
  rw [Lifecycle.removeLeftovers]
  apply Operation.Triple.bind_given (h.listRules hinv hrules)
  intro rules hhandles
  apply Operation.Triple.bind (Q := fun _ => K)
  · apply h.removeAll
    intro c hc
    rcases List.mem_map.mp hc with ⟨info, hinfo, rfl⟩
    rcases List.mem_filter.mp hinfo with ⟨hmem, hmine⟩
    rw [hhandles info hmem]
    exact hrule info.name (by simpa using hmine)
  intro _
  apply Operation.Triple.bind_given (h.listTopics hinv htopics)
  intro topics hhandles
  apply h.removeAll
  intro c hc
  rcases List.mem_map.mp hc with ⟨t, ht, rfl⟩
  rcases List.mem_filter.mp ht with ⟨hmem, hmine⟩
  rw [hhandles t hmem]
  exact htopic t.name (by simpa using hmine)

end Setting.Keeps
end TelemetryTriggers
