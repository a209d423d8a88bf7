import TelemetryTriggers.Proofs.Orchestrator.Committed
import TelemetryTriggers.Proofs.Orchestrator.Phases

/-!
# Rows and subscriptions in step

In every reachable system the rows and the subscriptions of a trigger are in step while
no change of it is under way.  The exceptions are known by what is left of the changes
themselves: a crash cut one short, or a change of its targets ended in an error of the
store.

Main definitions: `Thread.Breaks`, these exceptions; `InStep`, the invariant.  The main
statement is `System.Reachable.inStep`.
-/

namespace TelemetryTriggers

namespace Thread

/-- The operation has had its lock, unless it has ended without. -/
def Begun (thread : Thread) : Prop :=
  forall work, thread.rest = some work -> thread.standing.locks = [] ->
    exists r, work = .done r

/-- The operation is the creation of the trigger and has begun. -/
structure Founder (H : History) (id : TriggerId) (thread : Thread) : Prop where
  creates : thread.request.Creates
  aims : thread.request.Aims H id thread.standing.drawn
  begun : thread.Begun

/-- A crash cut a change of the trigger short, or a change of its targets ended in an
error of the store. -/
def Breaks (H : History) (id : TriggerId) (thread : Thread) : Prop :=
  thread.standing.detached = true ∧ thread.request.Aims H id thread.standing.drawn ∧
    (thread.rest = none ∨ (thread.request.Retargets H id ∧
      exists cause, thread.rest = some (.done (.error (.store cause)))))

end Thread

namespace System

def Broken (H : History) (s : System) (id : TriggerId) : Prop :=
  exists thread, thread ∈ s.threads ∧ thread.Breaks H id

def AtRest (s : System) (id : TriggerId) : Prop :=
  forall thread, thread ∈ s.threads -> thread.request.Changes -> id ∉ thread.standing.locks

variable {config : Config} {fails : Call -> ServiceError -> Prop} {H : History}
  {place : Nat} {w v : World} {threads : List Thread} {thread thread' : Thread}
  {s t : System} {id : TriggerId}

theorem Broken.step (h : s.Broken H id) (hstep : Step config fails s t) : t.Broken H id := by
  apply exists_mem_step hstep _ _ h
  · rintro place request st st' work work' _ hstep ⟨_, _, hnone | ⟨_, cause, hrest⟩⟩
    · cases hnone
    · cases hrest
      cases hstep
  · exact fun thread hbreaks => ⟨hbreaks.1, hbreaks.2.1, Or.inl rfl⟩

theorem AtRest.unset (h : AtRest ⟨v, threads.set place thread'⟩ id)
    (hplace : threads[place]? = some thread)
    (hmine : thread.request.Changes -> id ∉ thread.standing.locks) :
    AtRest ⟨w, threads⟩ id := by
  intro rival hrival hchanges hid
  rcases exists_mem_set (P := fun rival => rival.request.Changes ∧ id ∈ rival.standing.locks)
    hplace (fun hheld => absurd hheld.2 (hmine hheld.1)) ⟨rival, hrival, hchanges, hid⟩ with
    ⟨new, hnew, hchanges, hid⟩
  exact h new hnew hchanges hid

theorem AtRest.of_free {D : Discipline} (hg : Governed D fails s)
    (hfree : s.world.locks.isHeld id = false) : s.AtRest id := by
  intro thread hthread _ hid
  rcases List.mem_iff_getElem?.mp hthread with ⟨place, hplace⟩
  rw [hg.held place thread hplace id hid] at hfree
  cases hfree

end System

/-!
# The invariant
-/

/-- Changes are in their phases, and what nobody is changing is in step.  Topics and rules
are those of triggers whose creation has begun. -/
structure InStep (config : Config) (fails : Call -> ServiceError -> Prop) (H : History)
    (broken : TriggerId -> Prop) (s : System) : Prop where
  phases : forall (place : Nat) request st work,
    s.threads[place]? = some ⟨request, st, some work⟩ -> request.Changes ->
      Phase config fails H broken request s.world st work
  served : forall id, s.AtRest id -> s.world.Served config.naming H broken id
  numbered : s.world.Numbered
  founded : forall t, t ∈ s.world.broker.topics -> exists id thread, thread ∈ s.threads ∧
    thread.Founder H id ∧ t.name = config.naming.topicName id
  dropped : forall thread, thread ∈ s.threads -> thread.rest = none ->
    thread.standing.locks = []
  placed : forall r, r ∈ s.world.engine.rules -> exists id,
    r.name = config.naming.ruleName id ∧ r.topic = config.naming.topicHandle id

section Step

variable {config : Config} {fails : Call -> ServiceError -> Prop} {H : History}
  {broken : TriggerId -> Prop} {place : Nat} {w v : World} {threads : List Thread}
  {thread thread' : Thread} {request : Request} {st st' : Standing}
  {work work' : Saga (Except TriggerError Answer)} {id : TriggerId} {s t : System}

theorem World.estate_of_services {naming : ResourceNaming} (h : w.SameServices v) :
    v.estate naming id = w.estate naming id := by
  simp only [estate, share, h.store, h.topics, h.subscriptions, h.engine]

theorem estate_of_step (hg : Governed (order config H) fails ⟨w, threads⟩)
    (hdistinct : H.Distinct) (hplace : threads[place]? = some ⟨request, st, some work⟩)
    (hstep : work.Step fails st w st' v work') (hid : id ∉ st.locks) :
    v.estate config.naming id = w.estate config.naming id := by
  cases hstep with
  | call c next =>
      rcases hg.reads_or_permitted hplace with hreads | ⟨mine, hlocks, hpermitted⟩
      · rw [hreads.perform_eq]
      · have hother : (some mine == some id) = false := by
          rw [beq_eq_false_iff_ne]
          intro heq
          rcases Option.some.inj heq with rfl
          exact hid (by simp [hlocks])
        exact Call.share_perform hother (World.Sound.integrity hg.inv)
          (hpermitted.about (Or.inl hdistinct))
  | failure | busy | isHeld | detach => rfl
  | acquire | release | draw => exact World.estate_of_services ⟨rfl, rfl, rfl, rfl⟩

theorem sameTargets_of_step (hg : Governed (order config H) fails ⟨w, threads⟩)
    (hdistinct : H.Distinct) (hplace : threads[place]? = some ⟨request, st, some work⟩)
    (hstep : work.Step fails st w st' v work') (hid : id ∉ st.locks) :
    w.SameTargets config.naming id v :=
  .of_estate (estate_of_step hg hdistinct hplace hstep hid)

theorem served_of_step (hg : Governed (order config H) fails ⟨w, threads⟩)
    (hdistinct : H.Distinct) (hplace : threads[place]? = some ⟨request, st, some work⟩)
    (hmakes : work.Only (request.Makes config.naming)) (hchanges : ¬ request.Changes)
    (hstep : work.Step fails st w st' v work')
    (hserved : w.Served config.naming H broken id) : v.Served config.naming H broken id := by
  by_cases hid : id ∈ st.locks
  · cases hstep with
    | call c next =>
        rcases hmakes.1.reads_or_recover hchanges with hreads | rfl
        · rw [hreads.perform_eq]
          exact hserved
        rcases hg.reads_or_permitted hplace with hreads | ⟨mine, hlocks, hpermitted⟩
        · rw [hreads.perform_eq]
          exact hserved
        · rw [hlocks] at hid
          rcases List.mem_singleton.mp hid with rfl
          have hdraft : w.Draft id := by
            intro row hrow hsame
            rw [Bool.eq_false_iff]
            intro hprovisioned
            cases hpermitted.spares (Or.inl rfl) row hrow hsame hprovisioned
          exact World.Draft.served (World.RowIs.perform hdraft hmakes.1)
    | failure | busy | isHeld | detach => exact hserved
    | acquire | release | draw =>
        exact World.onTargets_serving w _ (.of_services ⟨rfl, rfl, rfl, rfl⟩) hserved
  · exact World.onTargets_serving w v (sameTargets_of_step hg hdistinct hplace hstep hid) hserved

namespace InStep

theorem opened (h : InStep config fails H broken s) (hg : Governed (order config H) fails s)
    (hdrawn : s.Drawn) {next : Bool -> Saga (Except TriggerError Answer)}
    (hplace : s.threads[place]? = some ⟨request, st, some (.acquire id next)⟩)
    (hlocks : st.locks = []) (hfree : s.world.locks.isHeld id = false)
    (haims : request.Aims H id st.drawn) :
    s.world.Open config.naming H broken id request := by
  constructor
  · exact h.served id (.of_free hg hfree)
  · intro hcreates
    rw [World.Unheard, List.eq_nil_iff_forall_not_mem]
    intro subscription hsubscription
    rcases List.mem_filter.mp hsubscription with ⟨hmem, hto⟩
    have hw : s.world.Integrity := World.Sound.integrity hg.inv
    rcases Broker.hasTopic_iff.mp (hw.broker.live subscription hmem) with
      ⟨topic, htopic, hhandle⟩
    rcases h.founded topic htopic with ⟨other, founder, hfounder, hfounds, hname⟩
    have hhandles : config.naming.topicHandle other = config.naming.topicHandle id := by
      rw [ResourceNaming.topicHandle, ← hname, ← hw.broker.named topic htopic, hhandle]
      exact eq_of_beq hto
    rcases ResourceNaming.topicHandle_injective hhandles with rfl
    rcases List.mem_iff_getElem?.mp hfounder with ⟨where', hwhere⟩
    by_cases hmine : where' = place
    · -- the creation itself has not begun
      subst hmine
      rw [hplace] at hwhere
      cases hwhere
      rcases hfounds.begun _ rfl hlocks with ⟨r, hr⟩
      cases hr
    · exact hdrawn.apart where' place _ _ hmine hwhere hplace other.uuid
        (List.mem_of_head? (hfounds.aims.head hfounds.creates))
        (List.mem_of_head? (haims.head hcreates))

theorem set (h : InStep config fails H broken ⟨w, threads⟩)
    (hplace : threads[place]? = some thread)
    (hphase : forall request st work, thread' = ⟨request, st, some work⟩ ->
      request.Changes -> Phase config fails H broken request v st work)
    (hids : w.ids.Precedes v.ids)
    (hrivals : forall (other : Nat) (rival : Thread), place ≠ other ->
      threads[other]? = some rival -> forall id, id ∈ rival.standing.locks ->
        w.SameTargets config.naming id v)
    (hserved : forall id, System.AtRest ⟨v, threads.set place thread'⟩ id ->
      v.Served config.naming H broken id)
    (hnumbered : v.Numbered)
    (htopics : forall t, t ∈ v.broker.topics -> t ∈ w.broker.topics ∨
      exists id, thread'.Founder H id ∧ t.name = config.naming.topicName id)
    (hrules : forall r, r ∈ v.engine.rules -> r ∈ w.engine.rules ∨ exists id,
      r.name = config.naming.ruleName id ∧ r.topic = config.naming.topicHandle id)
    (hfounder : forall id, thread.Founder H id -> thread'.Founder H id)
    (hdropped : thread'.rest = none -> thread'.standing.locks = []) :
    InStep config fails H broken ⟨v, threads.set place thread'⟩ where
  phases := by
    intro other request st work hother hchanges
    rcases getElem?_set_cases hother with ⟨_, hthread⟩ | ⟨hne, hold⟩
    · exact hphase request st work hthread.symm hchanges
    · apply (h.phases other request st work hold hchanges).later hids
      exact hrivals other _ hne hold
  served := hserved
  numbered := hnumbered
  founded := by
    intro t ht
    rcases htopics t ht with hold | ⟨id, hfounds, hname⟩
    · rcases h.founded t hold with ⟨id, founder, hfounder', hfounds, hname⟩
      rcases System.exists_mem_set hplace (hfounder id) ⟨founder, hfounder', hfounds⟩ with
        ⟨founder, hmem, hfounds⟩
      exact ⟨id, founder, hmem, hfounds, hname⟩
    · rcases List.getElem?_eq_some_iff.mp hplace with ⟨hlength, _⟩
      exact ⟨id, thread', List.mem_set hlength thread', hfounds, hname⟩
  placed := by
    intro r hr
    rcases hrules r hr with hold | hplaced
    · exact h.placed r hold
    · exact hplaced
  dropped := by
    intro rival hrival hnone
    rcases List.mem_or_eq_of_mem_set hrival with hold | rfl
    · exact h.dropped rival hold hnone
    · exact hdropped hnone

/-!
# Every step keeps the invariant
-/

theorem move (h : InStep config fails H broken ⟨w, threads⟩)
    (hg : Governed (order config H) fails ⟨w, threads⟩) (hdistinct : H.Distinct)
    (hplace : threads[place]? = some ⟨request, st, some work⟩)
    (hstep : work.Step fails st w st' v work')
    (hphase : request.Changes -> Phase config fails H broken request v st' work')
    (hserved : forall id, System.AtRest ⟨v, threads.set place ⟨request, st', some work'⟩⟩ id ->
      v.Served config.naming H broken id)
    (htopics : forall t, t ∈ v.broker.topics -> t ∈ w.broker.topics ∨
      exists id, Thread.Founder H id ⟨request, st', some work'⟩ ∧
        t.name = config.naming.topicName id)
    (hrules : forall r, r ∈ v.engine.rules -> r ∈ w.engine.rules ∨ exists id,
      r.name = config.naming.ruleName id ∧ r.topic = config.naming.topicHandle id)
    (hfounder : forall id, Thread.Founder H id ⟨request, st, some work⟩ ->
      Thread.Founder H id ⟨request, st', some work'⟩) :
    InStep config fails H broken ⟨v, threads.set place ⟨request, st', some work'⟩⟩ := by
  refine h.set hplace ?_ hstep.precedes ?_ hserved (h.numbered.step hstep) htopics hrules hfounder
    nofun
  · intro _ _ _ heq hchanges
    cases heq
    exact hphase hchanges
  · intro other rival hne hrival id hid
    apply sameTargets_of_step hg hdistinct hplace hstep
    exact fun hheld => hg.apart place other _ rival hne hplace hrival id hheld hid

theorem served_of_advance (h : InStep config fails H broken ⟨w, threads⟩)
    (hg : Governed (order config H) fails ⟨w, threads⟩) (hdistinct : H.Distinct)
    (hplace : threads[place]? = some ⟨request, st, some work⟩) (hchanges : request.Changes)
    (hstep : work.Step fails st w st' v work')
    (hadvance : Phase.Advance config fails H broken request w v st st' work')
    (hbroken : forall id, Thread.Breaks H id ⟨request, st', some work'⟩ -> broken id)
    (hrest : System.AtRest ⟨v, threads.set place ⟨request, st', some work'⟩⟩ id) :
    v.Served config.naming H broken id := by
  by_cases hheld : id ∈ st.locks
  · have hleft : id ∉ st'.locks :=
      hrest _ (List.mem_set (List.getElem?_eq_some_iff.mp hplace).1 _) hchanges
    rcases hadvance.left id hheld hleft with ⟨haims, hserved | ⟨hretargets, cause, hends⟩⟩
    · exact hserved
    · have hdetached := hstep.detached (hg.detached_of_held hplace hheld)
      have hlost := hbroken id ⟨hdetached, haims,
        Or.inr ⟨hretargets, cause, congrArg some hends⟩⟩
      rintro t _ rfl hkept
      exact absurd hlost hkept.whole
  · exact World.onTargets_serving w v (sameTargets_of_step hg hdistinct hplace hstep hheld)
      (h.served id (hrest.unset hplace fun _ => hheld))

theorem advance (h : InStep config fails H broken ⟨w, threads⟩)
    (hg : Governed (order config H) fails ⟨w, threads⟩) (hdrawn : System.Drawn ⟨w, threads⟩)
    (hplace : threads[place]? = some ⟨request, st, some work⟩)
    (hmakes : work.Only (request.Makes config.naming)) (hchanges : request.Changes)
    (hstep : work.Step fails st w st' v work') (hids : v.ids.Unrepeated) :
    Phase.Advance config fails H broken request w v st st' work' := by
  apply (h.phases place request st work hplace hchanges).step hmakes hg.inv h.numbered hids _
    hstep
  rintro id hfree haims hlocks ⟨next, rfl⟩
  exact h.opened hg hdrawn hplace hlocks hfree haims

theorem founder_of_advance (hstep : work.Step fails st w st' v work')
    (hadvance : Phase.Advance config fails H broken request w v st st' work')
    (hfounds : Thread.Founder H id ⟨request, st, some work⟩) :
    Thread.Founder H id ⟨request, st', some work'⟩ := by
  refine ⟨hfounds.creates, hfounds.aims.grows hstep.drawn_grows, ?_⟩
  intro _ hrest hnone
  cases hrest
  by_cases hlocks : st.locks = []
  · rcases hfounds.begun work rfl hlocks with ⟨r, rfl⟩
    cases hstep
  · exact hadvance.ended hlocks hnone

theorem move_change (h : InStep config fails H broken ⟨w, threads⟩)
    (hg : Governed (order config H) fails ⟨w, threads⟩) (hdrawn : System.Drawn ⟨w, threads⟩)
    (hdistinct : H.Distinct) (hplace : threads[place]? = some ⟨request, st, some work⟩)
    (hmakes : work.Only (request.Makes config.naming)) (hchanges : request.Changes)
    (hstep : work.Step fails st w st' v work') (hids : v.ids.Unrepeated)
    (hbroken : forall id,
      System.Broken H ⟨v, threads.set place ⟨request, st', some work'⟩⟩ id -> broken id) :
    InStep config fails H broken ⟨v, threads.set place ⟨request, st', some work'⟩⟩ := by
  have hadvance := h.advance hg hdrawn hplace hmakes hchanges hstep hids
  apply h.move hg hdistinct hplace hstep
  · exact fun _ => hadvance.phase
  · intro id hrest
    apply h.served_of_advance hg hdistinct hplace hchanges hstep hadvance _ hrest
    exact fun other hbreaks => hbroken other
      ⟨_, List.mem_set (List.getElem?_eq_some_iff.mp hplace).1 _, hbreaks⟩
  · intro t ht
    rcases hadvance.topics t ht with hold | ⟨id, hlocks, hcreates, haims, hname⟩
    · exact Or.inl hold
    · refine Or.inr ⟨id, ⟨hcreates, haims, ?_⟩, hname⟩
      intro _ _ hnone
      cases hlocks.symm.trans hnone
  · exact hadvance.rules
  · exact fun id hfounds => founder_of_advance hstep hadvance hfounds

theorem move_other (h : InStep config fails H broken ⟨w, threads⟩)
    (hg : Governed (order config H) fails ⟨w, threads⟩) (hdistinct : H.Distinct)
    (hplace : threads[place]? = some ⟨request, st, some work⟩)
    (hmakes : work.Only (request.Makes config.naming)) (hchanges : ¬ request.Changes)
    (hstep : work.Step fails st w st' v work') :
    InStep config fails H broken ⟨v, threads.set place ⟨request, st', some work'⟩⟩ := by
  have hnotCreates : ¬ request.Creates := fun hcreates => hchanges hcreates.changes
  apply h.move hg hdistinct hplace hstep
  · exact fun hchanges' => absurd hchanges' hchanges
  · intro id hrest
    apply served_of_step hg hdistinct hplace hmakes hchanges hstep
    exact h.served id (hrest.unset hplace fun hchanges' => absurd hchanges' hchanges)
  · cases hstep with
    | call c next =>
        intro t ht
        rcases Call.topic_origin ht with hold | ⟨name, rfl, _⟩
        · exact Or.inl hold
        · exact absurd (hmakes.1.creates trivial) hnotCreates
    | _ => exact fun t ht => Or.inl ht
  · cases hstep with
    | call c next =>
        intro r hr
        rcases Call.rule_origin hr with hold | ⟨name, predicate, topic, rfl, _⟩
        · exact Or.inl hold
        · exact absurd (hmakes.1.creates trivial) hnotCreates
    | _ => exact fun r hr => Or.inl hr
  · exact fun id hfounds => absurd hfounds.creates hnotCreates

theorem ofThings {things : List Thing} {ids : IdSource} :
    InStep config fails H broken ⟨World.ofThings things ids, []⟩ where
  phases _ _ _ _ hplace := nomatch hplace
  served := by
    intro id _ t ht
    rw [show (World.ofThings things ids).store.triggers = [] from
      (World.rows_ofThings things ids).1] at ht
    cases ht
  numbered := nofun
  founded := nofun
  placed := nofun
  dropped := nofun

theorem start (h : InStep config fails H broken ⟨w, threads⟩)
    (hphase : request.Changes -> Phase config fails H broken request w ⟨[], [], false⟩
      (request.operation config).run) :
    InStep config fails H broken ⟨w, threads ++ [.start config request]⟩ where
  phases := by
    intro other request' st work hother hchanges
    rcases getElem?_append_cases hother with hold | ⟨_, hnew⟩
    · exact h.phases other request' st work hold hchanges
    · cases hnew
      exact hphase hchanges
  served id hrest := h.served id fun rival hrival => hrest rival (List.mem_append_left _ hrival)
  numbered := h.numbered
  founded := by
    intro t ht
    rcases h.founded t ht with ⟨id, founder, hfounder, hfounds⟩
    exact ⟨id, founder, List.mem_append_left _ hfounder, hfounds⟩
  placed := h.placed
  dropped := by
    intro rival hrival hnone
    rcases List.mem_append.mp hrival with hold | hnew
    · exact h.dropped rival hold hnone
    · rw [List.mem_singleton.mp hnew] at hnone
      cases hnone

theorem abandon (h : InStep config fails H broken ⟨w, threads⟩)
    (hplace : threads[place]? = some thread) (hlocks : thread.standing.locks = []) :
    InStep config fails H broken ⟨w, threads.set place thread.dropped⟩ := by
  apply h.set hplace
  · intro _ _ _ heq
    cases heq
  · exact .refl _
  · exact fun _ _ _ _ _ _ => .refl w
  · intro id hrest
    refine h.served id (hrest.unset hplace fun _ => ?_)
    rw [hlocks]
    exact List.not_mem_nil
  · exact h.numbered
  · exact fun t ht => Or.inl ht
  · exact fun r hr => Or.inl hr
  · exact fun id hfounds => ⟨hfounds.creates, hfounds.aims, nofun⟩
  · exact fun _ => rfl

theorem around (h : InStep config fails H broken ⟨w, threads⟩) (hv : w.SameServices v)
    (hids : v.ids = w.ids) : InStep config fails H broken ⟨v, threads⟩ where
  phases := by
    intro place request st work hplace hchanges
    apply (h.phases place request st work hplace hchanges).later
    · rw [hids]
      exact .refl _
    · exact fun _ _ => .of_services hv
  served id hrest := World.onTargets_serving w v (.of_services hv) (h.served id hrest)
  numbered := h.numbered.same hv hids
  founded := by
    rw [hv.topics]
    exact h.founded
  placed := by
    rw [hv.engine]
    exact h.placed
  dropped := h.dropped

theorem breaks (h : InStep config fails H broken s) (hg : Governed (order config H) fails s)
    (hthread : thread ∈ s.threads) (hchanges : thread.request.Changes)
    (hheld : id ∈ thread.standing.locks) : thread.dropped.Breaks H id := by
  rcases List.mem_iff_getElem?.mp hthread with ⟨place, hplace⟩
  have hlocks : thread.standing.locks ≠ [] := List.ne_nil_of_mem hheld
  have hdetached : thread.standing.detached = true := hg.detached_of_held hplace hheld
  refine ⟨hdetached, ?_, Or.inl rfl⟩
  rcases thread with ⟨request, st, rest⟩
  cases rest with
  | none => exact absurd (h.dropped _ hthread rfl) hlocks
  | some work =>
      cases h.phases place request st work hplace hchanges with
      | coming hnone => exact absurd hnone hlocks
      | working hmine haims =>
          rw [show st.locks = _ from hmine] at hheld
          rcases List.mem_singleton.mp hheld with rfl
          exact haims

theorem restart (h : InStep config fails H broken ⟨w, threads⟩)
    (hg : Governed (order config H) fails ⟨w, threads⟩)
    (hbroken : forall id,
      System.Broken H ⟨{ w with locks := .empty }, threads.map Thread.dropped⟩ id -> broken id) :
    InStep config fails H broken ⟨{ w with locks := .empty }, threads.map Thread.dropped⟩ where
  phases := by
    intro place request st work hplace
    rcases getElem?_dropped_cases hplace with ⟨old, _, heq⟩
    cases heq
  served := by
    intro id _
    by_cases hrest : System.AtRest ⟨w, threads⟩ id
    · exact World.onTargets_serving w _ (.of_services ⟨rfl, rfl, rfl, rfl⟩) (h.served id hrest)
    · simp only [System.AtRest, not_forall, not_not] at hrest
      rcases hrest with ⟨thread, hthread, hchanges, hheld⟩
      have hends := hbroken id
        ⟨thread.dropped, List.mem_map_of_mem hthread, h.breaks hg hthread hchanges hheld⟩
      rintro t _ rfl hkept
      exact absurd hends hkept.whole
  numbered := h.numbered
  founded := by
    intro t ht
    rcases h.founded t ht with ⟨id, founder, hfounder, hfounds, hname⟩
    exact ⟨id, founder.dropped, List.mem_map_of_mem hfounder,
      ⟨hfounds.creates, hfounds.aims, nofun⟩, hname⟩
  placed := h.placed
  dropped := by
    intro rival hrival _
    rcases List.mem_map.mp hrival with ⟨old, _, rfl⟩
    rfl

theorem step (h : InStep config fails H broken s) (hg : Governed (order config H) fails s)
    (hdrawn : s.Drawn) (hwell : s.WellNamed config.naming)
    (hfaults : forall c e, fails c e -> e.isAbsence = false) (hdistinct : H.Distinct)
    (hknown : forall request drawn, t.Drew request drawn -> H request drawn)
    (hids : t.world.ids.Unrepeated) (hbroken : forall id, t.Broken H id -> broken id)
    (hstep : System.Step config fails s t) : InStep config fails H broken t := by
  cases hstep with
  | start request w threads =>
      apply h.start
      intro hchanges
      refine .coming rfl (hchanges.coming hfaults hdistinct (hknown request [] ?_))
      exact ⟨.start config request, List.mem_append_right _ (List.mem_singleton_self _), rfl,
        List.prefix_rfl⟩
  | move hmoves =>
      cases hmoves with
      | @move w v threads request st st' work work' hplace hstep =>
          have hmakes := hwell.rest _ (List.mem_of_getElem? hplace) work rfl
          by_cases hchanges : request.Changes
          · exact h.move_change hg hdrawn hdistinct hplace hmakes hchanges hstep hids hbroken
          · exact h.move_other hg hdistinct hplace hmakes hchanges hstep
  | abandon hplace hattached => exact h.abandon hplace (hg.attached _ _ hplace hattached)
  | replan faults w threads => exact h.around ⟨rfl, rfl, rfl, rfl⟩ rfl
  | dispatch u w threads => exact h.around (w.sameServices_dispatch u) rfl
  | restart w threads => exact h.restart hg hbroken

end InStep
end Step

/-- In every reachable system, what nobody is changing is in step, as long as identifiers
do not repeat. -/
theorem System.Reachable.inStep {config : Config} {fails : Call -> ServiceError -> Prop}
    {things : List Thing} {ids : IdSource} {s : System}
    (hs : Reachable config fails things ids s)
    (hfaults : forall c e, fails c e -> e.isAbsence = false)
    (hids : s.world.ids.Unrepeated) : InStep config fails s.Drew (s.Broken s.Drew) s := by
  have hdistinct : History.Distinct s.Drew := (hs.drawn hids).distinct
  have hearlier : forall request drawn first, s.Drew request drawn -> first <+: drawn ->
      s.Drew request first := fun _ _ _ h hfirst => h.earlier hfirst
  -- what has been drawn and broken in the end includes what has been before
  suffices hall : forall t : System, Reachable config fails things ids t ->
      (forall request drawn, t.Drew request drawn -> s.Drew request drawn) ->
        t.world.ids.Unrepeated -> (forall id, t.Broken s.Drew id -> s.Broken s.Drew id) ->
          InStep config fails s.Drew (s.Broken s.Drew) t from
    hall s hs (fun _ _ h => h) hids fun _ h => h
  intro t ht
  induction ht with
  | start =>
      intro _ _ _
      exact .ofThings
  | step hs hstep ih =>
      intro hknown hids hbroken
      have hbefore := fun request drawn h => hknown request drawn (Drew.step h hstep)
      have hidsBefore := hstep.precedes.unrepeated hids
      have h := ih hbefore hidsBefore fun id hearlier => hbroken id (hearlier.step hstep)
      exact h.step (hs.ordered_within hearlier hbefore) (hs.drawn hidsBefore) hs.wellNamed hfaults
        hdistinct hknown hids hbroken hstep

end TelemetryTriggers
