import TelemetryTriggers.Proofs.Orchestrator.Committed

/-!
# Sweeps do no harm

As long as fresh identifiers do not repeat, an identifier that was drawn for a target
belongs to one trigger only.  Then everything that a step of a sweep removes belongs to
the trigger that the sweep has locked, which is not provisioned.  If they could repeat,
the row of a target could come to another trigger between its listing and its removal.

Main definitions: `IdSource.Unrepeated`; `System.Drawn`, what is then true of all
identifiers that were drawn.  The main statement is `System.Reachable.sweep_spares`.
-/

namespace TelemetryTriggers

/-!
# Sources of identifiers
-/

namespace IdSource

/-- No two identifiers that were drawn are the same, as random identifiers are taken to
be. -/
def Unrepeated (source : IdSource) : Prop :=
  forall i j, i < source.drawn -> j < source.drawn ->
    source.sequence i = source.sequence j -> i = j

structure Precedes (source later : IdSource) : Prop where
  sequence : later.sequence = source.sequence
  drawn : source.drawn ≤ later.drawn

theorem Precedes.refl (source : IdSource) : source.Precedes source :=
  ⟨rfl, Nat.le_refl _⟩

theorem Precedes.trans {source later latest : IdSource} (h : source.Precedes later)
    (hlater : later.Precedes latest) : source.Precedes latest :=
  ⟨hlater.sequence.trans h.sequence, Nat.le_trans h.drawn hlater.drawn⟩

theorem Precedes.unrepeated {source later : IdSource} (h : source.Precedes later)
    (hlater : later.Unrepeated) : source.Unrepeated := by
  intro i j hi hj heq
  apply hlater i j (Nat.lt_of_lt_of_le hi h.drawn) (Nat.lt_of_lt_of_le hj h.drawn)
  rw [h.sequence]
  exact heq

theorem Precedes.unrepeated_of_counted {source later : IdSource} (h : source.Precedes later)
    (hsequence : source.sequence = Uuid.ofNat) (hfew : later.drawn ≤ 2 ^ 128) :
    later.Unrepeated := by
  intro i j hi hj heq
  rw [h.sequence, hsequence] at heq
  have hvalue := congrArg (fun u : Uuid => u.value.val) heq
  have hmod : i % 2 ^ 128 = j % 2 ^ 128 := hvalue
  rw [Nat.mod_eq_of_lt (Nat.lt_of_lt_of_le hi hfew),
    Nat.mod_eq_of_lt (Nat.lt_of_lt_of_le hj hfew)] at hmod
  exact hmod

def Gave (source : IdSource) (u : Uuid) : Prop :=
  exists k, k < source.drawn ∧ u = source.sequence k

theorem precedes_next (source : IdSource) : source.Precedes source.next.2 :=
  ⟨rfl, Nat.le_succ _⟩

theorem Precedes.gave {source later : IdSource} (h : source.Precedes later) {u : Uuid}
    (hu : source.Gave u) : later.Gave u := by
  rcases hu with ⟨k, hk, rfl⟩
  exact ⟨k, Nat.lt_of_lt_of_le hk h.drawn, by rw [h.sequence]⟩

theorem gave_next (source : IdSource) : source.next.2.Gave source.next.1 :=
  ⟨source.drawn, Nat.lt_succ_self _, rfl⟩

theorem Unrepeated.next_ne {source : IdSource} (h : source.next.2.Unrepeated) {u : Uuid}
    (hu : source.Gave u) : u ≠ source.next.1 := by
  rcases hu with ⟨k, hk, rfl⟩
  intro heq
  exact Nat.ne_of_lt hk (h k source.drawn (Nat.lt_succ_of_lt hk) (Nat.lt_succ_self _) heq)

end IdSource

theorem Call.ids_precedes (c : Call) (w : World) : w.ids.Precedes (c.perform w).2.ids := by
  rcases c.perform_ids w with heq | heq
  · rw [heq]
    exact .refl w.ids
  · rw [heq]
    exact ⟨rfl, Nat.le_succ _⟩

theorem Saga.Step.precedes {α : Type} {fails : Call -> ServiceError -> Prop} {s s' : Saga α}
    {st st' : Standing} {w v : World} (h : s.Step fails st w st' v s') :
    w.ids.Precedes v.ids := by
  cases h with
  | call c next => exact c.ids_precedes w
  | draw next => exact ⟨rfl, Nat.le_succ _⟩
  | _ => exact .refl _

namespace System

theorem Step.precedes {config : Config} {fails : Call -> ServiceError -> Prop}
    {s t : System} (h : Step config fails s t) : s.world.ids.Precedes t.world.ids := by
  cases h with
  | move hmoves =>
      cases hmoves with
      | move hplace hstep => exact hstep.precedes
  | _ => exact .refl _

/-!
# Who drew what
-/

structure Drawn (s : System) : Prop where
  past : forall (place : Nat) (thread : Thread), s.threads[place]? = some thread ->
    forall u, u ∈ thread.standing.drawn ->
      exists k, k < s.world.ids.drawn ∧ u = s.world.ids.sequence k
  apart : forall (place other : Nat) (thread rival : Thread), place ≠ other ->
    s.threads[place]? = some thread -> s.threads[other]? = some rival ->
      forall u, u ∈ thread.standing.drawn -> u ∉ rival.standing.drawn

namespace Drawn

variable {config : Config} {fails : Call -> ServiceError -> Prop} {w v : World}
  {threads : List Thread} {place : Nat} {thread thread' : Thread}

theorem set (h : Drawn ⟨w, threads⟩) (hv : v.ids.Unrepeated)
    (hplace : threads[place]? = some thread) (hprecedes : w.ids.Precedes v.ids)
    (hnew : forall u, u ∈ thread'.standing.drawn -> u ∈ thread.standing.drawn ∨
      (u = w.ids.sequence w.ids.drawn ∧ w.ids.drawn < v.ids.drawn)) :
    Drawn ⟨v, threads.set place thread'⟩ := by
  have hlater : forall (other : Nat) (rival : Thread), threads[other]? = some rival ->
      forall u, u ∈ rival.standing.drawn ->
        exists k, k < v.ids.drawn ∧ u = v.ids.sequence k := by
    intro other rival hother u hu
    rcases h.past other rival hother u hu with ⟨k, hk, hsame⟩
    refine ⟨k, Nat.lt_of_lt_of_le hk hprecedes.drawn, ?_⟩
    rw [hprecedes.sequence]
    exact hsame
  have hmine : forall (other : Nat) (rival : Thread), place ≠ other ->
      threads[other]? = some rival -> forall u, u ∈ thread'.standing.drawn ->
        u ∉ rival.standing.drawn := by
    intro other rival hne hold u hu hrival
    rcases hnew u hu with hdrawn | ⟨hnext, hnow⟩
    · exact h.apart place other _ _ hne hplace hold u hdrawn hrival
    · rcases h.past other rival hold u hrival with ⟨k, hk, hsame⟩
      have hk : k < w.ids.drawn := hk
      have heq : k = w.ids.drawn := by
        apply hv k w.ids.drawn (Nat.lt_trans hk hnow) hnow
        rw [hprecedes.sequence]
        exact hsame.symm.trans hnext
      omega
  constructor
  · intro other rival hother u hu
    rcases getElem?_set_cases hother with ⟨_, rfl⟩ | ⟨_, hold⟩
    · rcases hnew u hu with hdrawn | ⟨hnext, hnow⟩
      · exact hlater place thread hplace u hdrawn
      · refine ⟨w.ids.drawn, hnow, ?_⟩
        rw [hnext, hprecedes.sequence]
    · exact hlater other rival hold u hu
  · intro first second one two hne hfirst hsecond u hone htwo
    rcases getElem?_set_cases hfirst with ⟨rfl, rfl⟩ | ⟨_, hold⟩
    · rcases getElem?_set_cases hsecond with ⟨hsame, _⟩ | ⟨_, hold⟩
      · exact hne hsame
      · exact hmine second two hne hold u hone htwo
    · rcases getElem?_set_cases hsecond with ⟨rfl, rfl⟩ | ⟨_, hold'⟩
      · exact hmine first one (Ne.symm hne) hold u htwo hone
      · exact h.apart first second one two hne hold hold' u hone htwo

theorem step {s t : System} (h : Drawn s) (hstep : Step config fails s t)
    (ht : t.world.ids.Unrepeated) : Drawn t := by
  cases hstep with
  | start request w threads =>
      have hcases : forall {other : Nat} {rival : Thread} {u : Uuid},
          (threads ++ [Thread.start config request])[other]? = some rival ->
            u ∈ rival.standing.drawn -> threads[other]? = some rival := by
        intro other rival u hother hu
        rcases getElem?_append_cases hother with hold | ⟨_, rfl⟩
        · exact hold
        · cases hu
      constructor
      · exact fun other rival hother u hu => h.past other rival (hcases hother hu) u hu
      · intro first second one two hne hfirst hsecond u hone htwo
        exact h.apart first second one two hne (hcases hfirst hone) (hcases hsecond htwo) u
          hone htwo
  | move hmoves =>
      cases hmoves with
      | @move w v threads request st st' work work' hplace hstep =>
          apply h.set ht hplace hstep.precedes
          cases hstep with
          | draw next =>
              intro u hu
              rcases List.mem_append.mp hu with hold | hnew
              · exact Or.inl hold
              · exact Or.inr ⟨List.mem_singleton.mp hnew, Nat.lt_succ_self _⟩
          | _ => exact fun u hu => Or.inl hu
  | abandon hplace => exact h.set ht hplace (.refl _) fun u hu => Or.inl hu
  | replan => exact ⟨h.past, h.apart⟩
  | dispatch => exact ⟨h.past, h.apart⟩
  | restart w threads =>
      constructor
      · intro place thread hplace u hu
        rcases getElem?_dropped_cases hplace with ⟨old, hold, rfl⟩
        exact h.past place old hold u hu
      · intro place other thread rival hne hplace hother u hu
        rcases getElem?_dropped_cases hplace with ⟨old, hold, rfl⟩
        rcases getElem?_dropped_cases hother with ⟨old', hold', rfl⟩
        exact h.apart place other old old' hne hold hold' u hu

end Drawn

variable {config : Config} {fails : Call -> ServiceError -> Prop} {things : List Thing}
  {ids : IdSource} {s t : System}

theorem Reachable.drawn (hs : Reachable config fails things ids s)
    (hids : s.world.ids.Unrepeated) : Drawn s := by
  induction hs with
  | start =>
      constructor
      · exact fun place thread hplace => nomatch hplace
      · exact fun place other thread rival _ hplace => nomatch hplace
  | step _ hstep ih => exact (ih (hstep.precedes.unrepeated hids)).step hstep hids

theorem Drawn.distinct (h : Drawn s) : History.Distinct s.Drew := by
  intro u id other h h'
  rcases h with ⟨request, drawn, ⟨thread, hthread, rfl, hdrawn⟩, hnames, hu⟩
  rcases h' with ⟨request', drawn', ⟨thread', hthread', rfl, hdrawn'⟩, hnames', hu'⟩
  rcases List.mem_iff_getElem?.mp hthread with ⟨place, hplace⟩
  rcases List.mem_iff_getElem?.mp hthread' with ⟨place', hplace'⟩
  have hsame : place = place' := by
    by_contra hne
    exact h.apart place place' _ _ hne hplace hplace' u (hdrawn.subset hu) (hdrawn'.subset hu')
  subst hsame
  rw [hplace] at hplace'
  cases hplace'
  cases hrequest : thread.request with
  | create request =>
      rw [hrequest] at hnames hnames'
      -- both prefixes of what was drawn begin with the identifier of the trigger
      have hfirst : forall {d : List Uuid} {a : TriggerId}, d <+: thread.standing.drawn ->
          d.head? = some a.uuid -> thread.standing.drawn.head? = some a.uuid := by
        intro d a h hhead
        rcases h with ⟨later, hlater⟩
        rw [← hlater, List.head?_append, hhead]
        rfl
      have huuid : some id.uuid = some other.uuid :=
        (hfirst hdrawn hnames).symm.trans (hfirst hdrawn' hnames')
      cases id
      cases other
      exact congrArg TriggerId.mk (Option.some.inj huuid)
  | addTarget user id spec =>
      rw [hrequest] at hnames hnames'
      exact Eq.trans hnames.symm hnames'
  | _ =>
      rw [hrequest] at hnames
      cases hnames

/-!
# What a step removes
-/

theorem Moves.removal {place : Nat} {thread : Thread} (hs : Reachable config fails things ids s)
    (hplace : s.threads[place]? = some thread) (hmoves : Moves fails place s t) {item : Item}
    (hitem : s.world.Holds item) (hgone : ¬ t.world.Holds item) :
    exists (c : Call) (id : TriggerId), thread.standing.locks = [id] ∧
      t.world = (c.perform s.world).2 ∧ c.Permitted config s.Drew thread.request id s.world := by
  cases hmoves with
  | @move w v threads request st st' work work' hwork hstep =>
      cases hplace.symm.trans hwork
      have hsame : ¬ w.SameServices v := fun hv => hgone ((hv.holds_iff item).mpr hitem)
      cases hstep with
      | call c next =>
          rcases hs.ordered.reads_or_permitted hplace with hreads | ⟨id, hlocks, hpermitted⟩
          · rw [hreads.perform_eq] at hgone
            exact absurd hitem hgone
          · exact ⟨c, id, hlocks, rfl, hpermitted⟩
      | _ => exact absurd ⟨rfl, rfl, rfl, rfl⟩ hsame

/-- What a step of a sweep removes belongs to a trigger that is not provisioned, whose
lock the sweep holds and nobody else. -/
theorem Reachable.sweep_spares (hs : Reachable config fails things ids s)
    (hids : s.world.ids.Unrepeated) {place : Nat} {thread : Thread}
    (hplace : s.threads[place]? = some thread) (hsweep : thread.request = .recover)
    (hmoves : Moves fails place s t) {item : Item} (hitem : s.world.Holds item)
    (hgone : ¬ t.world.Holds item) :
    exists id, item.owner? config.naming = some id ∧ id ∈ thread.standing.locks ∧
      (forall (other : Nat) (rival : Thread), other ≠ place ->
        s.threads[other]? = some rival -> id ∉ rival.standing.locks) ∧
      forall row, row ∈ s.world.store.triggers -> row.id = id -> row.isProvisioned = false := by
  rcases hmoves.removal hs hplace hitem hgone with ⟨c, id, hlocks, hworld, hpermitted⟩
  have hw := hs.ordered.inv
  have hmine : id ∈ thread.standing.locks := by simp [hlocks]
  refine ⟨id, ?_, hmine, ?_, ?_⟩
  · -- a call about the locked trigger keeps what belongs to others
    by_contra howner
    have habout := hpermitted.about (Or.inl (hs.drawn hids).distinct)
    have hshare : (c.perform s.world).2.outside config.naming id =
        s.world.outside config.naming id :=
      Call.share_perform (by simp) hw.integrity habout
    rw [hworld] at hgone
    exact hgone (World.holds_of_share hshare.symm hitem (by simpa using howner))
  · intro other rival hother hrival
    exact hs.ordered.apart place other thread rival (Ne.symm hother) hplace hrival id hmine
  · intro row hrow hid
    rw [Bool.eq_false_iff]
    intro hprovisioned
    have hdelete := hpermitted.spares (Or.inl hsweep) row hrow hid hprovisioned
    rw [hsweep] at hdelete
    cases hdelete

/-- The house after a crash during the creation of an alarm, just before a sweep
deletes the draft. -/
def swept : System :=
  home.play .standard (.start (.create Lifecycle.heatAlarm) :: List.replicate 5 (.go 0) ++
    .restart :: .start .recover :: List.replicate 5 (.go 1))

theorem swept_spares :
    exists thread row, swept.threads[1]? = some thread ∧ thread.request = .recover ∧
      Moves (fun _ _ => False) 1 swept (swept.turn .standard (.go 1)) ∧
      row ∈ swept.world.store.triggers ∧
      row ∉ (swept.turn .standard (.go 1)).world.store.triggers ∧
      exists id, (Item.trigger row).owner? Config.standard.naming = some id ∧
        id ∈ thread.standing.locks ∧
        (forall (other : Nat) (rival : Thread), other ≠ 1 ->
          swept.threads[other]? = some rival -> id ∉ rival.standing.locks) ∧
        forall row, row ∈ swept.world.store.triggers -> row.id = id ->
          row.isProvisioned = false := by
  have hs : Reachable .standard (fun _ _ => False) _ _ swept := home_reachable.play _
  have hids : swept.world.ids.Unrepeated := by
    have hdrawn : swept.world.ids.drawn = 1 := by decide +kernel
    intro i j hi hj _
    omega
  have hrequest : (swept.threads[1]?).map (·.request) = some .recover := by decide +kernel
  have hmoves : Moves (fun _ _ => False) 1 swept (swept.turn .standard (.go 1)) := by
    apply moves_turn
    decide +kernel
  have hrow : swept.world.store.triggers ≠ [] := by decide +kernel
  have hgone : (swept.turn .standard (.go 1)).world.store.triggers = [] := by decide +kernel
  rcases Option.map_eq_some_iff.mp hrequest with ⟨thread, hthread, hsweep⟩
  rcases List.exists_mem_of_ne_nil _ hrow with ⟨row, hrow⟩
  have hgone : row ∉ (swept.turn .standard (.go 1)).world.store.triggers := by
    rw [hgone]
    exact List.not_mem_nil
  have hitem : swept.world.Holds (.trigger row) := hrow
  exact ⟨thread, row, hthread, hsweep, hmoves, hrow, hgone,
    hs.sweep_spares hids hthread hsweep hmoves hitem hgone⟩

end System
end TelemetryTriggers
