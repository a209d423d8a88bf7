import TelemetryTriggers.Proofs.Lifecycle.Deletion

/-!
# Deletions among others

While a deletion holds the lock of its trigger, others may do what they like to other
triggers.  If the deletion ends well, nothing is left of its trigger.  If it finds the row
of its owner, it fails only where a call fails.

Main definitions: `World.Regular`, what a deletion relies on; `deleting`, the setting.
The main statement is `Lifecycle.deleteOwned_clears`.
-/

namespace TelemetryTriggers

structure World.Regular (naming : ResourceNaming) (w : World) : Prop where
  integrity : w.Integrity
  named : w.Named naming
  handles : forall t, t ∈ w.store.triggers -> forall handles, t.handles = some handles ->
    handles = naming.handles t.id

/-- Others leave alone what belongs to the trigger, and calls of one kind are made. -/
def deleting (naming : ResourceNaming) (fails : Call -> ServiceError -> Prop)
    (P : Call -> Prop) (id : TriggerId) : Setting where
  fails := fails
  between _ w v := v.estate naming id = w.estate naming id
  inv := World.Regular naming
  allowed _ c _ := P c
  drawable _ := True

abbrev anyCall : Call -> Prop :=
  fun _ => True

/-- The statement is about nothing but what belongs to the trigger. -/
def OfEstate (naming : ResourceNaming) (id : TriggerId) (P : World -> Prop) : Prop :=
  forall w v : World, v.estate naming id = w.estate naming id -> P w -> P v

def CoversTargets (id : TriggerId) (cs : List Call) (w : World) : Prop :=
  forall r, r ∈ w.store.targets -> r.trigger = id -> .deleteTarget r.id ∈ cs

section Estate

variable {naming : ResourceNaming} {fails : Call -> ServiceError -> Prop} {P : Call -> Prop}
  {id : TriggerId} {w v : World} {cs : List Call}

theorem OfEstate.stable {Q : World -> Prop} (h : OfEstate naming id Q) :
    (deleting naming fails P id).Stable fun _ => Q :=
  fun _ w v hw hv => h w v hv hw

theorem OfEstate.and {P Q : World -> Prop} (hP : OfEstate naming id P)
    (hQ : OfEstate naming id Q) : OfEstate naming id fun w => P w ∧ Q w :=
  fun w v hv h => ⟨hP w v hv h.1, hQ w v hv h.2⟩

theorem World.holds_of_estate (item : Item) (h : v.estate naming id = w.estate naming id)
    (hitem : v.Holds item) (howner : item.owner? naming = some id) : w.Holds item := by
  apply World.holds_of_share h hitem
  rw [howner]
  exact beq_self_eq_true _

theorem ofEstate_coversRules (cs : List Call) : OfEstate naming id (CoversRules naming id cs) :=
  fun _ _ hv h r hr howner =>
    h r (World.holds_of_estate (.rule r) hv hr howner) howner

theorem ofEstate_coversTopics (cs : List Call) : OfEstate naming id (CoversTopics naming id cs) :=
  fun _ _ hv h t ht howner =>
    h t (World.holds_of_estate (.topic t) hv ht howner) howner

theorem ofEstate_coversTargets (cs : List Call) : OfEstate naming id (CoversTargets id cs) :=
  fun _ _ hv h r hr hid =>
    h r (World.holds_of_estate (.target r) hv hr (congrArg some hid)) hid

theorem World.ofEstate_fresh : OfEstate naming id (World.Fresh naming id) := by
  intro w v hv h
  constructor
  · exact fun t ht hid =>
      h.row t (World.holds_of_estate (.trigger t) hv ht (congrArg some hid)) hid
  · exact fun t ht howner =>
      h.topic t (World.holds_of_estate (.topic t) hv ht howner) howner
  · exact fun r hr howner =>
      h.rule r (World.holds_of_estate (.rule r) hv hr howner) howner

theorem ofEstate_row {t : Trigger} (hid : t.id = id) :
    OfEstate naming id fun w => t ∈ w.store.triggers := by
  intro w v hv h
  apply World.holds_of_estate (.trigger t) hv.symm h
  exact congrArg some hid

theorem CoversTargets.of_store (h : CoversTargets id cs w) (hv : v.store = w.store) :
    CoversTargets id cs v := by
  rw [CoversTargets, hv]
  exact h

end Estate

/-- Nothing but rows is left of the trigger, and the removals include those of the rows of
its targets. -/
structure World.Bare (naming : ResourceNaming) (id : TriggerId) (cs : List Call) (w : World) :
    Prop where
  rules : CoversRules naming id [] w
  topics : CoversTopics naming id [] w
  targets : CoversTargets id cs w

namespace Lifecycle

section Clears

variable {naming : ResourceNaming} {fails : Call -> ServiceError -> Prop} {id : TriggerId}
  {cs targets : List Call}

theorem ofEstate_bare (cs : List Call) : OfEstate naming id (World.Bare naming id cs) :=
  fun w v hv h => ⟨ofEstate_coversRules [] w v hv h.rules, ofEstate_coversTopics [] w v hv h.topics,
    ofEstate_coversTargets cs w v hv h.targets⟩

def Failing (fails : Call -> ServiceError -> Prop) : Prop :=
  exists c cause, fails c cause

theorem removeAll_strips {K : List Call -> World -> Prop}
    (hfails : forall c e, fails c e -> e.isAbsence = false)
    (hK : forall cs, OfEstate naming id (K cs))
    (hstep : forall c cs v u, u.store = v.store ->
      (CoversRules naming id (c :: cs) v -> CoversRules naming id cs u) ->
      (CoversTopics naming id (c :: cs) v -> CoversTopics naming id cs u) ->
      v.Reduced u -> K (c :: cs) v -> K cs u)
    (hstrips : forall c, c ∈ cs -> c.Strips) :
    Operation.Triple (deleting naming fails anyCall id) (fun _ => K cs) (removeAll cs)
      (fun _ _ => K []) fun _ _ _ => Failing fails := by
  let P : List Call -> World -> Prop := fun cs w => K cs w ∧ forall c, c ∈ cs -> Call.Strips c
  have hall : Operation.Triple (deleting naming fails anyCall id) (fun _ => P cs) (removeAll cs)
      (fun _ _ => P []) fun _ _ _ => Failing fails := by
    apply Operation.Triple.removeAll (P := P)
    · exact fun _ _ _ => trivial
    · exact hfails
    · exact fun cs _ w v h hv => ⟨hK cs w v hv h.1, h.2⟩
    · exact fun c _ e _ _ he => ⟨c, e, he⟩
    · intro c cs v h hv
      have hstart : Stripping v (c :: cs) v := ⟨.refl v, rfl, h.2⟩
      rcases hstart.step hv.integrity naming id with
        ⟨u, hcleared, hreduced, hu, hrules, htopics⟩
      exact ⟨u, hcleared, hstep c cs v u hu.store hrules htopics hreduced h.1, hu.strips⟩
  apply hall.consequence
  · exact fun _ _ h => ⟨h, hstrips⟩
  · exact fun _ _ _ h => h.1
  · exact fun _ _ _ h => h

theorem removeResources_bare (hfails : forall c e, fails c e -> e.isAbsence = false) :
    Operation.Triple (deleting naming fails anyCall id)
      (fun _ w => (CoversRules naming id (handleRemovals naming id) w ∧
        CoversTopics naming id (handleRemovals naming id) w) ∧ CoversTargets id targets w)
      (removeResources (naming.handles id)) (fun _ _ => World.Bare naming id targets)
      fun _ _ _ => Failing fails := by
  let K : List Call -> World -> Prop := fun cs w =>
    (CoversRules naming id cs w ∧ CoversTopics naming id cs w) ∧ CoversTargets id targets w
  have hall : Operation.Triple (deleting naming fails anyCall id)
      (fun _ => K (handleRemovals naming id))
      (removeResources (naming.handles id)) (fun _ _ => K []) fun _ _ _ => Failing fails := by
    apply removeAll_strips (K := K) hfails
    · exact fun cs => ((ofEstate_coversRules cs).and (ofEstate_coversTopics cs)).and
        (ofEstate_coversTargets targets)
    · exact fun c cs v u hu hrules htopics _ h =>
        ⟨⟨hrules h.1.1, htopics h.1.2⟩, h.2.of_store hu⟩
    · exact fun _ => strips_handleRemovals
  exact hall.post fun _ _ w h => ⟨h.1.1, h.1.2, h.2⟩

theorem removeLeftovers_bare (hfails : forall c e, fails c e -> e.isAbsence = false) :
    Operation.Triple (deleting naming fails anyCall id) (fun _ => CoversTargets id targets)
      (removeLeftovers naming id) (fun _ _ => World.Bare naming id targets)
      fun _ _ _ => Failing fails := by
  rw [removeLeftovers]
  apply Operation.Triple.bind (Q := fun (rules : List RuleInfo) _ w =>
    CoversRules naming id (ruleRemovals naming id rules) w ∧ CoversTargets id targets w)
  · apply Operation.Triple.question (c := .listRules) (fun _ _ => trivial)
      (fun w => w.engine.rulesByName)
    · exact fun w => rfl
    · exact (ofEstate_coversTargets targets).stable
    · exact fun e _ _ he => ⟨_, e, he⟩
    · exact fun w h _ => ⟨covers_ruleRemovals naming id w, h⟩
  intro rules
  apply Operation.Triple.bind (Q := fun _ _ w =>
    CoversRules naming id [] w ∧ CoversTargets id targets w)
  · apply removeAll_strips (K := fun cs w =>
      CoversRules naming id cs w ∧ CoversTargets id targets w) hfails
    · exact fun cs => (ofEstate_coversRules cs).and (ofEstate_coversTargets targets)
    · exact fun c cs v u hu hrules _ _ h => ⟨hrules h.1, h.2.of_store hu⟩
    · exact fun _ => strips_ruleRemovals
  intro _
  apply Operation.Triple.bind (Q := fun (topics : List Topic) _ w =>
    CoversTopics naming id (topicRemovals naming id topics) w ∧
      CoversRules naming id [] w ∧ CoversTargets id targets w)
  · apply Operation.Triple.question (c := .listTopics) (fun _ _ => trivial)
      (fun w => w.broker.topicsByName)
    · exact fun w => rfl
    · exact ((ofEstate_coversRules []).and (ofEstate_coversTargets targets)).stable
    · exact fun e _ _ he => ⟨_, e, he⟩
    · exact fun w h _ => ⟨covers_topicRemovals naming id w, h⟩
  intro topics
  apply Operation.Triple.post (Q := fun _ _ w =>
    CoversTopics naming id [] w ∧ CoversRules naming id [] w ∧ CoversTargets id targets w)
  · apply removeAll_strips (K := fun cs w =>
      CoversTopics naming id cs w ∧ CoversRules naming id [] w ∧ CoversTargets id targets w)
      hfails
    · exact fun cs => (ofEstate_coversTopics cs).and
        ((ofEstate_coversRules []).and (ofEstate_coversTargets targets))
    · intro c cs v u hu _ htopics hreduced h
      exact ⟨htopics h.1, h.2.1.reduced hreduced, h.2.2.of_store hu⟩
    · exact fun _ => strips_topicRemovals
  · exact fun _ _ w h => ⟨h.2.1, h.1, h.2.2⟩

theorem unsubscribeAll_bare (rows : List Target) :
    Operation.Triple (deleting naming fails anyCall id) (fun _ => World.Bare naming id targets)
      (unsubscribeAll rows) (fun _ _ => World.Bare naming id targets)
      fun _ _ _ => Failing fails := by
  induction rows with
  | nil => exact Operation.Triple.pure fun _ _ h => h
  | cons row rows ih =>
      apply Operation.Triple.bind (Q := fun _ _ => World.Bare naming id targets)
      · apply Operation.Triple.ofSaga
        intro st w h v hv _
        have h := ofEstate_bare targets w v hv h
        refine ⟨trivial, fun e _ => h, ?_⟩
        show World.Bare naming id targets ((Call.unsubscribe row.subscription).perform _).2
        rw [(Call.clears_unsubscribe row.subscription _).perform_eq]
        exact ⟨h.rules, h.topics, h.targets⟩
      · exact fun _ => ih

/-- The rows of the targets are deleted before the row of their trigger, which the store would
keep otherwise. -/
theorem deleteRows_clears (hfails : forall c e, fails c e -> e.isAbsence = false)
    (rows : List Target) :
    Operation.Triple (deleting naming fails anyCall id)
      (fun _ => World.Bare naming id (rows.map fun r => .deleteTarget r.id)) (deleteRows id rows)
      (fun _ _ w => w.Fresh naming id) fun _ _ _ => Failing fails := by
  let K : List Call -> World -> Prop := fun cs w =>
    World.Bare naming id cs w ∧ forall c, c ∈ cs -> exists target, c = Call.deleteTarget target
  rw [deleteRows, removeAll_append]
  apply Operation.Triple.bind (Q := fun _ _ => K [])
  · apply Operation.Triple.pre (P := fun _ => K (rows.map fun r => .deleteTarget r.id))
    · apply Operation.Triple.removeAll (P := K) (fun _ _ _ => trivial) hfails
      · exact fun cs _ w v h hv => ⟨ofEstate_bare cs w v hv h.1, h.2⟩
      · exact fun c _ e _ _ he => ⟨c, e, he⟩
      · intro c cs w h _
        rcases h.2 c List.mem_cons_self with ⟨target, rfl⟩
        refine ⟨_, Call.clears_deleteTarget target w, ⟨?_, ?_, ?_⟩, ?_⟩
        · exact h.1.rules
        · exact h.1.topics
        · intro r hr htrigger
          rcases List.mem_filter.mp hr with ⟨hr, hother⟩
          rcases List.mem_cons.mp (h.1.targets r hr htrigger) with heq | hmem
          · cases heq
            simp at hother
          · exact hmem
        · exact fun d hd => h.2 d (List.mem_cons_of_mem _ hd)
    · refine fun _ w h => ⟨h, ?_⟩
      intro c hc
      rcases List.mem_map.mp hc with ⟨r, _, rfl⟩
      exact ⟨r.id, rfl⟩
  intro _
  apply Operation.Triple.bind (Q := fun _ _ w => w.Fresh naming id)
  · apply Operation.Triple.removal (fun _ _ _ => trivial) hfails
    · exact fun _ w v h hv => ⟨ofEstate_bare [] w v hv h.1, h.2⟩
    · exact fun e _ _ he => ⟨_, e, he⟩
    · intro w h _
      have hnone : forall r, r ∈ w.store.targets -> r.trigger ≠ id :=
        fun r hr htrigger => absurd (h.1.targets r hr htrigger) List.not_mem_nil
      refine ⟨_, Call.clears_deleteTrigger hnone, ?_, ?_, ?_⟩
      · exact fun t ht => by simpa using (List.mem_filter.mp ht).2
      · exact fun t ht howner => absurd (h.1.topics t ht howner) List.not_mem_nil
      · exact fun r hr howner => absurd (h.1.rules r hr howner) List.not_mem_nil
  · exact fun _ => Operation.Triple.pure fun _ _ h => h

theorem listTargets_covers :
    Operation.Triple (deleting naming fails anyCall id) (fun _ _ => True) (.ask (.listTargets id))
      (fun (targets : List Target) _ w =>
        (CoversRules naming id (handleRemovals naming id) w ∧
          CoversTopics naming id (handleRemovals naming id) w) ∧
          CoversTargets id (targets.map fun r => .deleteTarget r.id) w)
      fun _ _ _ => Failing fails := by
  apply Operation.Triple.question (c := .listTargets id) (fun _ _ => trivial)
    (fun w => w.store.targetsOf id)
  · exact fun w => rfl
  · exact fun _ _ _ _ _ => trivial
  · exact fun e _ _ he => ⟨_, e, he⟩
  · intro w _ hw
    refine ⟨covers_handles hw.integrity hw.named id, ?_⟩
    intro r hr htrigger
    exact List.mem_map.mpr ⟨r, Store.mem_targetsOf.mpr ⟨hr, htrigger⟩, rfl⟩

/-- A deletion that ends well leaves nothing of its trigger.  One that found the row of its
owner fails only where a call fails. -/
theorem deleteOwned_clears (hfails : forall c e, fails c e -> e.isAbsence = false)
    {user : UserId} {found : Option Trigger}
    (hmine : forall t, found = some t -> t.user = user ∧ t.id = id) :
    Operation.Triple (deleting naming fails anyCall id)
      (fun _ w => forall t, found = some t -> t ∈ w.store.triggers)
      (deleteOwned naming user id) (fun _ _ w => w.Fresh naming id)
      fun _ _ _ => found.isSome = true -> Failing fails := by
  rw [deleteOwned]
  have hread : Operation.Triple (deleting naming fails anyCall id)
      (fun _ w => forall t, found = some t -> t ∈ w.store.triggers) (.ask (.getTrigger id))
      (fun (row : Option Trigger) _ _ => True ∧
        (forall t, found = some t -> row = some t) ∧
        forall t, row = some t ->
          forall handles, t.handles = some handles -> handles = naming.handles id)
      fun _ _ _ => found.isSome = true -> Failing fails := by
    apply Operation.Triple.question (c := .getTrigger id) (fun _ _ => trivial)
      (fun w => w.store.trigger? id)
    · exact fun w => rfl
    · exact fun _ w v h hv t ht => ofEstate_row (hmine t ht).2 w v hv (h t ht)
    · exact fun e _ _ he _ => ⟨_, e, he⟩
    · intro w h hw
      refine ⟨trivial, ?_, ?_⟩
      · intro t ht
        rw [← (hmine t ht).2]
        exact hw.integrity.store.trigger?_eq_some (h t ht)
      · intro t ht handles hhandles
        rcases Store.trigger?_eq_some ht with ⟨hmem, hid⟩
        rw [← hid]
        exact hw.handles t hmem handles hhandles
  apply Operation.Triple.bind_given hread
  rintro row ⟨hrow, hhandles⟩
  have hfound : Operation.Triple (deleting naming fails anyCall id) (fun _ _ => True)
      (.orFail (row.filter (·.user == user)) (noTrigger id)) (fun t _ _ => True ∧ row = some t)
      fun _ _ _ => found.isSome = true -> Failing fails := by
    apply Operation.Triple.orFail
    · intro t ht _ _ _
      exact ⟨trivial, Option.eq_some_of_filter_eq_some ht⟩
    · intro hnone _ _ _ hsome
      rcases Option.isSome_iff_exists.mp hsome with ⟨t, ht⟩
      rw [hrow t ht] at hnone
      simp [Option.filter, (hmine t ht).1] at hnone
  apply Operation.Triple.bind_given hfound
  intro t ht
  apply Operation.Triple.consequence (P := fun _ _ => True) (Q := fun _ _ w => w.Fresh naming id)
    (E := fun _ _ _ => Failing fails) _ (fun _ _ h => h) (fun _ _ _ h => h) fun _ _ _ h _ => h
  apply Operation.Triple.bind listTargets_covers
  intro targets
  cases hprovisioned : t.handles with
  | some handles =>
      rw [hhandles t ht handles hprovisioned]
      apply Operation.Triple.bind (removeResources_bare hfails)
      exact fun _ => deleteRows_clears hfails targets
  | none =>
      apply Operation.Triple.bind ((removeLeftovers_bare hfails).pre fun _ _ h => h.2)
      intro _
      apply Operation.Triple.bind (unsubscribeAll_bare targets)
      exact fun _ => deleteRows_clears hfails targets

end Clears
end Lifecycle

/-!
# The whole deletion
-/

def Lifecycle.deletion (naming : ResourceNaming) (user : UserId) (id : TriggerId) :
    Saga (Except TriggerError Answer) :=
  (Lifecycle.deleteOwned naming user id >>= fun _ => pure Answer.deleted).run

/-- What a deletion may do under its lock, and what it may end in. -/
structure Terms where
  allowed : Call -> Prop
  wins : World -> Prop
  refuses : TriggerError -> Prop

def Terms.ends (terms : Terms) : Except TriggerError Answer -> Assertion
  | .ok answer => fun _ w => answer = .deleted ∧ terms.wins w
  | .error e => fun _ _ => terms.refuses e

section Terms

variable {naming : ResourceNaming} {fails : Call -> ServiceError -> Prop} {id : TriggerId}
  {user : UserId}

theorem deletion_clears (found : Option Trigger)
    (hfails : forall c e, fails c e -> e.isAbsence = false)
    (hmine : forall t, found = some t -> t.user = user ∧ t.id = id)
    {wins : World -> Prop} {refuses : TriggerError -> Prop}
    (hwins : forall w, w.Fresh naming id -> wins w)
    (hrefuses : forall e, (found.isSome = true -> Lifecycle.Failing fails) -> refuses e) :
    (Lifecycle.deletion naming user id).Triple (deleting naming fails anyCall id)
      (fun _ w => forall t, found = some t -> t ∈ w.store.triggers)
      (Terms.ends ⟨anyCall, wins, refuses⟩) := by
  have hclears : Operation.Triple (deleting naming fails anyCall id)
      (fun _ w => forall t, found = some t -> t ∈ w.store.triggers)
      (Lifecycle.deleteOwned naming user id >>= fun _ => pure Answer.deleted)
      (fun answer _ w => answer = Answer.deleted ∧ w.Fresh naming id)
      fun _ _ _ => found.isSome = true -> Lifecycle.Failing fails :=
    (Lifecycle.deleteOwned_clears hfails hmine).bind fun _ =>
      Operation.Triple.pure fun _ _ h => ⟨rfl, h⟩
  apply hclears.meets.consequence
  · exact fun _ _ h => h
  · intro r st w h
    cases r with
    | ok answer => exact ⟨h.1, hwins w h.2⟩
    | error e => exact hrefuses e h

theorem deletion_refused (terms : Terms) (hreads : forall c, c.Reads -> terms.allowed c)
    (hmissing : terms.refuses (Lifecycle.noTrigger id))
    (hfailed : forall c e, fails c e -> terms.refuses (c.service.failure e)) :
    (Lifecycle.deletion naming user id).Triple (deleting naming fails terms.allowed id)
      (fun _ w => w.Fresh naming id) terms.ends := by
  have hrefused : Operation.Triple (deleting naming fails terms.allowed id)
      (fun _ w => w.Fresh naming id)
      (Lifecycle.deleteOwned naming user id >>= fun _ => pure Answer.deleted)
      (fun answer => terms.ends (.ok answer)) fun e => terms.ends (.error e) := by
    have hread : Operation.Triple (deleting naming fails terms.allowed id)
        (fun _ w => w.Fresh naming id) (.ask (.getTrigger id))
        (fun (row : Option Trigger) _ _ => True ∧ row = none) fun e => terms.ends (.error e) := by
      apply Operation.Triple.question (c := .getTrigger id) (E := fun e _ => terms.refuses e)
        (fun _ _ => hreads (.getTrigger id) trivial) (fun w => w.store.trigger? id)
      · exact fun w => rfl
      · exact World.ofEstate_fresh.stable
      · exact fun e _ _ he => hfailed _ e he
      · exact fun w h _ => ⟨trivial, List.find?_eq_none.mpr fun t ht => by simpa using h.row t ht⟩
    rw [Lifecycle.deleteOwned]
    apply Operation.Triple.bind (Q := fun _ _ _ => False)
    · apply Operation.Triple.bind_given hread
      rintro row rfl
      apply Operation.Triple.bind (Q := fun _ _ _ => False)
      · apply Operation.Triple.orFail
        · intro t ht
          cases ht
        · exact fun _ _ _ _ => hmissing
      · exact fun _ => ⟨fun _ _ h => h.elim⟩
    · exact fun _ => ⟨fun _ _ h => h.elim⟩
  apply hrefused.meets.consequence
  · exact fun _ _ h => h
  · intro r st w h
    cases r with
    | ok answer => exact h
    | error e => exact h

end Terms
end TelemetryTriggers
