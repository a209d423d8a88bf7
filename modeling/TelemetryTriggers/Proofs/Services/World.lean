import TelemetryTriggers.Proofs.Services.Performed

/-!
# States that the services can reach

The services start empty, apart from registered devices, and change by calls with
any arguments, in any order, and by messages that are published.  Faults, locks and
the source of identifiers may be anything at any time.  The main statement is
`World.Reachable.integrity`: all three services keep their integrity.
-/

namespace TelemetryTriggers

/-!
# What the work of a call leaves alone
-/

namespace Call

theorem perform_rest (c : Call) (w : World) :
    (c.perform w).2.locks = w.locks ∧ (c.perform w).2.faults = w.faults ∧
      ((c.perform w).2.ids = w.ids ∨ (c.perform w).2.ids = w.ids.next.2) := by
  rcases hperform : c.perform w with ⟨reply, v⟩
  cases performed hperform with
  | subscribe => exact ⟨rfl, rfl, Or.inr rfl⟩
  | _ => exact ⟨rfl, rfl, Or.inl rfl⟩

@[simp] theorem perform_locks (c : Call) (w : World) :
    (c.perform w).2.locks = w.locks :=
  (c.perform_rest w).1

@[simp] theorem perform_faults (c : Call) (w : World) :
    (c.perform w).2.faults = w.faults :=
  (c.perform_rest w).2.1

theorem perform_ids (c : Call) (w : World) :
    (c.perform w).2.ids = w.ids ∨ (c.perform w).2.ids = w.ids.next.2 :=
  (c.perform_rest w).2.2

theorem perform_records (c : Call) (w : World) :
    (c.perform w).2.store.things = w.store.things ∧
      (c.perform w).2.broker.deliveries = w.broker.deliveries := by
  rcases hperform : c.perform w with ⟨reply, v⟩
  cases performed hperform with
  | _ => exact ⟨rfl, rfl⟩

theorem perform_error {c : Call} {w v : World} {e : ServiceError}
    (h : c.perform w = (.error e, v)) : v = w := by
  cases performed h with
  | refused => rfl

theorem perform_withFaults (c : Call) (w : World) (p : FaultPlan) :
    c.perform { w with faults := p } =
      ((c.perform w).1, { (c.perform w).2 with faults := p }) := by
  have hstore : forall r, onStore { w with faults := p } r =
      ((onStore w r).1, { (onStore w r).2 with faults := p }) := by
    intro r
    cases r with
    | error e => rfl
    | ok store => rfl
  have hbroker : forall r, onBroker { w with faults := p } r =
      ((onBroker w r).1, { (onBroker w r).2 with faults := p }) := by
    intro r
    cases r with
    | error e => rfl
    | ok broker => rfl
  have hengine : forall r, onEngine { w with faults := p } r =
      ((onEngine w r).1, { (onEngine w r).2 with faults := p }) := by
    intro r
    cases r with
    | error e => rfl
    | ok engine => rfl
  cases c with
  | subscribe topic protocol endpoint =>
      simp only [perform]
      split
      · rfl
      · rfl
  | installRule name predicate topic =>
      simp only [perform]
      split
      · rfl
      · rfl
  | _ => simp only [perform, hstore, hbroker, hengine]

/-!
# What an attempt comes to
-/

theorem attempt_cases (deadline : Option Nat) (c : Call) (w : World) :
    (exists e, c.attempt deadline w = (.error e, (c.start w).2)) ∨
      c.attempt deadline w = c.perform (c.start w).2 := by
  unfold attempt
  split
  · rename_i e started hstart
    exact Or.inl ⟨e, by rw [hstart]⟩
  · rename_i started hstart
    exact Or.inr (by rw [hstart])
  · rename_i millis started hstart
    rw [hstart]
    cases deadline with
    | none => exact Or.inr rfl
    | some limit =>
        by_cases hlate : limit < millis
        · exact Or.inl ⟨_, if_pos hlate⟩
        · exact Or.inr (if_neg hlate)

theorem attempt_error {deadline : Option Nat} {c : Call} {w : World} {e : ServiceError}
    (h : (c.attempt deadline w).1 = .error e) : (c.attempt deadline w).2 = (c.start w).2 := by
  rcases c.attempt_cases deadline w with ⟨cause, heq⟩ | heq
  · rw [heq]
  · rw [heq] at h ⊢
    exact perform_error (Prod.ext h rfl)

end Call

/-!
# Integrity of the services together
-/

namespace World

structure Integrity (w : World) : Prop where
  store : w.store.Integrity
  broker : w.broker.Integrity
  engine : w.engine.Integrity

theorem rows_ofThings (things : List Thing) (ids : IdSource) :
    (World.ofThings things ids).store.triggers = [] ∧
      (World.ofThings things ids).store.targets = [] := by
  have hrows : forall s : Store, s.triggers = [] ∧ s.targets = [] ->
      (things.foldl Store.addThing s).triggers = [] ∧
        (things.foldl Store.addThing s).targets = [] := by
    induction things with
    | nil => exact fun _ hs => hs
    | cons thing things ih => exact fun s hs => ih (s.addThing thing) hs
  exact hrows .empty ⟨rfl, rfl⟩

theorem integrity_ofThings (things : List Thing) (ids : IdSource) :
    (World.ofThings things ids).Integrity := by
  have hstore : forall s : Store, s.Integrity ->
      (things.foldl Store.addThing s).Integrity := by
    induction things with
    | nil =>
        intro s hs
        exact hs
    | cons thing things ih =>
        intro s hs
        exact ih _ (hs.addThing thing)
  exact ⟨hstore _ Store.integrity_empty, Broker.integrity_empty,
    RuleEngine.integrity_empty⟩

end World

theorem Call.integrity_perform (c : Call) {w : World} (h : w.Integrity) :
    (c.perform w).2.Integrity := by
  have hstore : forall r : Except ServiceError Store,
      (forall s, r = .ok s -> s.Integrity) -> (onStore w r).2.Integrity := by
    intro r hr
    cases r with
    | error e => exact h
    | ok s => exact ⟨hr s rfl, h.broker, h.engine⟩
  have hbroker : forall r : Except ServiceError Broker,
      (forall b, r = .ok b -> b.Integrity) -> (onBroker w r).2.Integrity := by
    intro r hr
    cases r with
    | error e => exact h
    | ok b => exact ⟨h.store, hr b rfl, h.engine⟩
  have hengine : forall r : Except ServiceError RuleEngine,
      (forall e, r = .ok e -> e.Integrity) -> (onEngine w r).2.Integrity := by
    intro r hr
    cases r with
    | error e => exact h
    | ok e => exact ⟨h.store, h.broker, hr e rfl⟩
  cases c with
  | insertTrigger row => exact hstore _ fun s hs => h.store.insertTrigger hs
  | setHandles id handles => exact hstore _ fun s hs => h.store.setHandles hs
  | deleteTrigger id => exact hstore _ fun s hs => h.store.deleteTrigger hs
  | insertTarget row => exact hstore _ fun s hs => h.store.insertTarget hs
  | deleteTarget id => exact hstore _ fun s hs => h.store.deleteTarget hs
  | createTopic name => exact ⟨h.store, h.broker.createTopic name, h.engine⟩
  | deleteTopic topic => exact hbroker _ fun b hb => h.broker.deleteTopic hb
  | unsubscribe subscription => exact hbroker _ fun b hb => h.broker.unsubscribe hb
  | removeRule rule => exact hengine _ fun e he => h.engine.removeRule he
  | subscribe topic protocol endpoint =>
      simp only [perform]
      split
      · rename_i handle broker hb
        exact ⟨h.store, h.broker.subscribe hb, h.engine⟩
      · exact h
  | installRule name predicate topic =>
      simp only [perform]
      split
      · rename_i handle engine he
        exact ⟨h.store, h.broker, h.engine.installRule he⟩
      · exact h
  | _ => exact h

/-!
# Reachable states
-/

/-- A state of the services that calls and messages can lead to. -/
inductive World.Reachable : World -> Prop
  | start (things : List Thing) (ids : IdSource) : Reachable (.ofThings things ids)
  | call {w : World} (c : Call) : Reachable w -> Reachable (c.perform w).2
  | publish {w : World} (topic : TopicHandle) (message : String) :
      Reachable w -> Reachable { w with broker := (w.broker.publish topic message).2 }
  | addThing {w : World} (thing : Thing) :
      Reachable w -> Reachable { w with store := w.store.addThing thing }
  | around {w : World} (faults : FaultPlan) (locks : LockTable) (ids : IdSource) :
      Reachable w -> Reachable { w with faults, locks, ids }

theorem World.Reachable.integrity {w : World} (h : w.Reachable) : w.Integrity := by
  induction h with
  | start things ids => exact integrity_ofThings things ids
  | call c _ ih => exact c.integrity_perform ih
  | publish topic message _ ih =>
      exact ⟨ih.store, ih.broker.publish topic message, ih.engine⟩
  | addThing thing _ ih => exact ⟨ih.store.addThing thing, ih.broker, ih.engine⟩
  | around faults locks ids _ ih => exact ⟨ih.store, ih.broker, ih.engine⟩

end TelemetryTriggers
