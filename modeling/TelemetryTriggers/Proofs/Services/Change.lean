import TelemetryTriggers.Proofs.Services.World

/-!
# What a call can change

For each kind of row and resource there is one lemma that lists the calls that change it,
with what they make of it.
-/

namespace TelemetryTriggers
namespace Call

theorem store_perform {c : Call} {w : World} (h : c.service ≠ .store) :
    (c.perform w).2.store = w.store := by
  rcases hperform : c.perform w with ⟨reply, v⟩
  cases performed hperform with
  | insertTrigger | setHandles | deleteTrigger | insertTarget | deleteTarget =>
      exact absurd rfl h
  | _ => rfl

theorem triggers_perform (c : Call) (w : World) :
    (c.perform w).2.store.triggers = w.store.triggers ∨
      (exists row, c = .insertTrigger row ∧
        (c.perform w).2.store.triggers = w.store.triggers ++ [row]) ∨
      (exists id handles, c = .setHandles id handles ∧
        (c.perform w).2.store.triggers = Store.withHandles id handles w.store.triggers) ∨
      (exists id, c = .deleteTrigger id ∧
        (c.perform w).2.store.triggers = w.store.triggers.filter (·.id != id)) := by
  rcases hperform : c.perform w with ⟨reply, v⟩
  cases performed hperform with
  | insertTrigger => exact Or.inr (Or.inl ⟨_, rfl, rfl⟩)
  | setHandles => exact Or.inr (Or.inr (Or.inl ⟨_, _, rfl, rfl⟩))
  | deleteTrigger => exact Or.inr (Or.inr (Or.inr ⟨_, rfl, rfl⟩))
  | _ => exact Or.inl rfl

theorem targets_perform (c : Call) (w : World) :
    (c.perform w).2.store.targets = w.store.targets ∨
      (exists row, c = .insertTarget row ∧
        (c.perform w).2.store.targets = w.store.targets ++ [row]) ∨
      (exists id, c = .deleteTarget id ∧
        (c.perform w).2.store.targets = w.store.targets.filter (·.id != id)) := by
  rcases hperform : c.perform w with ⟨reply, v⟩
  cases performed hperform with
  | insertTarget => exact Or.inr (Or.inl ⟨_, rfl, rfl⟩)
  | deleteTarget => exact Or.inr (Or.inr ⟨_, rfl, rfl⟩)
  | _ => exact Or.inl rfl

theorem topics_perform (c : Call) (w : World) :
    (c.perform w).2.broker.topics = w.broker.topics ∨
      (exists name, c = .createTopic name ∧
        (c.perform w).2.broker.topics =
          w.broker.topics ++ [⟨name, Broker.handleFor name⟩]) ∨
      (exists topic, c = .deleteTopic topic ∧
        (c.perform w).2.broker.topics = w.broker.topics.filter (·.handle != topic)) := by
  rcases hperform : c.perform w with ⟨reply, v⟩
  cases performed hperform with
  | createTopic => exact Or.inr (Or.inl ⟨_, rfl, rfl⟩)
  | deleteTopic => exact Or.inr (Or.inr ⟨_, rfl, rfl⟩)
  | _ => exact Or.inl rfl

theorem subscriptions_perform (c : Call) (w : World) :
    (c.perform w).2.broker.subscriptions = w.broker.subscriptions ∨
      (exists topic, c = .deleteTopic topic ∧
        (c.perform w).2.broker.subscriptions =
          w.broker.subscriptions.filter (·.topic != topic)) ∨
      (exists topic protocol endpoint u, c = .subscribe topic protocol endpoint ∧
        (c.perform w).2.broker.subscriptions =
          w.broker.subscriptions.filter (·.handle != Broker.subscriptionHandle topic u) ++
            [⟨Broker.subscriptionHandle topic u, topic, protocol, endpoint⟩]) ∨
      (exists handle, c = .unsubscribe handle ∧
        (c.perform w).2.broker.subscriptions =
          w.broker.subscriptions.filter (·.handle != handle)) := by
  rcases hperform : c.perform w with ⟨reply, v⟩
  cases performed hperform with
  | deleteTopic => exact Or.inr (Or.inl ⟨_, rfl, rfl⟩)
  | subscribe _ hhandle =>
      rcases hhandle with rfl
      exact Or.inr (Or.inr (Or.inl ⟨_, _, _, _, rfl, rfl⟩))
  | unsubscribe => exact Or.inr (Or.inr (Or.inr ⟨_, rfl, rfl⟩))
  | _ => exact Or.inl rfl

theorem rules_perform (c : Call) (w : World) :
    (c.perform w).2.engine.rules = w.engine.rules ∨
      (exists name predicate topic, c = .installRule name predicate topic ∧
        (c.perform w).2.engine.rules =
          w.engine.rules ++ [⟨RuleEngine.handleFor name, name, predicate, topic⟩]) ∨
      (exists rule, c = .removeRule rule ∧
        (c.perform w).2.engine.rules = w.engine.rules.filter (·.handle != rule)) := by
  rcases hperform : c.perform w with ⟨reply, v⟩
  cases performed hperform with
  | installRule => exact Or.inr (Or.inl ⟨_, _, _, rfl, rfl⟩)
  | removeRule => exact Or.inr (Or.inr ⟨_, rfl, rfl⟩)
  | _ => exact Or.inl rfl

theorem Reads.perform_eq {c : Call} (h : c.Reads) (w : World) : (c.perform w).2 = w := by
  cases c with
  | thingNamed _ | getTrigger _ | listTriggers _ | listAllTriggers | getTarget _
  | listTargets _ | listTopics | listRules => rfl
  | _ => cases h

/-- A call that makes the row of a trigger, its handles, its topic or its rule. -/
def Founds : Call -> Prop
  | insertTrigger _ => True
  | setHandles _ _ => True
  | createTopic _ => True
  | installRule _ _ _ => True
  | _ => False

theorem Reads.not_founds {c : Call} (h : c.Reads) : ¬ c.Founds := by
  cases c with
  | insertTrigger _ | setHandles _ _ | createTopic _ | installRule _ _ _ => exact h.elim
  | _ => exact fun hfounds => hfounds

/-- A call that makes something new: a row, its handles, a topic, a subscription or a rule. -/
def Adds : Call -> Prop
  | insertTarget _ => True
  | subscribe _ _ _ => True
  | c => c.Founds

theorem Founds.adds {c : Call} (h : c.Founds) : c.Adds := by
  cases c with
  | insertTarget _ | subscribe _ _ _ => trivial
  | _ => exact h

theorem Reads.not_adds {c : Call} (h : c.Reads) : ¬ c.Adds := by
  cases c with
  | insertTarget _ | subscribe _ _ _ => exact h.elim
  | _ => exact h.not_founds

theorem mem_triggers_of_perform {c : Call} (h : ¬ c.Founds) {w : World} {t : Trigger}
    (ht : t ∈ (c.perform w).2.store.triggers) : t ∈ w.store.triggers := by
  rcases c.triggers_perform w with heq | ⟨row, rfl, _⟩ | ⟨id, handles, rfl, _⟩ | ⟨id, rfl, heq⟩
  · rw [heq] at ht
    exact ht
  · exact absurd trivial h
  · exact absurd trivial h
  · rw [heq] at ht
    exact List.mem_of_mem_filter ht

theorem topic_origin {c : Call} {w : World} {t : Topic}
    (ht : t ∈ (c.perform w).2.broker.topics) :
    t ∈ w.broker.topics ∨
      exists name, c = .createTopic name ∧ t = ⟨name, Broker.handleFor name⟩ := by
  rcases c.topics_perform w with heq | ⟨name, hc, heq⟩ | ⟨topic, _, heq⟩
  · rw [heq] at ht
    exact Or.inl ht
  · rw [heq] at ht
    rcases List.mem_append.mp ht with hold | hnew
    · exact Or.inl hold
    · exact Or.inr ⟨name, hc, List.mem_singleton.mp hnew⟩
  · rw [heq] at ht
    exact Or.inl (List.mem_of_mem_filter ht)

theorem rule_origin {c : Call} {w : World} {r : Rule} (hr : r ∈ (c.perform w).2.engine.rules) :
    r ∈ w.engine.rules ∨ exists name predicate topic, c = .installRule name predicate topic ∧
      r = ⟨RuleEngine.handleFor name, name, predicate, topic⟩ := by
  rcases c.rules_perform w with heq | ⟨name, predicate, topic, hc, heq⟩ | ⟨handle, _, heq⟩
  · rw [heq] at hr
    exact Or.inl hr
  · rw [heq] at hr
    rcases List.mem_append.mp hr with hold | hnew
    · exact Or.inl hold
    · exact Or.inr ⟨name, predicate, topic, hc, List.mem_singleton.mp hnew⟩
  · rw [heq] at hr
    exact Or.inl (List.mem_of_mem_filter hr)

end Call
end TelemetryTriggers
