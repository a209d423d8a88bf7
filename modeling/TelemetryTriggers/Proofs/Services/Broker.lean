import TelemetryTriggers.Proofs.Naming
import TelemetryTriggers.Proofs.Services.Store

/-!
# Integrity of the broker and the rule engine

Topics and rules correspond one to one with their names, the handle of a
subscription begins with the handle of its topic, and no subscription outlives its
topic.  Every operation of the two services keeps this.
-/

namespace TelemetryTriggers
namespace Broker

/-!
# What each operation of the broker does
-/

theorem hasTopic_iff {b : Broker} {topic : TopicHandle} :
    b.hasTopic topic = true ↔ exists t, t ∈ b.topics ∧ t.handle = topic := by
  simp [hasTopic]

theorem mem_topicsByName {b : Broker} {t : Topic} : t ∈ b.topicsByName ↔ t ∈ b.topics := by
  rw [topicsByName, List.mem_mergeSort]

theorem createTopic_cases (b : Broker) (name : String) :
    (b.hasTopic (handleFor name) = true ∧ b.createTopic name = b) ∨
      (b.hasTopic (handleFor name) = false ∧
        b.createTopic name =
          { b with topics := b.topics ++ [⟨name, handleFor name⟩] }) := by
  unfold createTopic
  split
  · rename_i htopic
    exact Or.inl ⟨htopic, rfl⟩
  · rename_i htopic
    exact Or.inr ⟨by simpa using htopic, rfl⟩

theorem deleteTopic_eq_ok {b b' : Broker} {topic : TopicHandle}
    (h : b.deleteTopic topic = .ok b') :
    b' = { b with
      topics := b.topics.filter (·.handle != topic)
      subscriptions := b.subscriptions.filter (·.topic != topic) } := by
  unfold deleteTopic at h
  split at h
  · cases h
    rfl
  · cases h

theorem subscribe_eq_ok {b b' : Broker} {topic : TopicHandle}
    {protocol endpoint : String} {suffix : Uuid} {handle : SubscriptionHandle}
    (h : b.subscribe topic protocol endpoint suffix = .ok (handle, b')) :
    b.hasTopic topic = true ∧ handle = subscriptionHandle topic suffix ∧
      b' = { b with
        subscriptions := b.subscriptions.filter (·.handle != handle) ++
          [⟨handle, topic, protocol, endpoint⟩] } := by
  unfold subscribe at h
  split at h
  · cases h
  · split at h
    · cases h
    · rename_i htopic
      cases h
      exact ⟨by simpa using htopic, rfl, rfl⟩

theorem unsubscribe_eq_ok {b b' : Broker} {subscription : SubscriptionHandle}
    (h : b.unsubscribe subscription = .ok b') :
    b' = { b with
      subscriptions := b.subscriptions.filter (·.handle != subscription) } := by
  unfold unsubscribe at h
  split at h
  · cases h
    rfl
  · cases h

/-!
# Integrity of the broker
-/

structure Integrity (b : Broker) : Prop where
  named : forall topic, topic ∈ b.topics -> topic.handle = handleFor topic.name
  topic_handles : (b.topics.map (·.handle)).Nodup
  suffixed : forall s, s ∈ b.subscriptions ->
    exists u, s.handle = subscriptionHandle s.topic u
  subscription_handles : (b.subscriptions.map (·.handle)).Nodup
  live : forall s, s ∈ b.subscriptions -> b.hasTopic s.topic = true

theorem integrity_empty : Broker.empty.Integrity where
  named := by
    intro topic htopic
    cases htopic
  topic_handles := List.nodup_nil
  suffixed := by
    intro s hs
    cases hs
  subscription_handles := List.nodup_nil
  live := by
    intro s hs
    cases hs

namespace Integrity

variable {b b' : Broker}

theorem createTopic (h : b.Integrity) (name : String) :
    (b.createTopic name).Integrity := by
  rcases createTopic_cases b name with ⟨_, heq⟩ | ⟨hfree, heq⟩
  · rw [heq]
    exact h
  · rw [heq]
    refine ⟨?_, ?_, h.suffixed, h.subscription_handles, ?_⟩
    · intro topic htopic
      rcases List.mem_append.mp htopic with hold | hnew
      · exact h.named topic hold
      · rw [List.mem_singleton.mp hnew]
    · apply nodup_map_concat h.topic_handles
      intro topic htopic hhandle
      rw [hasTopic_iff.mpr ⟨topic, htopic, hhandle⟩] at hfree
      cases hfree
    · intro s hs
      rcases hasTopic_iff.mp (h.live s hs) with ⟨topic, htopic, hhandle⟩
      exact hasTopic_iff.mpr ⟨topic, List.mem_append_left _ htopic, hhandle⟩

theorem deleteTopic {topic : TopicHandle} (h : b.Integrity)
    (hb : b.deleteTopic topic = .ok b') : b'.Integrity := by
  rcases deleteTopic_eq_ok hb with rfl
  refine ⟨?_, nodup_map_filter h.topic_handles _, ?_,
    nodup_map_filter h.subscription_handles _, ?_⟩
  · intro t ht
    exact h.named t (List.mem_of_mem_filter ht)
  · intro s hs
    exact h.suffixed s (List.mem_of_mem_filter hs)
  · intro s hs
    rcases List.mem_filter.mp hs with ⟨hold, hother⟩
    rcases hasTopic_iff.mp (h.live s hold) with ⟨t, ht, hhandle⟩
    refine hasTopic_iff.mpr ⟨t, List.mem_filter.mpr ⟨ht, ?_⟩, hhandle⟩
    rw [hhandle]
    exact hother

theorem subscribe {topic : TopicHandle} {protocol endpoint : String} {suffix : Uuid}
    {handle : SubscriptionHandle} (h : b.Integrity)
    (hb : b.subscribe topic protocol endpoint suffix = .ok (handle, b')) :
    b'.Integrity := by
  rcases subscribe_eq_ok hb with ⟨htopic, hhandle, rfl⟩
  refine ⟨h.named, h.topic_handles, ?_, ?_, ?_⟩
  · intro s hs
    rcases List.mem_append.mp hs with hold | hnew
    · exact h.suffixed s (List.mem_of_mem_filter hold)
    · rw [List.mem_singleton.mp hnew]
      exact ⟨suffix, hhandle⟩
  · apply nodup_map_concat (nodup_map_filter h.subscription_handles _)
    intro s hs
    simpa using (List.mem_filter.mp hs).2
  · intro s hs
    rcases List.mem_append.mp hs with hold | hnew
    · exact h.live s (List.mem_of_mem_filter hold)
    · rw [List.mem_singleton.mp hnew]
      exact htopic

theorem unsubscribe {subscription : SubscriptionHandle} (h : b.Integrity)
    (hb : b.unsubscribe subscription = .ok b') : b'.Integrity := by
  rcases unsubscribe_eq_ok hb with rfl
  refine ⟨h.named, h.topic_handles, ?_, nodup_map_filter h.subscription_handles _, ?_⟩
  · intro s hs
    exact h.suffixed s (List.mem_of_mem_filter hs)
  · intro s hs
    exact h.live s (List.mem_of_mem_filter hs)

theorem publish (h : b.Integrity) (topic : TopicHandle) (message : String) :
    (b.publish topic message).2.Integrity :=
  ⟨h.named, h.topic_handles, h.suffixed, h.subscription_handles, h.live⟩

end Integrity
end Broker

namespace RuleEngine

/-!
# What each operation of the rule engine does
-/

theorem mem_rulesByName {e : RuleEngine} {info : RuleInfo} :
    info ∈ e.rulesByName ↔ exists rule, rule ∈ e.rules ∧ RuleEngine.info rule = info := by
  rw [rulesByName, List.mem_mergeSort, List.mem_map]

theorem installRule_eq_ok {e e' : RuleEngine} {name : String} {predicate : Predicate}
    {topic : TopicHandle} {handle : RuleHandle}
    (h : e.installRule name predicate topic = .ok (handle, e')) :
    (forall rule, rule ∈ e.rules -> rule.handle ≠ handleFor name) ∧
      handle = handleFor name ∧
      e' = ⟨e.rules ++ [⟨handleFor name, name, predicate, topic⟩]⟩ := by
  unfold installRule at h
  simp only at h
  split at h
  · cases h
  · rename_i hfree
    cases h
    refine ⟨?_, rfl, rfl⟩
    intro rule hrule hhandle
    apply hfree
    exact List.any_eq_true.mpr ⟨rule, hrule, by simp [hhandle]⟩

theorem removeRule_eq_ok {e e' : RuleEngine} {rule : RuleHandle}
    (h : e.removeRule rule = .ok e') :
    e' = ⟨e.rules.filter (·.handle != rule)⟩ := by
  unfold removeRule at h
  split at h
  · cases h
    rfl
  · cases h

/-!
# Integrity of the rule engine
-/

structure Integrity (e : RuleEngine) : Prop where
  named : forall rule, rule ∈ e.rules -> rule.handle = handleFor rule.name
  handles : (e.rules.map (·.handle)).Nodup

theorem integrity_empty : RuleEngine.empty.Integrity where
  named := by
    intro rule hrule
    cases hrule
  handles := List.nodup_nil

namespace Integrity

variable {e e' : RuleEngine}

theorem installRule {name : String} {predicate : Predicate} {topic : TopicHandle}
    {handle : RuleHandle} (h : e.Integrity)
    (he : e.installRule name predicate topic = .ok (handle, e')) : e'.Integrity := by
  rcases installRule_eq_ok he with ⟨hfree, _, rfl⟩
  refine ⟨?_, nodup_map_concat h.handles hfree⟩
  intro rule hrule
  rcases List.mem_append.mp hrule with hold | hnew
  · exact h.named rule hold
  · rw [List.mem_singleton.mp hnew]

theorem removeRule {rule : RuleHandle} (h : e.Integrity)
    (he : e.removeRule rule = .ok e') : e'.Integrity := by
  rcases removeRule_eq_ok he with rfl
  refine ⟨?_, nodup_map_filter h.handles _⟩
  intro r hr
  exact h.named r (List.mem_of_mem_filter hr)

theorem rule?_eq_some (h : e.Integrity) {rule : Rule} (hrule : rule ∈ e.rules) :
    e.rule? rule.handle = some rule := by
  unfold RuleEngine.rule?
  cases hfind : e.rules.find? (·.handle == rule.handle) with
  | none =>
      have hnot := List.find?_eq_none.mp hfind rule hrule
      simp at hnot
  | some found =>
      have hhandle : found.handle = rule.handle := by
        simpa using List.find?_some hfind
      exact congrArg some (List.inj_on_of_nodup_map h.handles
        (List.mem_of_find?_eq_some hfind) hrule hhandle)

end Integrity
end RuleEngine
end TelemetryTriggers
