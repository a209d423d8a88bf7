import Mathlib.Algebra.Ring.Nat
import TelemetryTriggers.Config
import TelemetryTriggers.Services.World

/-!
# Names lead back to triggers

A name that is made from the identifier of a trigger is read back as that
identifier, whatever it begins with, so resources of different triggers never
share a name.  A handle determines the name that it was made from, and the handle
of a subscription determines its topic.
-/

namespace TelemetryTriggers

/-!
# Identifiers

The two written forms of an identifier have different lengths, so the reader
never takes one for the other.
-/

namespace Uuid

theorem length_hyphenate (sizes : List Nat) (cs : List Char)
    (h : sizes.sum = cs.length) :
    (hyphenate sizes cs).length = cs.length + (sizes.length - 1) := by
  induction sizes generalizing cs with
  | nil => simp [hyphenate]
  | cons n sizes ih =>
      cases sizes with
      | nil => simp [hyphenate]
      | cons m sizes =>
          have hn : n ≤ cs.length := by
            rw [← h]
            simp
          have hrest : (m :: sizes).sum = (cs.drop n).length := by
            rw [List.length_drop, ← h, List.sum_cons (a := n)]
            omega
          rw [hyphenate, List.length_append, List.length_cons, ih _ hrest,
            List.length_take, List.length_drop, Nat.min_eq_left hn]
          simp only [List.length_cons]
          omega

theorem unhyphenate?_hyphenate (n : Nat) (sizes : List Nat) (cs : List Char)
    (h : (n :: sizes).sum = cs.length) :
    unhyphenate? (n :: sizes) (hyphenate (n :: sizes) cs) = some cs := by
  induction sizes generalizing n cs with
  | nil =>
      have hn : cs.length = n := by
        rw [← h]
        simp
      simp [hyphenate, unhyphenate?, hn]
  | cons m sizes ih =>
      have hn : n ≤ cs.length := by
        rw [← h]
        simp
      have hrest : (m :: sizes).sum = (cs.drop n).length := by
        rw [List.length_drop, ← h, List.sum_cons (a := n)]
        omega
      have htake : (cs.take n).length = n := by
        rw [List.length_take, Nat.min_eq_left hn]
      have hdrop : (hyphenate (n :: m :: sizes) cs).drop n =
          '-' :: hyphenate (m :: sizes) (cs.drop n) := by
        rw [hyphenate, List.drop_append_of_le_length (by omega), List.drop_of_length_le]
        · rfl
        · omega
      have hfront : (hyphenate (n :: m :: sizes) cs).take n = cs.take n := by
        rw [hyphenate, List.take_append_of_le_length (by omega), List.take_of_length_le]
        omega
      rw [unhyphenate?, hdrop]
      simp only [ih m _ hrest, hfront, Option.map_some, List.take_append_drop]

theorem sum_groups (u : Uuid) : groups.sum = u.digits.length := by
  rw [length_digits]
  rfl

theorem length_toList_hyphenated (u : Uuid) : u.hyphenated.toList.length = 36 := by
  rw [hyphenated, String.toList_ofList, length_hyphenate groups u.digits u.sum_groups,
    length_digits]
  rfl

theorem parseChars?_simple (u : Uuid) : parseChars? u.simple.toList = some u := by
  rw [simple, String.toList_ofList, parseChars?, simple?_digits]
  rfl

theorem parseChars?_hyphenated (u : Uuid) :
    parseChars? u.hyphenated.toList = some u := by
  have hsimple : simple? u.hyphenated.toList = none := by
    rw [simple?, if_neg]
    rw [length_toList_hyphenated]
    decide
  have hgroups : unhyphenate? groups u.hyphenated.toList = some u.digits := by
    rw [hyphenated, String.toList_ofList]
    exact unhyphenate?_hyphenate 8 [4, 4, 4, 12] u.digits u.sum_groups
  rw [parseChars?, hsimple]
  simp [hyphenated?, hgroups, simple?_digits]

theorem hyphenated_injective {u v : Uuid} (h : u.hyphenated = v.hyphenated) : u = v := by
  have hu := parseChars?_hyphenated u
  rw [h, parseChars?_hyphenated v] at hu
  exact (Option.some.inj hu).symm

end Uuid

/-!
# Names of topics and rules
-/

namespace ResourceNaming

theorem idAfter?_append {start text : String} {u : Uuid}
    (h : Uuid.parseChars? text.toList = some u) :
    idAfter? start (start ++ text) = some ⟨u⟩ := by
  rw [idAfter?, String.toList_append, Text.stripStart_append]
  simp [h]

@[simp] theorem triggerForTopic?_topicName (naming : ResourceNaming) (id : TriggerId) :
    naming.triggerForTopic? (naming.topicName id) = some id :=
  idAfter?_append id.uuid.parseChars?_hyphenated

@[simp] theorem triggerForRule?_ruleName (naming : ResourceNaming) (id : TriggerId) :
    naming.triggerForRule? (naming.ruleName id) = some id :=
  idAfter?_append id.uuid.parseChars?_simple

end ResourceNaming

/-!
# Handles
-/

theorem Broker.handleFor_injective {name other : String}
    (h : Broker.handleFor name = Broker.handleFor other) : name = other := by
  injection h with htext
  exact String.append_right_inj _ |>.mp htext

theorem RuleEngine.handleFor_injective {name other : String}
    (h : RuleEngine.handleFor name = RuleEngine.handleFor other) : name = other := by
  injection h with htext
  exact String.append_right_inj _ |>.mp htext

/-- The suffix of a subscription's handle has a fixed length, so the handle can be
cut in one way only. -/
theorem Broker.subscriptionHandle_inj {topic other : TopicHandle} {u v : Uuid}
    (h : Broker.subscriptionHandle topic u = Broker.subscriptionHandle other v) :
    topic = other ∧ u = v := by
  injection h with htext
  have hchars := congrArg String.toList htext
  simp only [String.toList_append] at hchars
  have hlength : u.hyphenated.toList.length = v.hyphenated.toList.length := by
    rw [u.length_toList_hyphenated, v.length_toList_hyphenated]
  rcases List.append_inj' hchars hlength with ⟨hfront, hsuffix⟩
  have htopic : topic.text.toList = other.text.toList :=
    List.append_cancel_right hfront
  constructor
  · cases topic
    cases other
    exact congrArg TopicHandle.mk (String.toList_inj.mp htopic)
  · exact Uuid.hyphenated_injective (String.toList_inj.mp hsuffix)

namespace ResourceNaming

def topicHandle (naming : ResourceNaming) (id : TriggerId) : TopicHandle :=
  Broker.handleFor (naming.topicName id)

def ruleHandle (naming : ResourceNaming) (id : TriggerId) : RuleHandle :=
  RuleEngine.handleFor (naming.ruleName id)

def triggerForHandle? (naming : ResourceNaming) (topic : TopicHandle) :
    Option TriggerId :=
  (Text.stripStart (Broker.handleFor "").text.toList topic.text.toList).bind fun name =>
    naming.triggerForTopic? (String.ofList name)

@[simp] theorem triggerForHandle?_handleFor (naming : ResourceNaming) (name : String) :
    naming.triggerForHandle? (Broker.handleFor name) = naming.triggerForTopic? name := by
  have hstrip : Text.stripStart (Broker.handleFor "").text.toList
      (Broker.handleFor name).text.toList = some name.toList := by
    simp only [Broker.handleFor, String.toList_append, String.toList_empty,
      List.append_nil, Text.stripStart_append]
  rw [triggerForHandle?, hstrip]
  simp

@[simp] theorem triggerForHandle?_topicHandle (naming : ResourceNaming)
    (id : TriggerId) : naming.triggerForHandle? (naming.topicHandle id) = some id := by
  rw [topicHandle, triggerForHandle?_handleFor, triggerForTopic?_topicName]

theorem topicHandle_injective {naming : ResourceNaming} {id other : TriggerId}
    (h : naming.topicHandle id = naming.topicHandle other) : id = other := by
  have hid := naming.triggerForHandle?_topicHandle id
  rw [h, triggerForHandle?_topicHandle] at hid
  exact (Option.some.inj hid).symm

theorem ruleHandle_injective {naming : ResourceNaming} {id other : TriggerId}
    (h : naming.ruleHandle id = naming.ruleHandle other) : id = other := by
  have hid := naming.triggerForRule?_ruleName id
  rw [RuleEngine.handleFor_injective h, triggerForRule?_ruleName] at hid
  exact (Option.some.inj hid).symm

end ResourceNaming
end TelemetryTriggers
