import TelemetryTriggers.Services.Broker
import TelemetryTriggers.Telemetry

/-!
# The rule engine

An installed rule publishes its predicate's message to a topic for each update
that the predicate selects.

Main definitions: `RuleEngine` and its operations; `RuleEngine.select`, the rules
that an update fires; `RuleEngine.dispatch`, their messages published.
-/

namespace TelemetryTriggers

structure Rule where
  handle : RuleHandle
  name : String
  predicate : Predicate
  topic : TopicHandle
deriving DecidableEq

structure RuleInfo where
  name : String
  handle : RuleHandle
  sqlVersion : String
deriving DecidableEq

structure RuleMatch where
  rule : RuleHandle
  topic : TopicHandle
  message : String
deriving DecidableEq

structure RuleEngine where
  rules : List Rule
deriving DecidableEq

namespace RuleEngine

def empty : RuleEngine :=
  ⟨[]⟩

def handleFor (name : String) : RuleHandle :=
  ⟨"arn:memory:iot:rule/" ++ name⟩

def rule? (e : RuleEngine) (rule : RuleHandle) : Option Rule :=
  e.rules.find? (·.handle == rule)

def hasRule (e : RuleEngine) (rule : RuleHandle) : Bool :=
  e.rules.any (·.handle == rule)

def installRule (e : RuleEngine) (name : String) (predicate : Predicate)
    (topic : TopicHandle) : Except ServiceError (RuleHandle × RuleEngine) :=
  let handle := handleFor name
  if e.hasRule handle then
    .error (.rejected ("rule " ++ name ++ " already exists"))
  else
    .ok (handle, ⟨e.rules ++ [⟨handle, name, predicate, topic⟩]⟩)

def removeRule (e : RuleEngine) (rule : RuleHandle) : Except ServiceError RuleEngine :=
  if e.hasRule rule then
    .ok ⟨e.rules.filter (·.handle != rule)⟩
  else
    .error (.notFound ("rule " ++ rule.text))

def info (rule : Rule) : RuleInfo :=
  ⟨rule.name, rule.handle, sqlVersion⟩

def rulesByName (e : RuleEngine) : List RuleInfo :=
  (e.rules.map info).mergeSort (fun r s => decide (r.name ≤ s.name))

def fired (rule : Rule) : RuleMatch :=
  ⟨rule.handle, rule.topic, rule.predicate.message⟩

/-- The rules that an update fires, in the order of their handles. -/
def select (e : RuleEngine) (u : ShadowUpdate) : List RuleMatch :=
  ((e.rules.filter fun rule => u.isSelectedBy rule.predicate).map fired).mergeSort
    (fun r s => decide (r.rule.text ≤ s.rule.text))

def publishAll : List RuleMatch → Broker → List Delivery × Broker
  | [], b => ([], b)
  | m :: ms, b =>
      let (made, b) := b.publish m.topic m.message
      let (more, b) := publishAll ms b
      (made ++ more, b)

def dispatch (e : RuleEngine) (u : ShadowUpdate) (b : Broker) : List Delivery × Broker :=
  publishAll (e.select u) b

end RuleEngine
end TelemetryTriggers
