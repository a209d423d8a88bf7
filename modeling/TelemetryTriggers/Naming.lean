import TelemetryTriggers.Error
import TelemetryTriggers.Text.Pattern

/-!
# Names of topics and rules

The topic and the rule of a trigger are named after the trigger's identifier, so
a resource that was left behind can be traced to its trigger.

Main definitions: `ResourceNaming`; `topicName` and `ruleName`; `triggerForTopic?`
and `triggerForRule?`, which read the trigger back from a name.
-/

namespace TelemetryTriggers

structure ResourceNaming where
  topicStart : String
  ruleStart : String
deriving DecidableEq

namespace ResourceNaming

def standard : ResourceNaming :=
  ⟨"trigger-", "trigger_"⟩

def isTopicChar (c : Char) : Bool :=
  c.isAlphanum || c == '_' || c == '-'

def maxStartLength : Nat :=
  64

def isTopicStart (s : String) : Bool :=
  Text.consistsOf isTopicChar 1 maxStartLength s.toList

def isRuleStart (s : String) : Bool :=
  Text.startsThen Char.isAlpha Text.isWordChar s.toList &&
    decide (s.length ≤ maxStartLength)

def validate (naming : ResourceNaming) : Except TriggerError Unit :=
  if isTopicStart naming.topicStart = false then
    .error (.config (.badTopicPrefix naming.topicStart))
  else if isRuleStart naming.ruleStart = false then
    .error (.config (.badRulePrefix naming.ruleStart))
  else
    .ok ()

def topicName (naming : ResourceNaming) (id : TriggerId) : String :=
  naming.topicStart ++ id.uuid.hyphenated

/-- The name of a trigger's rule, which must not hold hyphens. -/
def ruleName (naming : ResourceNaming) (id : TriggerId) : String :=
  naming.ruleStart ++ id.uuid.simple

/-- The identifier that a name holds after a given beginning, in any spelling. -/
def idAfter? (start name : String) : Option TriggerId :=
  (Text.stripStart start.toList name.toList).bind fun rest =>
    (Uuid.parseChars? rest).map TriggerId.mk

def triggerForTopic? (naming : ResourceNaming) (name : String) : Option TriggerId :=
  idAfter? naming.topicStart name

def triggerForRule? (naming : ResourceNaming) (name : String) : Option TriggerId :=
  idAfter? naming.ruleStart name

end ResourceNaming
end TelemetryTriggers
