import TelemetryTriggers.Uuid

/-!
# Names of things, triggers and their resources

Accounts and devices are numbered by the services that own them.  Triggers and
targets have identifiers of their own.  Topics, rules and subscriptions are known
by the handles that the service gave them, which mean nothing outside it.
-/

namespace TelemetryTriggers

structure UserId where
  value : UInt64
deriving DecidableEq

structure ThingId where
  value : UInt64
deriving DecidableEq

structure TriggerId where
  uuid : Uuid
deriving DecidableEq

structure TargetId where
  uuid : Uuid
deriving DecidableEq

structure TopicHandle where
  text : String
deriving DecidableEq

structure RuleHandle where
  text : String
deriving DecidableEq

structure SubscriptionHandle where
  text : String
deriving DecidableEq

def UserId.text (id : UserId) : String :=
  toString id.value.toNat

def ThingId.text (id : ThingId) : String :=
  toString id.value.toNat

def TriggerId.text (id : TriggerId) : String :=
  id.uuid.hyphenated

def TargetId.text (id : TargetId) : String :=
  id.uuid.hyphenated

structure Thing where
  id : ThingId
  name : String
  owner : UserId
deriving DecidableEq

end TelemetryTriggers
