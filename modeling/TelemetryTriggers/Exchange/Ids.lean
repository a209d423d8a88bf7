import TelemetryTriggers.Ids
import TelemetryTriggers.Json.Record

/-!
# JSON forms of identifiers and handles

Numbers of accounts and devices are written as numbers, everything else as a
string.  An identifier is read in any of its spellings.
-/

namespace TelemetryTriggers

def UserId.ofJson? (value : Json) : Option UserId :=
  value.word?.map fun n => ⟨n.toUInt64⟩

def UserId.toJson (id : UserId) : Json :=
  .nat id.value.toNat

def ThingId.ofJson? (value : Json) : Option ThingId :=
  value.word?.map fun n => ⟨n.toUInt64⟩

def ThingId.toJson (id : ThingId) : Json :=
  .nat id.value.toNat

def TriggerId.ofJson? (value : Json) : Option TriggerId :=
  (value.string?.bind Uuid.parse?).map TriggerId.mk

def TriggerId.toJson (id : TriggerId) : Json :=
  .text id.text

def TargetId.ofJson? (value : Json) : Option TargetId :=
  (value.string?.bind Uuid.parse?).map TargetId.mk

def TargetId.toJson (id : TargetId) : Json :=
  .text id.text

def TopicHandle.ofJson? (value : Json) : Option TopicHandle :=
  value.string?.map TopicHandle.mk

def TopicHandle.toJson (topic : TopicHandle) : Json :=
  .text topic.text

def RuleHandle.ofJson? (value : Json) : Option RuleHandle :=
  value.string?.map RuleHandle.mk

def RuleHandle.toJson (rule : RuleHandle) : Json :=
  .text rule.text

def SubscriptionHandle.ofJson? (value : Json) : Option SubscriptionHandle :=
  value.string?.map SubscriptionHandle.mk

def SubscriptionHandle.toJson (subscription : SubscriptionHandle) : Json :=
  .text subscription.text

def Thing.ofJson? (value : Json) : Option Thing := do
  let r ← Record.of? ["id", "name", "owner"] value
  some ⟨← r.required "id" ThingId.ofJson?,
    ← r.required "name" Json.string?,
    ← r.required "owner" UserId.ofJson?⟩

def Thing.toJson (thing : Thing) : Json :=
  .record [("id", thing.id.toJson), ("name", .text thing.name),
    ("owner", thing.owner.toJson)]

end TelemetryTriggers
