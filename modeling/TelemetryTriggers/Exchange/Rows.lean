import TelemetryTriggers.Exchange.Condition
import TelemetryTriggers.Exchange.Request
import TelemetryTriggers.Lifecycle.Query

/-!
# JSON forms of rows and resources

The row of a trigger and a delivery are written with the instant at which they
were made.  The instant is no part of the row, which never depends on it, so it
stands beside the row.

Main definitions: `Stamped`; the forms of `Trigger`, `Target`, `TriggerDetails`,
`Delivery`, `Topic`, `RuleInfo` and `ShadowUpdate`.
-/

namespace TelemetryTriggers

structure Stamped (α : Type) where
  value : α
  instant : String
deriving DecidableEq

/-- The form of a written instant: a digit stands for any digit. -/
def instantForm : String :=
  "0000-00-00T00:00:00Z"

def instant? (value : Json) : Option String :=
  value.string?.filter fun s =>
    s.toList.map (fun c => if c.isDigit then '0' else c) == instantForm.toList

def Handles.ofJson? (value : Json) : Option Handles := do
  let r ← Record.of? ["topic", "rule"] value
  some ⟨← r.required "topic" TopicHandle.ofJson?, ← r.required "rule" RuleHandle.ofJson?⟩

def Handles.toJson (handles : Handles) : Json :=
  .record [("topic", handles.topic.toJson), ("rule", handles.rule.toJson)]

def Trigger.fieldNames : List String :=
  ["id", "user", "thing", "condition", "message", "handles", "created_at"]

def Trigger.ofJson? (value : Json) : Option (Stamped Trigger) := do
  let r ← Record.of? fieldNames value
  let row : Trigger :=
    ⟨← r.required "id" TriggerId.ofJson?,
      ← r.required "user" UserId.ofJson?,
      ← r.required "thing" ThingId.ofJson?,
      ← r.required "condition" Condition.ofJson?,
      ← r.required "message" Json.string?,
      ← r.optional "handles" Handles.ofJson?⟩
  some ⟨row, ← r.required "created_at" instant?⟩

/-- The row of a trigger is written with its fields in order; a draft has null for
its handles. -/
def Trigger.toJson (t : Stamped Trigger) : Json :=
  .record [("id", t.value.id.toJson), ("user", t.value.user.toJson),
    ("thing", t.value.thing.toJson), ("condition", t.value.condition.toJson),
    ("message", .text t.value.message),
    ("handles", (t.value.handles.map Handles.toJson).getD .null),
    ("created_at", .text t.instant)]

def Target.ofJson? (value : Json) : Option Target := do
  let r ← Record.of? ["id", "trigger", "kind", "address", "subscription"] value
  some ⟨← r.required "id" TargetId.ofJson?,
    ← r.required "trigger" TriggerId.ofJson?,
    ← r.required "kind" TargetKind.ofJson?,
    ← r.required "address" Json.string?,
    ← r.required "subscription" SubscriptionHandle.ofJson?⟩

def Target.toJson (t : Target) : Json :=
  .record [("id", t.id.toJson), ("trigger", t.trigger.toJson), ("kind", t.kind.toJson),
    ("address", .text t.address), ("subscription", t.subscription.toJson)]

def TriggerDetails.ofJson? (value : Json) : Option (Stamped TriggerDetails) := do
  let r ← Record.of? ["trigger", "targets"] value
  let trigger ← r.required "trigger" Trigger.ofJson?
  let targets ← r.required "targets" (Json.list? Target.ofJson?)
  some ⟨⟨trigger.value, targets⟩, trigger.instant⟩

def TriggerDetails.toJson (d : Stamped TriggerDetails) : Json :=
  .record [("trigger", Trigger.toJson ⟨d.value.trigger, d.instant⟩),
    ("targets", .array (d.value.targets.map Target.toJson))]

def Delivery.ofJson? (value : Json) : Option (Stamped Delivery) := do
  let r ← Record.of?
    ["topic", "subscription", "protocol", "endpoint", "message", "delivered_at"] value
  let delivery : Delivery :=
    ⟨← r.required "topic" TopicHandle.ofJson?,
      ← r.required "subscription" SubscriptionHandle.ofJson?,
      ← r.required "protocol" Json.string?,
      ← r.required "endpoint" Json.string?,
      ← r.required "message" Json.string?⟩
  some ⟨delivery, ← r.required "delivered_at" instant?⟩

def Delivery.toJson (d : Stamped Delivery) : Json :=
  .record [("topic", d.value.topic.toJson), ("subscription", d.value.subscription.toJson),
    ("protocol", .text d.value.protocol), ("endpoint", .text d.value.endpoint),
    ("message", .text d.value.message), ("delivered_at", .text d.instant)]

def Topic.ofJson? (value : Json) : Option Topic := do
  let r ← Record.of? ["name", "handle"] value
  some ⟨← r.required "name" Json.string?, ← r.required "handle" TopicHandle.ofJson?⟩

def Topic.toJson (topic : Topic) : Json :=
  .record [("name", .text topic.name), ("handle", topic.handle.toJson)]

def RuleInfo.ofJson? (value : Json) : Option RuleInfo := do
  let r ← Record.of? ["name", "handle", "sql_version"] value
  some ⟨← r.required "name" Json.string?,
    ← r.required "handle" RuleHandle.ofJson?,
    ← r.required "sql_version" Json.string?⟩

def RuleInfo.toJson (rule : RuleInfo) : Json :=
  .record [("name", .text rule.name), ("handle", rule.handle.toJson),
    ("sql_version", .text rule.sqlVersion)]

/-- Reads an update.  Either snapshot may be left out. -/
def ShadowUpdate.ofJson? (value : Json) : Option ShadowUpdate := do
  let r ← Record.of? ["thing", "previous", "current"] value
  some ⟨← r.required "thing" Json.string?,
    ⟨← r.withDefault "previous" [] (Json.map? Json.toFloat?)⟩,
    ⟨← r.withDefault "current" [] (Json.map? Json.toFloat?)⟩⟩

def Readings.toJson (r : Readings) : Json :=
  .record ((r.entries.mergeSort fun a b => decide (a.1 ≤ b.1)).map
    fun entry => (entry.1, .float entry.2))

def ShadowUpdate.toJson (u : ShadowUpdate) : Json :=
  .record [("current", u.current.toJson), ("previous", u.previous.toJson),
    ("thing", .text u.thing)]

end TelemetryTriggers
