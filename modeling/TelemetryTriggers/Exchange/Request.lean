import TelemetryTriggers.Exchange.Ids
import TelemetryTriggers.Request

/-!
# JSON forms of requests

A request is read without any check of what it holds.
-/

namespace TelemetryTriggers

def TargetKind.ofJson? : Json → Option TargetKind :=
  Json.choice? false [("email", .email), ("sms", .sms)]

def TargetKind.toJson (kind : TargetKind) : Json :=
  .text kind.protocol

def TargetSpec.ofJson? (value : Json) : Option TargetSpec := do
  let r ← Record.of? ["kind", "address"] value
  some ⟨← r.required "kind" Json.string?, ← r.required "address" Json.string?⟩

def TargetSpec.toJson (spec : TargetSpec) : Json :=
  .record [("kind", .text spec.kind), ("address", .text spec.address)]

def CreateRequest.fieldNames : List String :=
  ["user", "thing_name", "property", "comparator", "threshold", "message", "targets"]

def CreateRequest.ofJson? (value : Json) : Option CreateRequest := do
  let r ← Record.of? fieldNames value
  some ⟨← r.required "user" UserId.ofJson?,
    ← r.required "thing_name" Json.string?,
    ← r.required "property" Json.string?,
    ← r.required "comparator" Json.string?,
    ← r.required "threshold" Json.toFloat?,
    ← r.required "message" Json.string?,
    ← r.withDefault "targets" [] (Json.list? TargetSpec.ofJson?)⟩

def CreateRequest.toJson (request : CreateRequest) : Json :=
  .record [("user", request.user.toJson), ("thing_name", .text request.thingName),
    ("property", .text request.property), ("comparator", .text request.comparator),
    ("threshold", .float request.threshold), ("message", .text request.message),
    ("targets", .array (request.targets.map TargetSpec.toJson))]

end TelemetryTriggers
