import TelemetryTriggers.Json.Record
import TelemetryTriggers.Recovery

/-!
# JSON form of recovery reports
-/

namespace TelemetryTriggers
namespace RecoveryReport

def fieldNames : List String :=
  ["drafts_purged", "rules_removed", "topics_removed", "skipped_in_flight", "failures"]

def ofJson? (value : Json) : Option RecoveryReport := do
  let r ← Record.of? fieldNames value
  some ⟨← r.required "drafts_purged" Json.word?,
    ← r.required "rules_removed" Json.word?,
    ← r.required "topics_removed" Json.word?,
    ← r.required "skipped_in_flight" Json.word?,
    ← r.required "failures" Json.word?⟩

def toJson (r : RecoveryReport) : Json :=
  .record [("drafts_purged", .nat r.draftsPurged), ("rules_removed", .nat r.rulesRemoved),
    ("topics_removed", .nat r.topicsRemoved),
    ("skipped_in_flight", .nat r.skippedInFlight), ("failures", .nat r.failures)]

end RecoveryReport
end TelemetryTriggers
