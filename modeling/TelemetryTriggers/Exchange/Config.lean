import TelemetryTriggers.Config
import TelemetryTriggers.Json.Reader
import TelemetryTriggers.Json.Record

/-!
# JSON forms of the configuration

A configuration is an object, never an array, and holds the two beginnings of
names beside its own fields.  All fields have defaults.  What stands in it beside
the two numbers is kept until it is known to be no part of the naming, so it has
to be sound.

Main definitions: `Config.ofJson?` and `Config.toJson`; `Config.load`, a
configuration from a text.
-/

namespace TelemetryTriggers

def ResourceNaming.ofRecord? (r : Record) : Option ResourceNaming := do
  some ⟨← r.withDefault "topic_prefix" ResourceNaming.standard.topicStart Json.string?,
    ← r.withDefault "rule_prefix" ResourceNaming.standard.ruleStart Json.string?⟩

def ResourceNaming.fieldNames : List String :=
  ["topic_prefix", "rule_prefix"]

def ResourceNaming.ofJson? (value : Json) : Option ResourceNaming :=
  (Record.of? fieldNames value).bind ofRecord?

def ResourceNaming.members (naming : ResourceNaming) : List (String × Json) :=
  [("topic_prefix", .text naming.topicStart), ("rule_prefix", .text naming.ruleStart)]

def ResourceNaming.toJson (naming : ResourceNaming) : Json :=
  .record naming.members

namespace Config

def fieldNames : List String :=
  ["call_timeout_ms", "max_targets_per_trigger"]

/-- The member is kept until the naming is read. -/
def isKept (member : Option String × Json) : Bool :=
  !member.1.any fieldNames.contains

def ofJson? : Json → Option Config
  | .object members => do
      let kept := members.filter isKept
      if Json.soundMembers (Json.maxLevels - 1) kept then
        let own ← Record.of? fieldNames (.object members)
        let naming ← Record.of? ResourceNaming.fieldNames (.object kept)
        some ⟨← own.withDefault "call_timeout_ms" standard.callTimeout Json.word?,
          ← own.withDefault "max_targets_per_trigger" standard.maxTargets Json.word?,
          ← ResourceNaming.ofRecord? naming⟩
      else
        none
  | _ => none

/-- A configuration is written with the fields of its naming at its end. -/
def toJson (config : Config) : Json :=
  .record ([("call_timeout_ms", .nat config.callTimeout),
    ("max_targets_per_trigger", .nat config.maxTargets)] ++ config.naming.members)

def load (text : String) : Except TriggerError Config :=
  match (Json.read? text).bind ofJson? with
  | none => .error (.config .malformed)
  | some config => do
      config.validate
      pure config

end Config
end TelemetryTriggers
