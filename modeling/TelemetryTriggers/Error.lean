import TelemetryTriggers.Ids
import TelemetryTriggers.Limits
import TelemetryTriggers.Target.Kind

/-!
# Errors

An error is a cause.  What a caller reads about it is made from the cause in one
place per kind of error.  Each kind of flaw also has a cause `stated`, for a
reason that comes from outside in words of its own.

Main definitions: `ServiceError`, what a service answers; `TriggerError`, what an
operation on triggers answers; `TriggerError.message`; `TriggerError.isRetryable`.
-/

namespace TelemetryTriggers

inductive ServiceError
  | notFound (what : String)
  | rejected (reason : String)
  | unavailable (reason : String)
deriving DecidableEq

namespace ServiceError

def message : ServiceError → String
  | .notFound what => "not found: " ++ what
  | .rejected reason => "rejected: " ++ reason
  | .unavailable reason => "unavailable: " ++ reason

def isAbsence : ServiceError → Bool
  | .notFound _ => true
  | _ => false

end ServiceError

/-!
# Flaws of input
-/

inductive Entity
  | trigger
  | target
deriving DecidableEq

def Entity.name : Entity → String
  | .trigger => "trigger"
  | .target => "target"

inductive ConditionFlaw
  | noComparator
  | unknownComparator (word : String)
  | noProperty
  | longProperty
  | badProperty (property : String)
  | thresholdNotFinite
  | stated (reason : String)
deriving DecidableEq

def ConditionFlaw.message : ConditionFlaw → String
  | .noComparator => "comparator cannot be empty"
  | .unknownComparator word => "unknown comparator '" ++ word ++ "'"
  | .noProperty => "property cannot be empty"
  | .longProperty => "property exceeds " ++ toString maxPropertyLength ++ " characters"
  | .badProperty property =>
      "property '" ++ property ++ "' must be alphanumeric or underscore"
  | .thresholdNotFinite => "threshold must be finite"
  | .stated reason => reason

inductive InputFlaw
  | noThingName
  | badThingName (name : String)
  | unpairedThing (name : String)
  | noMessage
  | longMessage
  | unknownKind (word : String)
  | noAddress
  | longAddress
  | badAddress (kind : TargetKind) (address : String)
  | tooManyTargets (limit given : Nat)
  | targetLimit (trigger : TriggerId) (limit : Nat)
  | badId (entity : Entity) (text : String)
  | noReportedState
  | stated (reason : String)
deriving DecidableEq

def InputFlaw.message : InputFlaw → String
  | .noThingName => "thing name cannot be empty"
  | .badThingName name => "thing name '" ++ name ++ "' contains reserved characters"
  | .unpairedThing name => "thing '" ++ name ++ "' is not paired to this account"
  | .noMessage => "message cannot be empty"
  | .longMessage => "message exceeds " ++ toString maxMessageLength ++ " characters"
  | .unknownKind word => "unknown target kind '" ++ word ++ "'"
  | .noAddress => "target address cannot be empty"
  | .longAddress =>
      "target address exceeds " ++ toString maxAddressLength ++ " characters"
  | .badAddress kind address =>
      "'" ++ address ++ "' is not a valid " ++ kind.protocol ++ " address"
  | .tooManyTargets limit given =>
      "at most " ++ toString limit ++ " targets are allowed, got " ++ toString given
  | .targetLimit trigger limit =>
      "trigger " ++ trigger.text ++ " already has the maximum of " ++ toString limit ++
        " targets"
  | .badId entity text => "invalid " ++ entity.name ++ " id: " ++ text
  | .noReportedState => "document has no state.reported object"
  | .stated reason => reason

inductive FileError
  | missing
  | directory
  | notDirectory
  | nameTooLong
  | zeroByte
  | notText
  | other (reason : String)
deriving DecidableEq

def FileError.message : FileError → String
  | .missing => "No such file or directory (os error 2)"
  | .directory => "Is a directory (os error 21)"
  | .notDirectory => "Not a directory (os error 20)"
  | .nameTooLong => "File name too long (os error 36)"
  | .zeroByte => "file name contained an unexpected NUL byte"
  | .notText => "stream did not contain valid UTF-8"
  | .other reason => reason

inductive ConfigFlaw
  | zeroTimeout
  | zeroTargets
  | badTopicPrefix (text : String)
  | badRulePrefix (text : String)
  | malformed
  | unreadable (path : String) (cause : FileError)
  | stated (reason : String)
deriving DecidableEq

def ConfigFlaw.message : ConfigFlaw → String
  | .zeroTimeout => "call timeout must be positive"
  | .zeroTargets => "max targets per trigger must be positive"
  | .badTopicPrefix text => "invalid topic prefix '" ++ text ++ "'"
  | .badRulePrefix text => "invalid rule prefix '" ++ text ++ "'"
  | .malformed => "malformed config"
  | .unreadable path cause => "cannot read " ++ path ++ ": " ++ cause.message
  | .stated reason => reason

/-!
# Errors of operations
-/

inductive TriggerError
  /-- Bad input; nothing was touched. -/
  | validation (flaw : InputFlaw)
  | invalidCondition (flaw : ConditionFlaw)
  | store (cause : ServiceError)
  | broker (cause : ServiceError)
  | ruleEngine (cause : ServiceError)
  /-- There is no such entity, or the caller may not see it. -/
  | notFound (entity : Entity) (id : String)
  /-- Other work on the trigger is in flight. -/
  | conflict (id : String)
  | config (flaw : ConfigFlaw)
  | internal (reason : String)
deriving DecidableEq

namespace TriggerError

def message : TriggerError → String
  | .validation flaw => "validation failed: " ++ flaw.message
  | .invalidCondition flaw => "invalid condition: " ++ flaw.message
  | .store cause => "store error: " ++ cause.message
  | .broker cause => "broker error: " ++ cause.message
  | .ruleEngine cause => "rule engine error: " ++ cause.message
  | .notFound entity id => entity.name ++ " not found: " ++ id
  | .conflict id => "operation already in flight for trigger " ++ id
  | .config flaw => "configuration error: " ++ flaw.message
  | .internal reason => "internal error: " ++ reason

def isRetryable : TriggerError → Bool
  | .store _ => true
  | .broker _ => true
  | .ruleEngine _ => true
  | .conflict _ => true
  | _ => false

end TriggerError

def TriggerId.parse (s : String) : Except TriggerError TriggerId :=
  match Uuid.parse? s with
  | some u => .ok ⟨u⟩
  | none => .error (.validation (.badId .trigger s))

def TargetId.parse (s : String) : Except TriggerError TargetId :=
  match Uuid.parse? s with
  | some u => .ok ⟨u⟩
  | none => .error (.validation (.badId .target s))

end TelemetryTriggers
