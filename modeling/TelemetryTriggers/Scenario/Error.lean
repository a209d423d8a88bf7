import TelemetryTriggers.Error

/-!
# Errors of commands

A command fails because of the configuration, of an operation on triggers, of a
scenario or of a file.

Main definitions: `CommandError`; `CommandError.message`; `CommandError.ofTrigger`,
under which an unusable configuration keeps its own kind.
-/

namespace TelemetryTriggers

inductive ScenarioFlaw
  | malformed
  | nameTaken (name : String)
  | unknownName (name : String)
  | noSuchAddress (address name : String)
  | timesAndAfter
  | stated (reason : String)
deriving DecidableEq

def ScenarioFlaw.message : ScenarioFlaw → String
  | .malformed => "invalid scenario"
  | .nameTaken name => "trigger '" ++ name ++ "' already defined"
  | .unknownName name => "unknown trigger '" ++ name ++ "'"
  | .noSuchAddress address name => "no target '" ++ address ++ "' on trigger '" ++ name ++ "'"
  | .timesAndAfter => "fail takes either 'times' or 'after', not both"
  | .stated reason => reason

inductive CommandError
  | config (flaw : ConfigFlaw)
  | trigger (cause : TriggerError)
  | scenario (flaw : ScenarioFlaw)
  | stepsFailed (count : Nat)
  | format (reason : String)
  | file (cause : FileError)
deriving DecidableEq

namespace CommandError

def ofTrigger : TriggerError → CommandError
  | .config flaw => .config flaw
  | e => .trigger e

def message : CommandError → String
  | .config flaw => "configuration error: " ++ flaw.message
  | .trigger cause => cause.message
  | .scenario flaw => "scenario error: " ++ flaw.message
  | .stepsFailed count => toString count ++ " scenario step(s) failed"
  | .format reason => "format error: " ++ reason
  | .file cause => "IO error: " ++ cause.message

def hasCause : CommandError → Bool
  | .trigger _ => true
  | .file _ => true
  | _ => false

theorem message_ofTrigger (e : TriggerError) : (ofTrigger e).message = e.message := by
  cases e <;> rfl

end CommandError
end TelemetryTriggers
