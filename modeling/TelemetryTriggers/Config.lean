import TelemetryTriggers.Naming

/-!
# Configuration

Main definitions: `Config`, the deadline of a call, the number of targets and the
naming; `Config.standard`; `Config.validate`.
-/

namespace TelemetryTriggers

structure Config where
  /-- How long a call on a service may take, in milliseconds. -/
  callTimeout : Nat
  maxTargets : Nat
  naming : ResourceNaming
deriving DecidableEq

namespace Config

def standard : Config :=
  ⟨10000, 10, ResourceNaming.standard⟩

def maxTimeout : Nat :=
  0xffffffffffffffff

/-- The configuration with a deadline in seconds, or the greatest one there is. -/
def withTimeoutSeconds (config : Config) (seconds : Nat) : Config :=
  { config with callTimeout := min (1000 * seconds) maxTimeout }

def validate (config : Config) : Except TriggerError Unit :=
  if config.callTimeout = 0 then .error (.config .zeroTimeout)
  else if config.maxTargets = 0 then .error (.config .zeroTargets)
  else config.naming.validate

end Config
end TelemetryTriggers
