/-!
# Limits on input

Property names and addresses are measured in bytes of UTF-8, messages in
characters.
-/

namespace TelemetryTriggers

/-- The greatest length of a property name, in bytes. -/
def maxPropertyLength : Nat :=
  64

/-- The greatest length of a notification message, in characters. -/
def maxMessageLength : Nat :=
  200

/-- The greatest length of a target address, in bytes. -/
def maxAddressLength : Nat :=
  100

/-- The greatest length of a thing's name, in characters. -/
def maxThingNameLength : Nat :=
  128

end TelemetryTriggers
