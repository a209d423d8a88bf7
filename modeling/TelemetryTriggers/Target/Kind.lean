/-!
# Kinds of notification targets
-/

namespace TelemetryTriggers

inductive TargetKind
  | email
  | sms
deriving DecidableEq

def TargetKind.protocol : TargetKind → String
  | .email => "email"
  | .sms => "sms"

end TelemetryTriggers
