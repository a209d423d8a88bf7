import TelemetryTriggers.Error
import TelemetryTriggers.Text.Pattern

/-!
# Target addresses

Main definitions: `TargetKind.parse`, the words for a kind; `TargetKind.accepts`,
the form of an address; `TargetSpec.validate`, from what a caller gives to a
target that can be subscribed.
-/

namespace TelemetryTriggers

namespace TargetKind

def parse (s : String) : Except TriggerError TargetKind :=
  let word := Text.lowerAscii (Text.trim s)
  if word = "email" then .ok .email
  else if word = "sms" ∨ word = "phone" then .ok .sms
  else .error (.validation (.unknownKind word))

def isMailChar (c : Char) : Bool :=
  c != '@' && !Text.isBlank c

def hasInnerDot (cs : List Char) : Bool :=
  (cs.drop 1).dropLast.contains '.'

def isEmail (cs : List Char) : Bool :=
  let name := cs.takeWhile isMailChar
  match cs.dropWhile isMailChar with
  | '@' :: domain => !name.isEmpty && domain.all isMailChar && hasInnerDot domain
  | _ => false

def isPhone : List Char → Bool
  | '+' :: cs => Text.consistsOf Char.isDigit 6 15 cs
  | cs => Text.consistsOf Char.isDigit 6 15 cs

def accepts (kind : TargetKind) (address : String) : Bool :=
  match kind with
  | .email => isEmail address.toList
  | .sms => isPhone address.toList

end TargetKind

structure TargetSpec where
  kind : String
  address : String
deriving DecidableEq

structure ValidTarget where
  kind : TargetKind
  address : String
deriving DecidableEq

def TargetSpec.validate (spec : TargetSpec) : Except TriggerError ValidTarget := do
  let kind ← TargetKind.parse spec.kind
  let address := Text.trim spec.address
  if address = "" then
    .error (.validation .noAddress)
  else if maxAddressLength < address.utf8ByteSize then
    .error (.validation .longAddress)
  else if kind.accepts address = false then
    .error (.validation (.badAddress kind address))
  else
    .ok ⟨kind, address⟩

end TelemetryTriggers
