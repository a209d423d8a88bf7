import TelemetryTriggers.Condition
import TelemetryTriggers.Error

/-!
# The row store

Rows of triggers and of their targets, in the order in which they were inserted.
The store keeps what a relational schema would: identifiers are unique, a target
belongs to a trigger that exists, and a trigger with targets cannot be deleted.
A refused operation changes nothing.

Main definitions: `Trigger` and `Target`, the rows; `Store` and its operations.
-/

namespace TelemetryTriggers

/-- The resources of a provisioned trigger.  They are set together. -/
structure Handles where
  topic : TopicHandle
  rule : RuleHandle
deriving DecidableEq

/-- A row of a trigger.  It is a draft as long as it has no handles. -/
structure Trigger where
  id : TriggerId
  user : UserId
  thing : ThingId
  condition : Condition
  message : String
  handles : Option Handles
deriving DecidableEq

def Trigger.isProvisioned (t : Trigger) : Bool :=
  t.handles.isSome

structure Target where
  id : TargetId
  trigger : TriggerId
  kind : TargetKind
  address : String
  subscription : SubscriptionHandle
deriving DecidableEq

structure Store where
  things : List Thing
  triggers : List Trigger
  targets : List Target
deriving DecidableEq

namespace Store

def empty : Store :=
  ⟨[], [], []⟩

/-- Registers a device, in the place of one with the same number. -/
def addThing (s : Store) (thing : Thing) : Store :=
  { s with things := s.things.filter (·.id != thing.id) ++ [thing] }

def thingNamed? (s : Store) (name : String) : Option Thing :=
  s.things.find? (·.name == name)

def trigger? (s : Store) (id : TriggerId) : Option Trigger :=
  s.triggers.find? (·.id == id)

def target? (s : Store) (id : TargetId) : Option Target :=
  s.targets.find? (·.id == id)

def triggersOf (s : Store) (user : UserId) : List Trigger :=
  s.triggers.filter (·.user == user)

def targetsOf (s : Store) (id : TriggerId) : List Target :=
  s.targets.filter (·.trigger == id)

def hasTrigger (s : Store) (id : TriggerId) : Bool :=
  s.triggers.any (·.id == id)

def hasTarget (s : Store) (id : TargetId) : Bool :=
  s.targets.any (·.id == id)

def insertTrigger (s : Store) (t : Trigger) : Except ServiceError Store :=
  if s.hasTrigger t.id then
    .error (.rejected ("trigger " ++ t.id.text ++ " already exists"))
  else
    .ok { s with triggers := s.triggers ++ [t] }

def withHandles (id : TriggerId) (handles : Handles) (rows : List Trigger) :
    List Trigger :=
  rows.map fun t => if t.id = id then { t with handles := some handles } else t

def setHandles (s : Store) (id : TriggerId) (handles : Handles) :
    Except ServiceError Store :=
  match s.trigger? id with
  | none => .error (.notFound ("trigger " ++ id.text))
  | some t =>
      if t.isProvisioned then
        .error (.rejected ("trigger " ++ id.text ++ " is already provisioned"))
      else
        .ok { s with triggers := withHandles id handles s.triggers }

def deleteTrigger (s : Store) (id : TriggerId) : Except ServiceError Store :=
  if s.targets.any (·.trigger == id) then
    .error (.rejected ("trigger " ++ id.text ++ " still has targets"))
  else if s.hasTrigger id then
    .ok { s with triggers := s.triggers.filter (·.id != id) }
  else
    .error (.notFound ("trigger " ++ id.text))

def insertTarget (s : Store) (t : Target) : Except ServiceError Store :=
  if s.hasTrigger t.trigger = false then
    .error (.rejected ("trigger " ++ t.trigger.text ++ " does not exist"))
  else if s.hasTarget t.id then
    .error (.rejected ("target " ++ t.id.text ++ " already exists"))
  else
    .ok { s with targets := s.targets ++ [t] }

def deleteTarget (s : Store) (id : TargetId) : Except ServiceError Store :=
  if s.hasTarget id then
    .ok { s with targets := s.targets.filter (·.id != id) }
  else
    .error (.notFound ("target " ++ id.text))

end Store
end TelemetryTriggers
