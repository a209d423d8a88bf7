import TelemetryTriggers.Proofs.Lifecycle.CreateSuccess
import TelemetryTriggers.Proofs.Orchestrator.Provisioned

/-!
# A plain registry of triggers

To its callers an orchestrator is a list of triggers, each with a list of targets.
Nothing in it stands for topics, subscriptions or rules, except that a target
remembers what its subscription is told apart by.

Main definitions: `Registry`, with `Registry.step`, which serves one request, and
`Registry.serve`.
-/

namespace TelemetryTriggers

/-- A target as the registry lists it.  The suffix tells its subscription apart. -/
structure Listed where
  id : TargetId
  kind : TargetKind
  address : String
  suffix : Uuid

structure Entry where
  id : TriggerId
  user : UserId
  thing : Thing
  condition : Condition
  message : String
  targets : List Listed

structure Registry where
  entries : List Entry
  ids : IdSource

/-!
# What stands for an entry
-/

def Listed.row (naming : ResourceNaming) (id : TriggerId) (l : Listed) : Target :=
  ⟨l.id, id, l.kind, l.address, Broker.subscriptionHandle (naming.topicHandle id) l.suffix⟩

namespace Entry

variable (naming : ResourceNaming) (e : Entry)

def row : Trigger :=
  ⟨e.id, e.user, e.thing.id, e.condition, e.message, some (naming.handles e.id)⟩

def rows : List Target :=
  e.targets.map (Listed.row naming e.id)

def topic : Topic :=
  ⟨naming.topicName e.id, naming.topicHandle e.id⟩

def predicate : Predicate :=
  ⟨e.thing.name, e.condition, e.message, predicateText e.thing.name e.condition e.message⟩

def rule : Rule :=
  ⟨naming.ruleHandle e.id, naming.ruleName e.id, e.predicate, naming.topicHandle e.id⟩

def details : TriggerDetails :=
  ⟨e.row naming, e.rows naming⟩

end Entry

/-!
# Requests
-/

namespace Registry

variable (config : Config) (things : List Thing)

/-- A target as it is listed, with what is left of the source.  It takes two identifiers,
the first for its subscription. -/
def enlist (target : ValidTarget) (ids : IdSource) : Listed × IdSource :=
  (⟨⟨ids.next.2.next.1⟩, target.kind, target.address, ids.next.1⟩, ids.next.2.next.2)

def enlistAll : List ValidTarget -> IdSource -> List Listed × IdSource
  | [], ids => ([], ids)
  | target :: targets, ids =>
      let first := enlist target ids
      let rest := enlistAll targets first.2
      (first.1 :: rest.1, rest.2)

def entry? (r : Registry) (user : UserId) (id : TriggerId) : Option Entry :=
  r.entries.find? fun e => e.id == id && e.user == user

def listed? (r : Registry) (user : UserId) (target : TargetId) : Option (Entry × Listed) :=
  r.entries.findSome? fun e =>
    if e.user == user then (e.targets.find? (·.id == target)).map fun l => (e, l) else none

def newEntry (user : UserId) (valid : ValidRequest) (thing : Thing) (ids : IdSource) :
    Entry :=
  ⟨⟨ids.next.1⟩, user, thing, valid.condition, valid.message,
    (enlistAll valid.targets ids.next.2).1⟩

/-- A new entry comes to the end.  Its identifier is drawn even if the device turns out
not to be paired. -/
def createValid (user : UserId) (valid : ValidRequest) (r : Registry) :
    Except TriggerError TriggerDetails × Registry :=
  match (things.find? (·.name == valid.thingName)).filter (·.owner == user) with
  | none =>
      (.error (.validation (.unpairedThing valid.thingName)), { r with ids := r.ids.next.2 })
  | some thing =>
      let e := newEntry user valid thing r.ids
      (.ok (e.details config.naming),
        ⟨r.entries ++ [e], (enlistAll valid.targets r.ids.next.2).2⟩)

def create (request : CreateRequest) (r : Registry) :
    Except TriggerError TriggerDetails × Registry :=
  match request.validate config.maxTargets with
  | .error e => (.error e, r)
  | .ok valid => createValid config things request.user valid r

def delete (user : UserId) (id : TriggerId) (r : Registry) :
    Except TriggerError Unit × Registry :=
  match r.entry? user id with
  | none => (.error (Lifecycle.noTrigger id), r)
  | some _ => (.ok (), { r with entries := r.entries.filter (·.id != id) })

def withTarget (id : TriggerId) (l : Listed) (entries : List Entry) : List Entry :=
  entries.map fun e => if e.id = id then { e with targets := e.targets ++ [l] } else e

def addTarget (user : UserId) (id : TriggerId) (spec : TargetSpec) (r : Registry) :
    Except TriggerError Target × Registry :=
  match spec.validate with
  | .error e => (.error e, r)
  | .ok target =>
      match r.entry? user id with
      | none => (.error (Lifecycle.noTrigger id), r)
      | some e =>
          if config.maxTargets ≤ e.targets.length then
            (.error (.validation (.targetLimit id config.maxTargets)), r)
          else
            let listed := enlist target r.ids
            (.ok (listed.1.row config.naming id), ⟨withTarget id listed.1 r.entries, listed.2⟩)

def withoutTarget (target : TargetId) (entries : List Entry) : List Entry :=
  entries.map fun e => { e with targets := e.targets.filter (·.id != target) }

def removeTarget (user : UserId) (target : TargetId) (r : Registry) :
    Except TriggerError Unit × Registry :=
  match r.listed? user target with
  | none => (.error (Lifecycle.noTarget target), r)
  | some _ => (.ok (), { r with entries := withoutTarget target r.entries })

def read {α : Type} (f : Entry -> α) (user : UserId) (id : TriggerId) (r : Registry) :
    Except TriggerError α × Registry :=
  match r.entry? user id with
  | none => (.error (Lifecycle.noTrigger id), r)
  | some e => (.ok (f e), r)

def listTriggers (user : UserId) (r : Registry) :
    Except TriggerError (List Trigger) × Registry :=
  (.ok ((r.entries.filter (·.user == user)).map (Entry.row config.naming)), r)

def getTarget (user : UserId) (target : TargetId) (r : Registry) :
    Except TriggerError Target × Registry :=
  match r.listed? user target with
  | none => (.error (Lifecycle.noTarget target), r)
  | some (e, l) => (.ok (l.row config.naming e.id), r)

def answered {α : Type} (f : α -> Answer) (served : Except TriggerError α × Registry) :
    Except TriggerError Answer × Registry :=
  (served.1.map f, served.2)

@[simp] theorem answered_snd {α : Type} (f : α -> Answer)
    (served : Except TriggerError α × Registry) : (answered f served).2 = served.2 :=
  rfl

def step : Request -> Registry -> Except TriggerError Answer × Registry
  | .create request, r => answered .created (create config things request r)
  | .delete user id, r => answered (fun _ => .deleted) (delete user id r)
  | .addTarget user id spec, r => answered .added (addTarget config user id spec r)
  | .removeTarget user target, r => answered (fun _ => .removed) (removeTarget user target r)
  | .getTrigger user id, r => answered .trigger (read (Entry.details config.naming) user id r)
  | .listTriggers user, r => answered .triggers (listTriggers config user r)
  | .listTargets user id, r => answered .targets (read (Entry.rows config.naming) user id r)
  | .getTarget user target, r => answered .target (getTarget config user target r)
  | .recover, r => answered .recovered (.ok ⟨0, 0, 0, 0, 0⟩, r)

def serve : List Request -> Registry -> List (Except TriggerError Answer × Registry)
  | [], _ => []
  | request :: requests, r =>
      let served := step config things request r
      served :: serve requests served.2

end Registry
end TelemetryTriggers
