import TelemetryTriggers.Saga.Program

/-!
# Taking back

Each step of a saga that creates something has an action that takes it back.  If a
later step fails, the actions of all steps before it are done, newest first; a
failure among them does not stop the others.

Main definitions: `Undo`, one such action; `unwind`, the actions of a stack;
`Operation.orUndo`, a step with the actions of the steps before it.
-/

namespace TelemetryTriggers

inductive Undo
  | deleteTrigger (id : TriggerId)
  | deleteTarget (id : TargetId)
  | deleteTopic (topic : TopicHandle)
  | unsubscribe (subscription : SubscriptionHandle)
  | removeRule (rule : RuleHandle)
deriving DecidableEq

namespace Undo

def toCall : Undo → Call
  | .deleteTrigger id => .deleteTrigger id
  | .deleteTarget id => .deleteTarget id
  | .deleteTopic topic => .deleteTopic topic
  | .unsubscribe subscription => .unsubscribe subscription
  | .removeRule rule => .removeRule rule

def text : Undo → String
  | .deleteTrigger id => "delete trigger " ++ id.text
  | .deleteTarget id => "delete target " ++ id.text
  | .deleteTopic topic => "delete topic " ++ topic.text
  | .unsubscribe subscription => "unsubscribe " ++ subscription.text
  | .removeRule rule => "remove rule " ++ rule.text

/-- The result of an action is a failure; that there was nothing to take back is
none. -/
def isFailure {α : Type} : Except ServiceError α → Bool
  | .ok _ => false
  | .error e => !e.isAbsence

end Undo

def unwind : List Undo → Saga Nat
  | [] => .done 0
  | undo :: undos => .call undo.toCall fun reply =>
      (unwind undos).bind fun failures =>
        .done (failures + if Undo.isFailure reply then 1 else 0)

/-- Does a step and, if it fails, takes back the steps before it.  The failure
stays the same. -/
def Operation.orUndo {α : Type} (undos : List Undo) (work : Operation α) : Operation α :=
  ExceptT.mk (work.run.bind fun
    | .ok a => .done (.ok a)
    | .error e => (unwind undos).bind fun _ => .done (.error e))

end TelemetryTriggers
