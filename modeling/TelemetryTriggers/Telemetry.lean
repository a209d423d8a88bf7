import TelemetryTriggers.Json.Value
import TelemetryTriggers.Predicate

/-!
# Reported updates

An accepted update of a device holds, under `state.reported`, the values of its
properties after the update and before it.  A `ShadowUpdate` is that document
split into two snapshots.

Main definitions: `Readings`, the values of properties; `ShadowUpdate`;
`withTransition` and `ofDocument`, the two ways to make one; `isSelectedBy`, which
updates a predicate selects.
-/

namespace TelemetryTriggers

/-- Values of properties, each property once, the last one set at the end. -/
structure Readings where
  entries : List (String × Float)
deriving DecidableEq

namespace Readings

def empty : Readings :=
  ⟨[]⟩

def set (r : Readings) (property : String) (value : Float) : Readings :=
  ⟨r.entries.filter (fun entry => entry.1 != property) ++ [(property, value)]⟩

def get? (r : Readings) (property : String) : Option Float :=
  (r.entries.find? fun entry => entry.1 == property).map (·.2)

theorem get?_set_self (r : Readings) (property : String) (value : Float) :
    (r.set property value).get? property = some value := by
  have hnone : (r.entries.filter fun entry => entry.1 != property).find?
      (fun entry => entry.1 == property) = none := by
    simp [List.find?_eq_none]
  simp [get?, set, List.find?_append, hnone]

theorem get?_set_of_ne (r : Readings) {property other : String} (value : Float)
    (h : other ≠ property) :
    (r.set property value).get? other = r.get? other := by
  have hkeep : (r.entries.filter fun entry => entry.1 != property).find?
      (fun entry => entry.1 == other) =
        r.entries.find? (fun entry => entry.1 == other) := by
    rw [List.find?_filter]
    congr 1
    funext entry
    by_cases he : entry.1 = other
    · simp [he, h]
    · simp [he]
  have hlast : (property == other) = false := by simpa using Ne.symm h
  simp [get?, set, List.find?_append, hkeep, hlast]

end Readings

structure ShadowUpdate where
  thing : String
  previous : Readings
  current : Readings
deriving DecidableEq

namespace ShadowUpdate

def ofThing (thing : String) : ShadowUpdate :=
  ⟨thing, .empty, .empty⟩

/-- Records a transition of a property.  Without a previous value the one that was
recorded before stays. -/
def withTransition (u : ShadowUpdate) (property : String) (previous : Option Float)
    (current : Float) : ShadowUpdate :=
  { u with
    previous := match previous with
      | some value => u.previous.set property value
      | none => u.previous
    current := u.current.set property current }

/-- Records one member of the reported state.  Members that are no numbers or have
neither mark are passed over. -/
def withMember (u : ShadowUpdate) (name : String) (value : Json) : ShadowUpdate :=
  match value.toFloat? with
  | none => u
  | some reading =>
      match Text.stripStart currentMark.toList name.toList with
      | some property =>
          { u with current := u.current.set (String.ofList property) reading }
      | none =>
          match Text.stripStart previousMark.toList name.toList with
          | some property =>
              { u with previous := u.previous.set (String.ofList property) reading }
          | none => u

def reported? (document : Json) : Option (List (String × Json)) := do
  let state ← document.member? "state"
  let reported ← state.member? "reported"
  reported.members?

def ofDocument (thing : String) (document : Json) : Except TriggerError ShadowUpdate :=
  match reported? document with
  | none => .error (.validation .noReportedState)
  | some members =>
      .ok (members.foldl (fun u member => u.withMember member.1 member.2) (ofThing thing))

/-- A predicate selects an update of its own device that has a current value of
its property and is a crossing. -/
def isSelectedBy (u : ShadowUpdate) (p : Predicate) : Bool :=
  if u.thing = p.thing then
    match u.current.get? p.condition.property with
    | some current => p.fires (u.previous.get? p.condition.property) current
    | none => false
  else
    false

end ShadowUpdate
end TelemetryTriggers
