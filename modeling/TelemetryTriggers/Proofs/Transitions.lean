import Mathlib.Data.List.Basic
import Mathlib.Data.List.Induction
import TelemetryTriggers.Telemetry

/-!
# Updates made of transitions

An update can be built by recording transitions of properties one after the other.  Whether a
predicate selects it depends on the transitions of one property only.  The value after the
update is the one of the last of them.  The value before it is the last one that any of them
has, so a transition without a previous value does not take away what an earlier one left.

Main definitions: `Transition` and `withTransitions`.  The main statement is
`ShadowUpdate.decided_by_last_transition`.
-/

namespace TelemetryTriggers

structure Transition where
  property : String
  previous : Option Float
  current : Float
deriving DecidableEq

def transitionsOf (property : String) (ts : List Transition) : List Transition :=
  ts.filter (·.property == property)

theorem transitionsOf_concat (property : String) (ts : List Transition) (t : Transition) :
    transitionsOf property (ts ++ [t]) =
      if t.property = property then transitionsOf property ts ++ [t]
      else transitionsOf property ts := by
  rw [transitionsOf, List.filter_append]
  split
  · rename_i h
    rw [List.filter_cons_of_pos (by simpa using h)]
    rfl
  · rename_i h
    rw [List.filter_cons_of_neg (by simpa using h)]
    exact List.append_nil _

theorem transitionsOf_transitionsOf (property : String) (ts : List Transition) :
    transitionsOf property (transitionsOf property ts) = transitionsOf property ts := by
  simp only [transitionsOf, List.filter_filter, Bool.and_self]

def lastPrevious? (ts : List Transition) : Option Float :=
  (ts.filterMap (·.previous)).getLast?

theorem lastPrevious?_concat (ts : List Transition) (t : Transition) :
    lastPrevious? (ts ++ [t]) = t.previous.or (lastPrevious? ts) := by
  rw [lastPrevious?, List.filterMap_append]
  cases h : t.previous with
  | none => simp [h, lastPrevious?]
  | some value => simp [h]

namespace ShadowUpdate

def withTransitions (u : ShadowUpdate) (ts : List Transition) : ShadowUpdate :=
  ts.foldl (fun u t => u.withTransition t.property t.previous t.current) u

theorem withTransitions_concat (u : ShadowUpdate) (ts : List Transition) (t : Transition) :
    u.withTransitions (ts ++ [t]) =
      (u.withTransitions ts).withTransition t.property t.previous t.current :=
  List.foldl_concat ..

@[simp] theorem thing_withTransitions (u : ShadowUpdate) (ts : List Transition) :
    (u.withTransitions ts).thing = u.thing := by
  induction ts using List.reverseRecOn with
  | nil => rfl
  | append_singleton ts t ih =>
      rw [withTransitions_concat]
      exact ih

variable {u : ShadowUpdate} {property other : String}

/-!
# What one transition leaves
-/

theorem current_withTransition (previous : Option Float) (current : Float) :
    (u.withTransition property previous current).current.get? other =
      if property = other then some current else u.current.get? other := by
  by_cases h : property = other
  · rw [if_pos h, ← h]
    exact Readings.get?_set_self _ _ _
  · rw [if_neg h]
    exact Readings.get?_set_of_ne _ _ (Ne.symm h)

theorem previous_withTransition (previous : Option Float) (current : Float) :
    (u.withTransition property previous current).previous.get? other =
      if property = other then previous.or (u.previous.get? other)
      else u.previous.get? other := by
  cases previous with
  | none =>
      rw [Option.none_or, ite_self]
      rfl
  | some value =>
      by_cases h : property = other
      · rw [if_pos h, ← h]
        exact Readings.get?_set_self _ _ _
      · rw [if_neg h]
        exact Readings.get?_set_of_ne _ _ (Ne.symm h)

/-!
# What many transitions leave
-/

theorem current_withTransitions (u : ShadowUpdate) (ts : List Transition) (property : String) :
    (u.withTransitions ts).current.get? property =
      ((transitionsOf property ts).getLast?.map (·.current)).or (u.current.get? property) := by
  induction ts using List.reverseRecOn with
  | nil => rfl
  | append_singleton ts t ih =>
      rw [withTransitions_concat, current_withTransition, transitionsOf_concat]
      split
      · rw [List.getLast?_concat]
        rfl
      · exact ih

theorem previous_withTransitions (u : ShadowUpdate) (ts : List Transition) (property : String) :
    (u.withTransitions ts).previous.get? property =
      (lastPrevious? (transitionsOf property ts)).or (u.previous.get? property) := by
  induction ts using List.reverseRecOn with
  | nil => rfl
  | append_singleton ts t ih =>
      rw [withTransitions_concat, previous_withTransition, transitionsOf_concat]
      split
      · rw [lastPrevious?_concat, ih, Option.or_assoc]
      · exact ih

theorem isSelectedBy_withTransitions (p : Predicate) (ts : List Transition) :
    ((ofThing p.thing).withTransitions ts).isSelectedBy p =
      (transitionsOf p.condition.property ts).getLast?.any fun t =>
        p.fires (lastPrevious? (transitionsOf p.condition.property ts)) t.current := by
  have hcurrent := current_withTransitions (ofThing p.thing) ts p.condition.property
  have hprevious := previous_withTransitions (ofThing p.thing) ts p.condition.property
  have hnothing : (ofThing p.thing).current.get? p.condition.property = none := rfl
  have hbefore : (ofThing p.thing).previous.get? p.condition.property = none := rfl
  rw [hnothing, Option.or_none] at hcurrent
  rw [hbefore, Option.or_none] at hprevious
  have hthing : ((ofThing p.thing).withTransitions ts).thing = p.thing :=
    thing_withTransitions _ ts
  rw [isSelectedBy, if_pos hthing, hcurrent, hprevious]
  cases (transitionsOf p.condition.property ts).getLast? with
  | none => rfl
  | some t => rfl

/-!
# Which transition decides
-/

theorem fires_lastPrevious?_iff (p : Predicate) (ts : List Transition) (t : Transition) :
    p.fires (lastPrevious? (ts ++ [t])) t.current = p.fires t.previous t.current ↔
      ¬ exists value, t.previous = none ∧ lastPrevious? (ts ++ [t]) = some value ∧
        p.condition.isSatisfied value = true ∧ p.condition.isSatisfied t.current = true := by
  rw [lastPrevious?_concat]
  cases hprevious : t.previous with
  | some value => simp
  | none =>
      cases hlast : lastPrevious? ts with
      | none => simp
      | some value =>
          simp only [Option.none_or, Predicate.fires, Condition.crosses, Option.any_some,
            Option.any_none]
          cases hbefore : p.condition.isSatisfied value with
          | false => simp [hbefore]
          | true => simp [hbefore]

/-- The last transition of its property decides whether a predicate selects an update of its
device, and transitions of other properties have no influence: without one the update is not
selected, and else the last one has to be a crossing from the last value before the update
that a transition of the property has.  This is the value before the last transition, except
where that one has none and an earlier one had; and it makes a difference where both this
value and the new one satisfy the condition. -/
theorem decided_by_last_transition (p : Predicate) (ts : List Transition) :
    let u := (ofThing p.thing).withTransitions ts
    let mine := transitionsOf p.condition.property ts
    u.isSelectedBy p = ((ofThing p.thing).withTransitions mine).isSelectedBy p ∧
      u.isSelectedBy p = mine.getLast?.any (fun t => p.fires (lastPrevious? mine) t.current) ∧
      (u.isSelectedBy p = mine.getLast?.any (fun t => p.fires t.previous t.current) ↔
        ¬ exists t value, mine.getLast? = some t ∧ t.previous = none ∧
          lastPrevious? mine = some value ∧ p.condition.isSatisfied value = true ∧
          p.condition.isSatisfied t.current = true) := by
  intro u mine
  have hselected : u.isSelectedBy p =
      mine.getLast?.any fun t => p.fires (lastPrevious? mine) t.current :=
    isSelectedBy_withTransitions p ts
  refine ⟨?_, hselected, ?_⟩
  · rw [hselected, isSelectedBy_withTransitions, transitionsOf_transitionsOf]
  · rw [hselected]
    rcases List.eq_nil_or_concat' mine with hnone | ⟨earlier, t, hlast⟩
    · simp [hnone]
    · rw [hlast, List.getLast?_concat, Option.any_some, Option.any_some, fires_lastPrevious?_iff]
      simp

def shiftUp : Predicate :=
  let c : Condition := ⟨"RPM", .greaterThan, 3000⟩
  ⟨"car1", c, "Shift up", predicateText "car1" c "Shift up"⟩

/-- The engine slows down, and after a gap it is fast. -/
def gap : List Transition :=
  [⟨"RPM", some 3500, 2000⟩, ⟨"Speed", some 90, 80⟩, ⟨"RPM", none, 3300⟩]

/-- The value before an earlier transition keeps the last one from being a crossing. -/
theorem gap_unnoticed :
    (transitionsOf "RPM" gap).getLast? = some ⟨"RPM", none, 3300⟩ ∧
      shiftUp.fires none 3300 = true ∧
      ((ofThing "car1").withTransitions gap).isSelectedBy shiftUp ≠ shiftUp.fires none 3300 := by
  decide +kernel

end ShadowUpdate
end TelemetryTriggers
