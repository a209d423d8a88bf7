import TelemetryTriggers.Proofs.Query
import TelemetryTriggers.Proofs.Services.Store
import TelemetryTriggers.Report.Evaluation
import TelemetryTriggers.Telemetry

/-!
# What predicates select

Whether an update is selected can be found out in four ways: by the text of a predicate on
the reported state, by the predicate on the two snapshots that the state is split into, by
the condition on one transition, and by an evaluation on its own.  All of them agree.  A
number is found in a snapshot under a property if and only if it is reported under the
property with the mark of the snapshot, also if the property begins with a mark itself.

Main definitions: `Comparator.Relates`, what a comparator says about two numbers;
`Condition.IsMet`; `numberUnder`; `Clause.holds`, the meaning of a clause.  The main statement
is `Condition.selection_agrees`.
-/

namespace TelemetryTriggers

/-!
# Comparisons

The comparators mean the comparisons of doubles.  No comparison with a value that is no number
is true, and the two zeros are equal.
-/

namespace Comparator

def Relates : Comparator -> Float -> Float -> Prop
  | .lessThan, left, right => left < right
  | .greaterThan, left, right => left > right
  | .equal, left, right => (left == right) = true

instance (comparator : Comparator) (left right : Float) :
    Decidable (comparator.Relates left right) :=
  match comparator with
  | .lessThan => inferInstanceAs (Decidable (left < right))
  | .greaterThan => inferInstanceAs (Decidable (right < left))
  | .equal => inferInstanceAs (Decidable ((left == right) = true))

theorem holds_eq (comparator : Comparator) (left right : Float) :
    comparator.holds left right = decide (comparator.Relates left right) := by
  cases comparator with
  | lessThan => rfl
  | greaterThan => rfl
  | equal => exact (Bool.decide_eq_true (b := left == right)).symm

end Comparator

namespace Condition

def IsMet (c : Condition) (reading : Float) : Prop :=
  c.comparator.Relates reading c.threshold

instance (c : Condition) (reading : Float) : Decidable (c.IsMet reading) :=
  inferInstanceAs (Decidable (c.comparator.Relates reading c.threshold))

theorem isSatisfied_eq (c : Condition) (reading : Float) :
    c.isSatisfied reading = decide (c.IsMet reading) :=
  c.comparator.holds_eq reading c.threshold

end Condition

/-!
# Clauses
-/

def numberUnder (members : List (String × Json)) (name : String) : Option Float :=
  (members.find? fun member => member.1 == name).bind fun member => member.2.toFloat?

/-- What a clause says about the members of a reported state, where numerals have the given
values.  A comparison is false if there is no number under its key. -/
def Clause.holds (value : String -> Option Float) (members : List (String × Json)) :
    Clause -> Bool
  | comparison key comparator numeral =>
      match numberUnder members key, value numeral with
      | some reading, some threshold => decide (comparator.Relates reading threshold)
      | _, _ => false
  | both left right => left.holds value members && right.holds value members
  | negation clause => !clause.holds value members

/-!
# Members of a document
-/

theorem Json.nodup_putMember {map : List (String × Json)} (h : (map.map (·.1)).Nodup)
    (name : String) (value : Json) : ((Json.putMember map name value).map (·.1)).Nodup := by
  apply nodup_map_concat (nodup_map_filter h _)
  intro member hmember
  simpa using (List.mem_filter.mp hmember).2

theorem Json.nodup_members {value : Json} {members : List (String × Json)}
    (h : value.members? = some members) : (members.map (·.1)).Nodup := by
  cases value with
  | object items =>
      cases h
      have hnil : (([] : List (String × Json)).map (·.1)).Nodup := List.nodup_nil
      refine List.foldlRecOn (motive := fun map : List (String × Json) => (map.map (·.1)).Nodup)
        items _ hnil ?_
      intro map hmap item _
      rcases item with ⟨name, value⟩
      cases name with
      | none => exact hmap
      | some name => exact Json.nodup_putMember hmap name value
  | _ => cases h

theorem ShadowUpdate.nodup_reported {document : Json} {members : List (String × Json)}
    (h : ShadowUpdate.reported? document = some members) : (members.map (·.1)).Nodup := by
  rcases Option.bind_eq_some_iff.mp h with ⟨state, _, h⟩
  rcases Option.bind_eq_some_iff.mp h with ⟨reported, _, h⟩
  exact Json.nodup_members h

/-!
# Snapshots

A snapshot is read under the name of a member: its mark and then the property.
-/

namespace ShadowUpdate

def reading? (u : ShadowUpdate) (name : String) : Option Float :=
  match Text.stripStart currentMark.toList name.toList with
  | some property => u.current.get? (String.ofList property)
  | none =>
      match Text.stripStart previousMark.toList name.toList with
      | some property => u.previous.get? (String.ofList property)
      | none => none

def IsMarked (name : String) : Prop :=
  exists property, name = currentMark ++ property ∨ name = previousMark ++ property

theorem stripStart_mark (mark property : String) :
    Text.stripStart mark.toList (mark ++ property).toList = some property.toList := by
  rw [String.toList_append, Text.stripStart_append]

theorem stripStart_currentMark (property : String) :
    Text.stripStart currentMark.toList (previousMark ++ property).toList = none := by
  rw [String.toList_append]
  rfl

theorem reading?_currentMark (u : ShadowUpdate) (property : String) :
    u.reading? (currentMark ++ property) = u.current.get? property := by
  rw [reading?, stripStart_mark]
  simp only [String.ofList_toList]

theorem reading?_previousMark (u : ShadowUpdate) (property : String) :
    u.reading? (previousMark ++ property) = u.previous.get? property := by
  rw [reading?, stripStart_currentMark, stripStart_mark]
  simp only [String.ofList_toList]

theorem eq_of_stripStart {mark name : String} {property : List Char}
    (h : Text.stripStart mark.toList name.toList = some property) :
    name = mark ++ String.ofList property := by
  rw [← String.toList_inj, String.toList_append, String.toList_ofList]
  exact Text.eq_append_of_stripStart h

theorem reading?_withMember_self (u : ShadowUpdate) {name : String} (hname : IsMarked name)
    (value : Json) :
    (u.withMember name value).reading? name = value.toFloat?.or (u.reading? name) := by
  rw [withMember]
  cases hvalue : value.toFloat? with
  | none => rfl
  | some reading =>
      rcases hname with ⟨property, rfl | rfl⟩
      · rw [reading?_currentMark, stripStart_mark]
        simp only [String.ofList_toList, Readings.get?_set_self]
        rfl
      · rw [reading?_previousMark, stripStart_currentMark, stripStart_mark]
        simp only [String.ofList_toList, Readings.get?_set_self]
        rfl

theorem reading?_withMember_of_ne (u : ShadowUpdate) {name other : String}
    (hother : other ≠ name) (value : Json) :
    (u.withMember name value).reading? other = u.reading? other := by
  have hproperty : forall {mark : String} {p q : List Char},
      Text.stripStart mark.toList name.toList = some p ->
      Text.stripStart mark.toList other.toList = some q ->
      String.ofList q ≠ String.ofList p := by
    intro mark p q hp hq heq
    apply hother
    rw [eq_of_stripStart hp, eq_of_stripStart hq, heq]
  rw [withMember]
  cases hvalue : value.toFloat? with
  | none => rfl
  | some reading =>
      cases hcurrent : Text.stripStart currentMark.toList name.toList with
      | some p =>
          simp only [reading?]
          cases hq : Text.stripStart currentMark.toList other.toList with
          | some q => exact Readings.get?_set_of_ne _ _ (hproperty hcurrent hq)
          | none => rfl
      | none =>
          cases hprevious : Text.stripStart previousMark.toList name.toList with
          | none => rfl
          | some p =>
              simp only [reading?]
              cases hq : Text.stripStart previousMark.toList other.toList with
              | some q =>
                  simp only [Readings.get?_set_of_ne _ _ (hproperty hprevious hq)]
              | none => rfl

theorem reading?_foldl (members : List (String × Json)) (hnames : (members.map (·.1)).Nodup)
    (u : ShadowUpdate) {name : String} (hname : IsMarked name) :
    (members.foldl (fun u member => u.withMember member.1 member.2) u).reading? name =
      (numberUnder members name).or (u.reading? name) := by
  induction members generalizing u with
  | nil => rfl
  | cons member members ih =>
      rcases List.nodup_cons.mp hnames with ⟨hfirst, hrest⟩
      rw [List.foldl_cons, ih hrest]
      by_cases hmine : member.1 = name
      · -- no later member has the name
        have hnone : numberUnder members name = none := by
          rw [numberUnder, Option.bind_eq_none_iff]
          intro later hlater
          exfalso
          apply hfirst
          have hname := List.find?_some hlater
          have hsame : later.1 = member.1 := (beq_iff_eq.mp hname).trans hmine.symm
          show member.1 ∈ members.map (·.1)
          rw [← hsame]
          exact List.mem_map_of_mem (List.mem_of_find?_eq_some hlater)
        have hfound : numberUnder (member :: members) name = member.2.toFloat? := by
          rw [numberUnder, List.find?_cons_of_pos (by simpa using hmine)]
          rfl
        rw [hnone, hfound, hmine, reading?_withMember_self u hname]
        rfl
      · have hskip : numberUnder (member :: members) name = numberUnder members name := by
          rw [numberUnder, List.find?_cons_of_neg (by simpa using hmine)]
          rfl
        rw [hskip, reading?_withMember_of_ne u (Ne.symm hmine)]

theorem readings_of_document (device : String) {document : Json}
    {members : List (String × Json)} (h : reported? document = some members) :
    exists u, ofDocument device document = .ok u ∧ u.thing = device ∧
      forall property,
        u.current.get? property = numberUnder members (currentMark ++ property) ∧
          u.previous.get? property = numberUnder members (previousMark ++ property) := by
  have hthing : forall (items : List (String × Json)) (u : ShadowUpdate),
      (items.foldl (fun u member => u.withMember member.1 member.2) u).thing = u.thing := by
    intro items
    induction items with
    | nil => exact fun _ => rfl
    | cons item items ih =>
        intro u
        rw [List.foldl_cons, ih, withMember]
        split
        · rfl
        · split
          · rfl
          · split
            · rfl
            · rfl
  have hread := fun {name : String} (hname : IsMarked name) =>
    reading?_foldl members (nodup_reported h) (ofThing device) hname
  refine ⟨_, by rw [ofDocument, h], hthing members (ofThing device), ?_⟩
  intro property
  constructor
  · rw [← reading?_currentMark, hread ⟨property, Or.inl rfl⟩, reading?_currentMark]
    exact Option.or_none
  · rw [← reading?_previousMark, hread ⟨property, Or.inr rfl⟩, reading?_previousMark]
    exact Option.or_none

end ShadowUpdate

/-!
# Agreement
-/

namespace Condition

variable {value : String -> Option Float} {members : List (String × Json)} {c : Condition}

theorem holds_crossing (hvalue : value (Decimal.text c.threshold) = some c.threshold) :
    (Query.crossing c).holds value members =
      (numberUnder members (currentMark ++ c.property)).any
        (c.crosses (numberUnder members (previousMark ++ c.property))) := by
  simp only [Query.crossing, Clause.holds, hvalue, ← Comparator.holds_eq]
  cases numberUnder members (currentMark ++ c.property) with
  | none => rfl
  | some current =>
      cases numberUnder members (previousMark ++ c.property) with
      | none => rfl
      | some previous => rfl

theorem fires_make {property word : String} {comparator : Comparator} {threshold : Float}
    (hc : make property comparator threshold = .ok c)
    (hword : Comparator.parse word = .ok comparator) (previous : Option Float)
    (current : Float) :
    Evaluation.make property word threshold previous current =
      .ok ⟨c, previous, current, c.crosses previous current⟩ := by
  rw [Evaluation.make, read, hword]
  show (do
    let condition ← make property comparator threshold
    Except.ok _) = _
  rw [hc]
  rfl

theorem isSelectedBy_of_readings {u : ShadowUpdate} {p : Predicate} (hthing : u.thing = p.thing)
    (hreadings : forall property,
      u.current.get? property = numberUnder members (currentMark ++ property) ∧
        u.previous.get? property = numberUnder members (previousMark ++ property)) :
    u.isSelectedBy p = (numberUnder members (currentMark ++ p.condition.property)).any
      (p.fires (numberUnder members (previousMark ++ p.condition.property))) := by
  rw [ShadowUpdate.isSelectedBy, if_pos hthing, (hreadings _).1, (hreadings _).2]
  cases numberUnder members (currentMark ++ p.condition.property) with
  | none => rfl
  | some current => rfl

/-- Every way to evaluate a valid condition for a valid device agrees on every document with
a reported state.  The predicate selects the update of a device if and only if the device is
that of the topic in its text and the clause in its text is true of the reported state; and
if the current number is reported, this is what the predicate says of the transition, and so
is what an evaluation says in which the comparator is spelled in any way. -/
theorem selection_agrees {thing property : String} {comparator : Comparator}
    {threshold : Float} (hthing : validateThingName thing = .ok ())
    (hc : make property comparator threshold = .ok c)
    (hvalue : value (Decimal.text threshold) = some threshold)
    (message device : String) {document : Json}
    (hreported : ShadowUpdate.reported? document = some members) :
    exists p u q, c.compile thing message = .ok p ∧
      ShadowUpdate.ofDocument device document = .ok u ∧ Query.read? p.text = some q ∧
      (u.isSelectedBy p = true ↔
        q.device? = some device ∧ q.clause.holds value members = true) ∧
      forall current, numberUnder members (currentMark ++ property) = some current ->
        device = thing ->
          u.isSelectedBy p =
              p.fires (numberUnder members (previousMark ++ property)) current ∧
            forall word, Comparator.parse word = .ok comparator ->
              exists e, Evaluation.make property word threshold
                  (numberUnder members (previousMark ++ property)) current = .ok e ∧
                u.isSelectedBy p = e.fires := by
  rcases Query.word_of_make hc with ⟨rfl, hword, hfinite⟩
  rcases ShadowUpdate.readings_of_document device hreported with
    ⟨u, hu, hdevice, hreadings⟩
  let c : Condition := ⟨property, comparator, threshold⟩
  let p : Predicate := ⟨thing, c, message, predicateText thing c message⟩
  let q : Query := ⟨message, sourceTopic thing, Query.crossing c⟩
  have hcompile : c.compile thing message = .ok p := by
    rw [compile, hthing]
    rfl
  have hread : Query.read? p.text = some q :=
    Query.read?_predicateText (c := c) message hthing hword hfinite
  have hq : q.device? = some thing := Query.device?_sourceTopic _ _ _
  have hclause : q.clause.holds value members =
      (numberUnder members (currentMark ++ property)).any
        (p.fires (numberUnder members (previousMark ++ property))) :=
    holds_crossing (c := c) hvalue
  have hselected : device = thing -> u.isSelectedBy p =
      (numberUnder members (currentMark ++ property)).any
        (p.fires (numberUnder members (previousMark ++ property))) :=
    fun hsame => isSelectedBy_of_readings (hdevice.trans hsame) hreadings
  refine ⟨p, u, q, hcompile, hu, hread, ?_, ?_⟩
  · rw [hq, hclause]
    constructor
    · intro h
      have hsame : device = thing := by
        by_contra hother
        rw [ShadowUpdate.isSelectedBy, if_neg fun heq => hother (hdevice.symm.trans heq)] at h
        cases h
      rw [hselected hsame] at h
      exact ⟨congrArg some hsame.symm, h⟩
    · rintro ⟨hsame, h⟩
      rw [hselected (Option.some.inj hsame).symm]
      exact h
  · intro current hcurrent hsame
    have hfires : u.isSelectedBy p =
        p.fires (numberUnder members (previousMark ++ property)) current := by
      rw [hselected hsame, hcurrent]
      rfl
    refine ⟨hfires, ?_⟩
    intro word hparse
    exact ⟨_, fires_make hc hparse _ _, hfires⟩

/-- A property whose name begins with a mark, next to one of the other name, and a message
with quotes. -/
theorem marked_selection_agrees :
    let document : Json := .record [("state", .record [("reported", .record
      [("currprevTemp", .nat 31), ("prevprevTemp", .text "off"), ("prevTemp", .nat 40)])])]
    let members : List (String × Json) :=
      [("currprevTemp", .nat 31), ("prevprevTemp", .text "off"), ("prevTemp", .nat 40)]
    validateThingName "car1" = .ok () ∧
      make "prevTemp" .greaterThan 30 = .ok ⟨"prevTemp", .greaterThan, 30⟩ ∧
      Decimal.parseFloat? (Decimal.text 30) = some 30 ∧
      ShadowUpdate.reported? document = some members ∧
      Comparator.parse " GT " = .ok .greaterThan ∧
      exists p u q, (Condition.mk "prevTemp" .greaterThan 30).compile "car1" "say \"hi\"" =
          .ok p ∧
        ShadowUpdate.ofDocument "car1" document = .ok u ∧ Query.read? p.text = some q ∧
        (u.isSelectedBy p = true ↔ q.device? = some "car1" ∧
          q.clause.holds Decimal.parseFloat? members = true) ∧
        u.isSelectedBy p = p.fires none 31 ∧
        (exists e, Evaluation.make "prevTemp" " GT " 30 none 31 = .ok e ∧
          u.isSelectedBy p = e.fires) ∧
        u.isSelectedBy p = true := by
  intro document members
  have hthing : validateThingName "car1" = .ok () := by decide +kernel
  have hc : make "prevTemp" .greaterThan 30 = .ok ⟨"prevTemp", .greaterThan, 30⟩ := by
    decide +kernel
  have hvalue : Decimal.parseFloat? (Decimal.text 30) = some 30 := by decide +kernel
  have hreported : ShadowUpdate.reported? document = some members := by rfl
  have hword : Comparator.parse " GT " = .ok .greaterThan := by decide +kernel
  have hcurrent : numberUnder members (currentMark ++ "prevTemp") = some 31 := by
    decide +kernel
  have hprevious : numberUnder members (previousMark ++ "prevTemp") = none := by
    decide +kernel
  rcases selection_agrees hthing hc hvalue "say \"hi\"" "car1" hreported with
    ⟨p, u, q, hp, hu, hq, hselected, hcrossing⟩
  rcases hcrossing 31 hcurrent rfl with ⟨hfires, hevaluation⟩
  rw [hprevious] at hfires hevaluation
  refine ⟨hthing, hc, hvalue, hreported, hword, p, u, q, hp, hu, hq, hselected, hfires,
    hevaluation " GT " hword, ?_⟩
  rcases Except.ok.inj hp with rfl
  rw [hfires]
  decide +kernel

end Condition
end TelemetryTriggers
