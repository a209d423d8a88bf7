import TelemetryTriggers.Proofs.Spelling

/-!
# Deployments that share their services

Two deployments that begin their names differently can use the same broker and the
same rule engine.  The beginning of one may be a part of the other's, or go on into
the digits of an identifier, so a name can be cut in more than one way.  The lengths
of the spellings, and the characters that the beginning of a name can have, leave no
second way to read it.

The main statement is `ResourceNaming.names_apart`.
-/

namespace TelemetryTriggers
namespace Uuid

/-!
# What can stand beside an identifier
-/

theorem hyphen_not_mem_digits (u : Uuid) : '-' ∉ u.digits := by
  intro h
  exact Text.forall_mem_hexText (P := (· ≠ '-')) (fun _ hn => Text.hexDigit_ne_hyphen hn)
    32 u.value.val '-' h rfl

theorem map_toLower_digits (u : Uuid) : u.digits.map Char.toLower = u.digits :=
  Text.map_toLower_hexText 32 u.value.val

/-- Four characters are not enough to take the first hyphen away. -/
theorem hyphen_mem_drop_grouped (u : Uuid) : '-' ∈ u.grouped.drop 4 := by
  have hfirst : u.grouped = u.digits.take 8 ++ '-' :: hyphenate [4, 4, 4, 12]
      (u.digits.drop 8) := rfl
  have hlength : 4 ≤ (u.digits.take 8).length := by
    rw [List.length_take, length_digits]
    decide
  rw [hfirst, List.drop_append_of_le_length hlength]
  exact List.mem_append_right _ List.mem_cons_self

/-- A text that goes on before the digits with characters of a name is in one of the
two written forms, since neither a brace nor a colon stands in a name. -/
theorem written_of_parseChars? {front cs : List Char} {u : Uuid}
    (hfront : forall c, c ∈ front -> ResourceNaming.isTopicChar c = true)
    (hne : front ≠ []) (hcs : cs.length ≤ 36) (h : parseChars? (front ++ cs) = some u) :
    (front ++ cs).map Char.toLower = u.digits ∨
      (front ++ cs).map Char.toLower = u.grouped := by
  have hmem := parseChars?_eq_some_iff.mp h
  simp only [spellings, List.mem_cons, List.not_mem_nil, or_false] at hmem
  rcases hmem with hdigits | hgrouped | hbraced | hurn
  · exact Or.inl hdigits
  · exact Or.inr hgrouped
  · cases front with
    | nil => exact absurd rfl hne
    | cons c front =>
        rw [List.cons_append, List.map_cons] at hbraced
        injection hbraced with hopen
        have hplain := hfront c List.mem_cons_self
        rw [Text.eq_of_toLower rfl hopen] at hplain
        cases hplain
  · have hlong : 9 ≤ front.length := by
      have hlength := congrArg List.length hurn
      rw [List.length_map, List.length_append, length_urn] at hlength
      omega
    have hcolon : ':' ∈ front.map Char.toLower := by
      have htake : (front.map Char.toLower).take 9 = urnStart := by
        rw [List.map_append] at hurn
        have hfirst := congrArg (List.take 9) hurn
        rw [List.take_append_of_le_length (by rwa [List.length_map])] at hfirst
        exact hfirst.trans (List.take_left' rfl)
      apply List.mem_of_mem_take (i := 9)
      rw [htake]
      decide
    rcases List.mem_map.mp hcolon with ⟨c, hc, hsmall⟩
    have hplain := hfront c hc
    rw [Text.eq_of_toLower rfl hsmall] at hplain
    cases hplain

theorem parseChars?_before_grouped {front : List Char} (u : Uuid)
    (hfront : forall c, c ∈ front -> ResourceNaming.isTopicChar c = true)
    (hne : front ≠ []) : parseChars? (front ++ u.grouped) = none := by
  have hlong := List.length_pos_iff.mpr hne
  cases h : parseChars? (front ++ u.grouped) with
  | none => rfl
  | some v =>
      rcases written_of_parseChars? hfront hne (Nat.le_of_eq u.length_grouped) h with
        hdigits | hgrouped
      · have hlength := congrArg List.length hdigits
        rw [List.length_map, List.length_append, length_grouped, length_digits] at hlength
        omega
      · have hlength := congrArg List.length hgrouped
        rw [List.length_map, List.length_append, length_grouped, length_grouped] at hlength
        omega

/-- Nothing can stand before the 32 digits.  Four characters would make up for the
hyphens, but these are not in their places. -/
theorem parseChars?_before_digits {front : List Char} (u : Uuid)
    (hfront : forall c, c ∈ front -> ResourceNaming.isTopicChar c = true)
    (hne : front ≠ []) : parseChars? (front ++ u.digits) = none := by
  have hlong := List.length_pos_iff.mpr hne
  have hshort : u.digits.length ≤ 36 := by
    rw [length_digits]
    decide
  cases h : parseChars? (front ++ u.digits) with
  | none => rfl
  | some v =>
      rcases written_of_parseChars? hfront hne hshort h with hdigits | hgrouped
      · have hlength := congrArg List.length hdigits
        rw [List.length_map, List.length_append, length_digits, length_digits] at hlength
        omega
      · have hlength := congrArg List.length hgrouped
        rw [List.length_map, List.length_append, length_digits, length_grouped] at hlength
        have hfour : (front.map Char.toLower).length = 4 := by
          rw [List.length_map]
          omega
        have hrest : v.grouped.drop 4 = u.digits := by
          rw [← hgrouped, List.map_append, List.drop_left' hfour, map_toLower_digits]
        have hhyphen := v.hyphen_mem_drop_grouped
        rw [hrest] at hhyphen
        exact absurd hhyphen u.hyphen_not_mem_digits

theorem length_of_parseChars? {cs : List Char} {u : Uuid} (h : parseChars? cs = some u)
    (hshort : cs.length < 36) : cs.map Char.toLower = u.digits := by
  have hmem := parseChars?_eq_some_iff.mp h
  simp only [spellings, List.mem_cons, List.not_mem_nil, or_false] at hmem
  rcases hmem with hdigits | hgrouped | hbraced | hurn
  · exact hdigits
  · have hlength := congrArg List.length hgrouped
    rw [List.length_map, length_grouped] at hlength
    omega
  · have hlength := congrArg List.length hbraced
    rw [List.length_map, length_braced] at hlength
    omega
  · have hlength := congrArg List.length hurn
    rw [List.length_map, length_urn] at hlength
    omega

theorem parseChars?_end_grouped {front rest : List Char} {u : Uuid} (hne : front ≠ [])
    (h : u.grouped = front ++ rest) : parseChars? rest = none := by
  have hlong := List.length_pos_iff.mpr hne
  have hlength := congrArg List.length h
  rw [length_grouped, List.length_append] at hlength
  cases hparse : parseChars? rest with
  | none => rfl
  | some v =>
      have hdigits := length_of_parseChars? hparse (by omega)
      have hfour : front.length = 4 := by
        have hrest := congrArg List.length hdigits
        rw [List.length_map, length_digits] at hrest
        omega
      have hhyphen := u.hyphen_mem_drop_grouped
      rw [h, List.drop_left' hfour] at hhyphen
      have hsmall : '-' ∈ rest.map Char.toLower := List.mem_map_of_mem hhyphen
      rw [hdigits] at hsmall
      exact absurd hsmall v.hyphen_not_mem_digits

theorem parseChars?_end_digits {front rest : List Char} {u : Uuid} (hne : front ≠ [])
    (h : u.digits = front ++ rest) : parseChars? rest = none := by
  have hlong := List.length_pos_iff.mpr hne
  have hlength := congrArg List.length h
  rw [length_digits, List.length_append] at hlength
  cases hparse : parseChars? rest with
  | none => rfl
  | some v =>
      have hdigits := congrArg List.length (length_of_parseChars? hparse (by omega))
      rw [List.length_map, length_digits] at hdigits
      omega

end Uuid

namespace ResourceNaming

/-!
# Names of other deployments
-/

variable {naming other : ResourceNaming}

theorem starts_of_validate (h : naming.validate = .ok ()) :
    isTopicStart naming.topicStart = true ∧ isRuleStart naming.ruleStart = true := by
  simp only [validate] at h
  split at h
  · cases h
  · next htopic =>
      split at h
      · cases h
      · next hrule =>
          exact ⟨Bool.not_eq_false _ ▸ htopic, Bool.not_eq_false _ ▸ hrule⟩

theorem isTopicChar_of_isWordChar {c : Char} (h : Text.isWordChar c = true) :
    isTopicChar c = true := by
  rw [isTopicChar, ← Text.isWordChar, h]
  rfl

theorem isTopicChar_topicStart (h : naming.validate = .ok ()) :
    forall c, c ∈ naming.topicStart.toList -> isTopicChar c = true := by
  have hstart := (starts_of_validate h).1
  simp only [isTopicStart, Text.consistsOf, Bool.and_eq_true] at hstart
  exact List.all_eq_true.mp hstart.1.1

theorem isTopicChar_ruleStart (h : naming.validate = .ok ()) :
    forall c, c ∈ naming.ruleStart.toList -> isTopicChar c = true := by
  have hstart := (starts_of_validate h).2
  simp only [isRuleStart, Bool.and_eq_true] at hstart
  intro c hc
  cases htext : naming.ruleStart.toList with
  | nil =>
      rw [htext] at hc
      cases hc
  | cons d ds =>
      rw [htext] at hstart hc
      simp only [Text.startsThen, Bool.and_eq_true] at hstart
      apply isTopicChar_of_isWordChar
      rcases List.mem_cons.mp hc with rfl | hrest
      · simp [Text.isWordChar, Char.isAlphanum, hstart.1.1]
      · exact List.all_eq_true.mp hstart.1.2 c hrest

/-- A name is not read with another beginning than its own, if nothing can stand before
the identifier in it and no proper end of the identifier is one. -/
theorem idAfter?_of_ne {start foreign text : String} (hne : start ≠ foreign)
    (hstart : forall c, c ∈ start.toList -> isTopicChar c = true)
    (hbefore : forall front, (forall c, c ∈ front -> isTopicChar c = true) -> front ≠ [] ->
      Uuid.parseChars? (front ++ text.toList) = none)
    (hend : forall front rest, front ≠ [] -> text.toList = front ++ rest ->
      Uuid.parseChars? rest = none) :
    idAfter? foreign (start ++ text) = none := by
  rw [idAfter?, String.toList_append]
  cases hstrip : Text.stripStart foreign.toList (start.toList ++ text.toList) with
  | none => rfl
  | some rest =>
      have hother : forall front, front = [] -> start.toList ≠ foreign.toList ++ front := by
        rintro front rfl heq
        rw [List.append_nil] at heq
        exact hne (String.toList_inj.mp heq)
      have hparse : Uuid.parseChars? rest = none := by
        rcases List.append_eq_append_iff.mp (Text.eq_append_of_stripStart hstrip) with
          ⟨front, hforeign, htext⟩ | ⟨front, hlonger, hrest⟩
        · apply hend front rest _ htext
          rintro rfl
          rw [List.append_nil] at hforeign
          exact hne (String.toList_inj.mp hforeign.symm)
        · rw [hrest]
          apply hbefore front
          · intro c hc
            apply hstart
            rw [hlonger]
            exact List.mem_append_right _ hc
          · exact fun hnil => hother front hnil hlonger
      rw [Option.bind_some, hparse]
      rfl

/-- A deployment reads its own names, and no names of a deployment that begins them
differently. -/
theorem names_apart (naming other : ResourceNaming) (id : TriggerId)
    (h : naming.validate = .ok ()) :
    naming.triggerForTopic? (naming.topicName id) = some id ∧
      naming.triggerForRule? (naming.ruleName id) = some id ∧
      (naming.topicStart ≠ other.topicStart ->
        other.triggerForTopic? (naming.topicName id) = none) ∧
      (naming.ruleStart ≠ other.ruleStart ->
        other.triggerForRule? (naming.ruleName id) = none) := by
  have hgrouped : id.uuid.hyphenated.toList = id.uuid.grouped := String.toList_ofList
  have hdigits : id.uuid.simple.toList = id.uuid.digits := String.toList_ofList
  refine ⟨naming.triggerForTopic?_topicName id, naming.triggerForRule?_ruleName id, ?_, ?_⟩
  · intro hne
    apply idAfter?_of_ne hne (isTopicChar_topicStart h)
    · rw [hgrouped]
      exact fun front => Uuid.parseChars?_before_grouped id.uuid
    · rw [hgrouped]
      exact fun front rest => Uuid.parseChars?_end_grouped
  · intro hne
    apply idAfter?_of_ne hne (isTopicChar_ruleStart h)
    · rw [hdigits]
      exact fun front => Uuid.parseChars?_before_digits id.uuid
    · rw [hdigits]
      exact fun front rest => Uuid.parseChars?_end_digits

/-- Begins topics like the standard names, with four digits more, and rules with four
characters less. -/
def overlapping : ResourceNaming :=
  ⟨"trigger-67e5", "trig"⟩

def overlapped : TriggerId :=
  ⟨Uuid.ofNat 0x67e5504410b1426f9247bb680e5fe0c8⟩

theorem overlapping_names_apart :
    standard.validate = .ok () ∧ overlapping.validate = .ok () ∧
      standard.triggerForTopic? (standard.topicName overlapped) = some overlapped ∧
      standard.triggerForRule? (standard.ruleName overlapped) = some overlapped ∧
      overlapping.triggerForTopic? (standard.topicName overlapped) = none ∧
      overlapping.triggerForRule? (standard.ruleName overlapped) = none := by
  have hvalid : standard.validate = .ok () := by decide +kernel
  rcases names_apart standard overlapping overlapped hvalid with
    ⟨htopic, hrule, hforeignTopic, hforeignRule⟩
  exact ⟨hvalid, by decide +kernel, htopic, hrule, hforeignTopic (by decide),
    hforeignRule (by decide)⟩

end ResourceNaming
end TelemetryTriggers
