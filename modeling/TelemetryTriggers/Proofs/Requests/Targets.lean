import Mathlib.Data.List.Forall2
import TelemetryTriggers.Proofs.Requests.Words

/-!
# Kinds and addresses of targets

An email address is cut at its only at sign.  The check takes what comes before the first
one, and asks for a dot somewhere inside the rest.  Here an address is any text that can be
cut so, however many dots there are.

Main definitions: `TargetKind.words`; `IsMailAddress` and `IsPhoneNumber`;
`TargetSpec.WellFormed`, the grammar of a target, and `ValidTarget.Reads`, what is taken from
it.  The main statements are `TargetSpec.validate_eq_ok_iff` and `validateTargets_eq_ok_iff`.
-/

namespace TelemetryTriggers

/-!
# Email addresses
-/

/-- An email address: no white space, one at sign, something before it, and after it a dot
that is neither the first character nor the last. -/
structure IsMailAddress (cs : List Char) : Prop where
  solid : forall c, c ∈ cs -> Text.isBlank c = false
  one_at : cs.count '@' = 1
  parts : exists name host domain : List Char, cs = name ++ '@' :: (host ++ '.' :: domain) ∧
    name ≠ [] ∧ host ≠ [] ∧ domain ≠ []

namespace TargetKind

theorem isMailChar_iff {c : Char} :
    isMailChar c = true ↔ c ≠ '@' ∧ Text.isBlank c = false := by
  rw [isMailChar, Bool.and_eq_true, bne_iff_ne, Bool.not_eq_true']

theorem hasInnerDot_iff {cs : List Char} :
    hasInnerDot cs = true ↔ exists host domain : List Char,
      cs = host ++ '.' :: domain ∧ host ≠ [] ∧ domain ≠ [] := by
  rw [hasInnerDot, List.contains_iff_mem]
  constructor
  · intro h
    cases cs with
    | nil => exact absurd h List.not_mem_nil
    | cons first rest =>
        rcases List.mem_iff_append.mp h with ⟨host, domain, hinner⟩
        rw [List.drop_one, List.tail_cons] at hinner
        have hrest : rest ≠ [] := by
          intro hnil
          rw [hnil] at hinner
          simp at hinner
        refine ⟨first :: host, domain ++ [rest.getLast hrest], ?_, by simp, by simp⟩
        calc
          first :: rest = first :: (rest.dropLast ++ [rest.getLast hrest]) := by
            rw [List.dropLast_append_getLast]
          _ = first :: host ++ '.' :: (domain ++ [rest.getLast hrest]) := by
            rw [hinner, List.append_assoc, List.cons_append, List.cons_append]
  · intro ⟨host, domain, hcs, hhost, hdomain⟩
    cases host with
    | nil => exact absurd rfl hhost
    | cons first host =>
        rw [hcs, List.cons_append, List.drop_one, List.tail_cons,
          List.dropLast_append_of_ne_nil (by simp), List.dropLast_cons_of_ne_nil hdomain]
        exact List.mem_append_right host List.mem_cons_self

theorem all_isMailChar_iff {cs : List Char} :
    cs.all isMailChar = true ↔
      (forall c, c ∈ cs -> Text.isBlank c = false) ∧ cs.count '@' = 0 := by
  rw [List.all_eq_true, List.count_eq_zero]
  constructor
  · intro h
    refine ⟨fun c hc => (isMailChar_iff.mp (h c hc)).2, ?_⟩
    intro hat
    exact (isMailChar_iff.mp (h '@' hat)).1 rfl
  · intro ⟨hsolid, hnone⟩ c hc
    refine isMailChar_iff.mpr ⟨?_, hsolid c hc⟩
    intro hat
    rw [hat] at hc
    exact hnone hc

theorem isEmail_append {name rest : List Char} (hname : name.all isMailChar = true) :
    isEmail (name ++ '@' :: rest) =
      (!name.isEmpty && rest.all isMailChar && hasInnerDot rest) := by
  have hall := List.all_eq_true.mp hname
  have hstop : isMailChar '@' ≠ true := by decide
  rw [isEmail, List.takeWhile_append_of_pos hall, List.dropWhile_append_of_pos hall,
    List.takeWhile_cons_of_neg hstop, List.dropWhile_cons_of_neg hstop, List.append_nil]
  rfl

theorem exists_at_of_isEmail {cs : List Char} (h : isEmail cs = true) :
    exists name rest : List Char, cs = name ++ '@' :: rest ∧ name.all isMailChar = true := by
  have hcut := List.takeWhile_append_dropWhile (p := isMailChar) (l := cs)
  have hname : (cs.takeWhile isMailChar).all isMailChar = true :=
    List.all_eq_true.mpr fun c hc => List.mem_takeWhile_imp hc
  rw [isEmail] at h
  split at h
  · rename_i rest hrest
    exact ⟨cs.takeWhile isMailChar, rest, by rw [← hrest, hcut], hname⟩
  · cases h

theorem solid_append_iff {name rest : List Char} :
    ((forall c, c ∈ name ++ '@' :: rest -> Text.isBlank c = false) ∧
      (name ++ '@' :: rest).count '@' = 1) ↔
      name.all isMailChar = true ∧ rest.all isMailChar = true := by
  have hat : Text.isBlank '@' = false := by decide
  rw [all_isMailChar_iff, all_isMailChar_iff, List.count_append, List.count_cons_self]
  constructor
  · intro ⟨hsolid, hcount⟩
    refine ⟨⟨fun c hc => hsolid c (List.mem_append_left _ hc), by omega⟩,
      fun c hc => hsolid c (List.mem_append_right _ (List.mem_cons_of_mem _ hc)), by omega⟩
  · intro ⟨⟨hname, hnone⟩, hrest, hnone'⟩
    refine ⟨?_, by omega⟩
    intro c hc
    rcases List.mem_append.mp hc with hc | hc
    · exact hname c hc
    · cases hc with
      | head => exact hat
      | tail _ hc => exact hrest c hc

theorem isEmail_iff {cs : List Char} : isEmail cs = true ↔ IsMailAddress cs := by
  constructor
  · intro h
    rcases exists_at_of_isEmail h with ⟨name, rest, rfl, hname⟩
    rw [isEmail_append hname, Bool.and_eq_true, Bool.and_eq_true, hasInnerDot_iff,
      Bool.not_eq_true', List.isEmpty_eq_false_iff] at h
    rcases h with ⟨⟨hne, hrest⟩, host, domain, rfl, hhost, hdomain⟩
    rcases solid_append_iff.mpr ⟨hname, hrest⟩ with ⟨hsolid, hone⟩
    exact ⟨hsolid, hone, name, host, domain, rfl, hne, hhost, hdomain⟩
  · intro ⟨hsolid, hone, name, host, domain, hcs, hne, hhost, hdomain⟩
    subst hcs
    rcases solid_append_iff.mp ⟨hsolid, hone⟩ with ⟨hname, hrest⟩
    rw [isEmail_append hname, Bool.and_eq_true, Bool.and_eq_true, hasInnerDot_iff,
      Bool.not_eq_true', List.isEmpty_eq_false_iff]
    exact ⟨⟨hne, hrest⟩, host, domain, rfl, hhost, hdomain⟩

end TargetKind

/-!
# Phone numbers
-/

/-- A phone number: six to fifteen digits, with or without a plus before them. -/
def IsPhoneNumber (cs : List Char) : Prop :=
  exists digits : List Char, (cs = digits ∨ cs = '+' :: digits) ∧
    (forall c, c ∈ digits -> Text.IsDigit c) ∧ 6 ≤ digits.length ∧ digits.length ≤ 15

theorem TargetKind.consistsOf_isDigit_iff {cs : List Char} :
    Text.consistsOf Char.isDigit 6 15 cs = true ↔
      (forall c, c ∈ cs -> Text.IsDigit c) ∧ 6 ≤ cs.length ∧ cs.length ≤ 15 := by
  rw [Text.consistsOf_iff]
  simp only [Text.isDigit_iff]

theorem TargetKind.isPhone_iff {cs : List Char} :
    TargetKind.isPhone cs = true ↔ IsPhoneNumber cs := by
  constructor
  · intro h
    unfold TargetKind.isPhone at h
    split at h
    · rename_i digits
      exact ⟨digits, .inr rfl, TargetKind.consistsOf_isDigit_iff.mp h⟩
    · exact ⟨cs, .inl rfl, TargetKind.consistsOf_isDigit_iff.mp h⟩
  · intro ⟨digits, hcs, hdigits⟩
    cases hcs with
    | inr hplus =>
        subst hplus
        exact TargetKind.consistsOf_isDigit_iff.mpr hdigits
    | inl hplain =>
        subst hplain
        unfold TargetKind.isPhone
        split
        · have hplus : Text.IsDigit '+' := hdigits.1 '+' List.mem_cons_self
          exact absurd hplus.1 (by decide)
        · exact TargetKind.consistsOf_isDigit_iff.mpr hdigits

/-!
# Kinds
-/

namespace TargetKind

def words : TargetKind -> List String
  | email => ["email"]
  | sms => ["sms", "phone"]

def Form : TargetKind -> String -> Prop
  | email, address => IsMailAddress address.toList
  | sms, address => IsPhoneNumber address.toList

theorem protocol_mem_words (kind : TargetKind) :
    Text.lowerAscii (Text.trim kind.protocol) ∈ kind.words := by
  cases kind with
  | email | sms => decide

theorem eq_of_mem_words {word : String} {kind other : TargetKind} (h : word ∈ kind.words)
    (hother : word ∈ other.words) : kind = other := by
  have hdisjoint : forall kind other : TargetKind, forall word, word ∈ kind.words ->
      word ∈ other.words -> kind = other := by
    intro kind other
    cases kind with
    | email | sms =>
        cases other with
        | email | sms => decide
  exact hdisjoint kind other word h hother

theorem parse_eq_ok_iff {s : String} {kind : TargetKind} :
    parse s = .ok kind ↔ Text.lowerAscii (Text.trim s) ∈ kind.words := by
  rw [parse]
  generalize Text.lowerAscii (Text.trim s) = word
  by_cases hemail : word = "email"
  · subst hemail
    cases kind with
    | email | sms => simp [words]
  · rw [if_neg hemail]
    by_cases hsms : word = "sms" ∨ word = "phone"
    · rw [if_pos hsms]
      cases kind with
      | email | sms => simp [words, hemail, hsms]
    · rw [if_neg hsms]
      cases kind with
      | email | sms => simp [words, hemail, hsms]

theorem accepts_iff {kind : TargetKind} {address : String} :
    kind.accepts address = true ↔ kind.Form address := by
  cases kind with
  | email => exact isEmail_iff
  | sms => exact isPhone_iff

end TargetKind

/-!
# Targets
-/

/-- A target that can be subscribed, as a caller may write it: with white space around the
words and in any letter case. -/
structure TargetSpec.WellFormed (spec : TargetSpec) : Prop where
  address_ne : Text.trim spec.address ≠ ""
  address_le : (Text.trim spec.address).utf8ByteSize ≤ 100
  form : exists kind : TargetKind, Text.lowerAscii (Text.trim spec.kind) ∈ kind.words ∧
    kind.Form (Text.trim spec.address)

structure ValidTarget.Reads (target : ValidTarget) (spec : TargetSpec) : Prop where
  kind : Text.lowerAscii (Text.trim spec.kind) ∈ target.kind.words
  address : target.address = Text.trim spec.address

theorem TargetSpec.validate_eq_ok_iff {spec : TargetSpec} {target : ValidTarget} :
    spec.validate = .ok target ↔ spec.WellFormed ∧ target.Reads spec := by
  rw [TargetSpec.validate, bind_eq_ok_iff]
  constructor
  · intro ⟨kind, hkind, h⟩
    rw [check_eq_ok_iff, check_eq_ok_iff, check_eq_ok_iff, Bool.not_eq_false, Nat.not_lt,
      TargetKind.accepts_iff, Except.ok.injEq] at h
    rcases h with ⟨hne, hle, hform, rfl⟩
    have hword := TargetKind.parse_eq_ok_iff.mp hkind
    exact ⟨⟨hne, hle, kind, hword, hform⟩, hword, rfl⟩
  · intro ⟨⟨hne, hle, kind, hword, hform⟩, hreads⟩
    have hkind := TargetKind.parse_eq_ok_iff.mpr hword
    have hsame : kind = target.kind := TargetKind.eq_of_mem_words hword hreads.kind
    refine ⟨kind, hkind, ?_⟩
    rw [check_eq_ok_iff, check_eq_ok_iff, check_eq_ok_iff, Bool.not_eq_false, Nat.not_lt,
      TargetKind.accepts_iff, hsame, ← hreads.address]
    rw [hsame, ← hreads.address] at hform
    rw [← hreads.address] at hne hle
    exact ⟨hne, hle, hform, rfl⟩

theorem TargetSpec.WellFormed.exists_reads {spec : TargetSpec} (h : spec.WellFormed) :
    exists target : ValidTarget, target.Reads spec := by
  rcases h.form with ⟨kind, hword, _⟩
  exact ⟨⟨kind, Text.trim spec.address⟩, hword, rfl⟩

theorem validateTargets_eq_ok_iff {specs : List TargetSpec} {targets : List ValidTarget} :
    validateTargets specs = .ok targets ↔
      (forall spec, spec ∈ specs -> spec.WellFormed) ∧
        List.Forall₂ ValidTarget.Reads targets specs := by
  induction specs generalizing targets with
  | nil =>
      rw [validateTargets, Except.ok.injEq, List.forall₂_nil_right_iff]
      simp [eq_comm]
  | cons spec specs ih =>
      simp only [validateTargets, bind_eq_ok_iff, Except.ok.injEq, ih,
        TargetSpec.validate_eq_ok_iff, List.forall_mem_cons, List.forall₂_cons_right_iff]
      constructor
      · intro ⟨target, ⟨hspec, hreads⟩, rest, ⟨hspecs, hrest⟩, htargets⟩
        exact ⟨⟨hspec, hspecs⟩, target, rest, hreads, hrest, htargets.symm⟩
      · intro ⟨⟨hspec, hspecs⟩, target, rest, hreads, hrest, htargets⟩
        exact ⟨target, ⟨hspec, hreads⟩, rest, ⟨hspecs, hrest⟩, htargets.symm⟩

theorem exists_reads_of_wellFormed {specs : List TargetSpec}
    (h : forall spec, spec ∈ specs -> spec.WellFormed) :
    exists targets, List.Forall₂ ValidTarget.Reads targets specs := by
  induction specs with
  | nil => exact ⟨[], .nil⟩
  | cons spec specs ih =>
      rcases (h spec List.mem_cons_self).exists_reads with ⟨target, htarget⟩
      rcases ih fun spec hmem => h spec (List.mem_cons_of_mem _ hmem) with ⟨targets, htargets⟩
      exact ⟨target :: targets, .cons htarget htargets⟩

/-!
# Once more
-/

def ValidTarget.asSpec (target : ValidTarget) : TargetSpec :=
  ⟨target.kind.protocol, target.address⟩

theorem TargetSpec.validate_asSpec {spec : TargetSpec} {target : ValidTarget}
    (h : spec.validate = .ok target) : target.asSpec.validate = .ok target := by
  rcases TargetSpec.validate_eq_ok_iff.mp h with ⟨hspec, hreads⟩
  rcases hspec.form with ⟨kind, hword, hform⟩
  have hkind : kind = target.kind := TargetKind.eq_of_mem_words hword hreads.kind
  have htrim : Text.trim target.address = target.address := by
    rw [hreads.address, Text.trim_trim]
  have hword := target.kind.protocol_mem_words
  rw [TargetSpec.validate_eq_ok_iff]
  refine ⟨⟨?_, ?_, target.kind, hword, ?_⟩, hword, htrim.symm⟩
  · show Text.trim target.address ≠ ""
    rw [htrim, hreads.address]
    exact hspec.address_ne
  · show (Text.trim target.address).utf8ByteSize ≤ 100
    rw [htrim, hreads.address]
    exact hspec.address_le
  · show target.kind.Form (Text.trim target.address)
    rw [htrim, hreads.address, ← hkind]
    exact hform

theorem validateTargets_map_asSpec {specs : List TargetSpec} {targets : List ValidTarget}
    (h : validateTargets specs = .ok targets) :
    validateTargets (targets.map ValidTarget.asSpec) = .ok targets := by
  rcases validateTargets_eq_ok_iff.mp h with ⟨hspecs, htargets⟩
  clear h
  induction htargets with
  | nil => rfl
  | cons hreads _ ih =>
      rw [List.forall_mem_cons] at hspecs
      have hspec := TargetSpec.validate_eq_ok_iff.mpr ⟨hspecs.1, hreads⟩
      rw [List.map_cons, validateTargets, TargetSpec.validate_asSpec hspec, ih hspecs.2]
      rfl

end TelemetryTriggers
