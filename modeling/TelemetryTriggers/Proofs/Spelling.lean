import Mathlib.Data.List.Induction
import TelemetryTriggers.Proofs.Naming

/-!
# The spellings of an identifier

An identifier is read from four texts, and from what becomes one of them when its
capitals are replaced by small letters.

Main definition: `Uuid.spellings`.  The main statement is `Uuid.parseChars?_eq_some_iff`:
these texts are read as the identifier, and no others.
-/

namespace TelemetryTriggers
namespace Text

/-!
# Small letters
-/

theorem exists_capital {c : Char} (h : c.toLower ≠ c) :
    exists k : Fin 26, c = Char.ofNat ('A'.toNat + k) := by
  have hrange : c.val ≥ 'A'.val ∧ c.val ≤ 'Z'.val := by
    by_contra hnot
    exact h (dif_neg hnot)
  have hleast : 65 ≤ c.toNat := hrange.1
  have hmost : c.toNat ≤ 90 := hrange.2
  refine ⟨⟨c.toNat - 65, by omega⟩, ?_⟩
  have hsum : 'A'.toNat + (c.toNat - 65) = c.toNat := by
    show 65 + (c.toNat - 65) = c.toNat
    omega
  rw [hsum, Char.ofNat_toNat]

theorem eq_of_toLower {c d : Char} (hd : d.isLower = false) (h : c.toLower = d) : c = d := by
  by_cases hc : c.toLower = c
  · rw [← h, hc]
  · rcases exists_capital hc with ⟨k, rfl⟩
    have hsmall : forall k : Fin 26, (Char.ofNat ('A'.toNat + k)).toLower.isLower = true := by
      decide
    rw [← h, hsmall k] at hd
    cases hd

theorem hexValue?_toLower (c : Char) : hexValue? c.toLower = hexValue? c := by
  by_cases hc : c.toLower = c
  · rw [hc]
  · rcases exists_capital hc with ⟨k, rfl⟩
    have hall : forall k : Fin 26, hexValue? (Char.ofNat ('A'.toNat + k)).toLower =
        hexValue? (Char.ofNat ('A'.toNat + k)) := by
      decide
    exact hall k

theorem toLower_hexDigit {n : Nat} (h : n < 16) : (hexDigit n).toLower = hexDigit n := by
  have hall : forall m : Fin 16, (hexDigit m).toLower = hexDigit m := by decide
  exact hall ⟨n, h⟩

theorem hexDigit_ne_hyphen {n : Nat} (h : n < 16) : hexDigit n ≠ '-' := by
  have hall : forall m : Fin 16, hexDigit m ≠ '-' := by decide
  exact hall ⟨n, h⟩

/-!
# Rows of digits
-/

theorem hexRead?_toLower (cs : List Char) :
    hexRead? (cs.map Char.toLower) = hexRead? cs := by
  have hfrom : forall n, hexReadFrom? n (cs.map Char.toLower) = hexReadFrom? n cs := by
    induction cs with
    | nil => exact fun n => rfl
    | cons c cs ih =>
        intro n
        simp only [List.map_cons, hexReadFrom?, hexValue?_toLower, ih]
  exact hfrom 0

theorem forall_mem_hexText {P : Char -> Prop} (h : forall n, n < 16 -> P (hexDigit n))
    (width n : Nat) : forall c, c ∈ hexText width n -> P c := by
  induction width generalizing n with
  | zero => exact fun c hc => absurd hc List.not_mem_nil
  | succ width ih =>
      intro c hc
      rcases List.mem_append.mp hc with hfront | hlast
      · exact ih (n / 16) c hfront
      · rw [List.mem_singleton.mp hlast]
        exact h (n % 16) (Nat.mod_lt _ (by decide))

theorem map_toLower_hexText (width n : Nat) :
    (hexText width n).map Char.toLower = hexText width n := by
  have hsmall := forall_mem_hexText (P := fun c => c.toLower = c)
    (fun n hn => toLower_hexDigit hn) width n
  exact (List.map_congr_left hsmall).trans (List.map_id _)

theorem toLower_of_hexValue? {c : Char} {d : Nat} (h : hexValue? c = some d) :
    d < 16 ∧ c.toLower = hexDigit d := by
  have hascii : c.toNat < 128 := by
    simp only [hexValue?] at h
    split at h
    · next hdigit =>
        have hmost : c.toNat ≤ 57 := (Char.isDigit_iff_toNat.mp hdigit).2
        omega
    · split at h
      · next hsmall =>
          have hmost : c.toNat ≤ 102 := hsmall.2
          omega
      · split at h
        · next hcapital =>
            have hmost : c.toNat ≤ 70 := hcapital.2
            omega
        · cases h
  have hall : forall k : Fin 128, (hexValue? (Char.ofNat k)).all (fun d =>
      decide (d < 16 ∧ (Char.ofNat k).toLower = hexDigit d)) = true := by
    decide
  have hc := hall ⟨c.toNat, hascii⟩
  rw [Char.ofNat_toNat, h] at hc
  exact of_decide_eq_true hc

theorem hexText_of_hexRead? {cs : List Char} {n : Nat} (h : hexRead? cs = some n) :
    n < Nat.pow 16 cs.length ∧ hexText cs.length n = cs.map Char.toLower := by
  induction cs using List.reverseRecOn generalizing n with
  | nil =>
      cases h
      exact ⟨by decide, rfl⟩
  | append_singleton cs c ih =>
      rw [hexRead?, hexReadFrom?_append] at h
      rcases Option.bind_eq_some_iff.mp h with ⟨m, hm, hlast⟩
      rcases Option.bind_eq_some_iff.mp hlast with ⟨d, hd, hn⟩
      rcases ih hm with ⟨hbound, htext⟩
      rcases toLower_of_hexValue? hd with ⟨hdigit, hsmall⟩
      have hn : n = 16 * m + d := (Option.some.inj hn).symm
      have hquot : n / 16 = m := by omega
      have hrem : n % 16 = d := by omega
      rw [List.length_append, List.length_singleton]
      constructor
      · have hpow : Nat.pow 16 (cs.length + 1) = Nat.pow 16 cs.length * 16 := rfl
        omega
      · rw [hexText, hquot, hrem, htext, List.map_append, List.map_singleton, hsmall]

end Text

namespace Uuid

/-!
# Hyphens
-/

theorem map_hyphenate (sizes : List Nat) (cs : List Char) :
    (hyphenate sizes cs).map Char.toLower = hyphenate sizes (cs.map Char.toLower) := by
  induction sizes generalizing cs with
  | nil => rfl
  | cons n sizes ih =>
      cases sizes with
      | nil => rfl
      | cons m sizes =>
          simp only [hyphenate, List.map_append, List.map_cons, ih, List.map_take,
            List.map_drop]
          rfl

theorem unhyphenate?_toLower (sizes : List Nat) (cs : List Char) :
    unhyphenate? sizes (cs.map Char.toLower) =
      (unhyphenate? sizes cs).map (List.map Char.toLower) := by
  induction sizes generalizing cs with
  | nil => rfl
  | cons n sizes ih =>
      cases sizes with
      | nil =>
          by_cases hn : cs.length = n
          · simp [unhyphenate?, hn]
          · simp [unhyphenate?, hn]
      | cons m sizes =>
          simp only [unhyphenate?, ← List.map_drop, ← List.map_take]
          cases cs.drop n with
          | nil => rfl
          | cons c rest =>
              by_cases hc : c = '-'
              · subst hc
                show (unhyphenate? (m :: sizes) (rest.map Char.toLower)).map
                    ((cs.take n).map Char.toLower ++ ·) =
                  ((unhyphenate? (m :: sizes) rest).map (cs.take n ++ ·)).map
                    (List.map Char.toLower)
                rw [ih, Option.map_map, Option.map_map]
                congr 1
                funext ds
                exact List.map_append.symm
              · have hsmall : c.toLower ≠ '-' := fun h => hc (Text.eq_of_toLower rfl h)
                simp [hc, hsmall]

theorem hyphenate_of_unhyphenate? {sizes : List Nat} {cs ds : List Char}
    (h : unhyphenate? sizes cs = some ds) : hyphenate sizes ds = cs := by
  induction sizes generalizing cs ds with
  | nil => cases h
  | cons n sizes ih =>
      cases sizes with
      | nil =>
          simp only [unhyphenate?] at h
          split at h
          · exact (Option.some.inj h).symm
          · cases h
      | cons m sizes =>
          simp only [unhyphenate?] at h
          split at h
          · next rest hrest =>
              rcases Option.map_eq_some_iff.mp h with ⟨es, hes, rfl⟩
              have hlength : (cs.take n).length = n := by
                have hdrop := congrArg List.length hrest
                rw [List.length_drop, List.length_cons] at hdrop
                rw [List.length_take]
                omega
              rw [hyphenate, List.take_left' hlength, List.drop_left' hlength, ih hes,
                ← hrest, List.take_append_drop]
          · cases h

/-!
# The four readers
-/

def grouped (u : Uuid) : List Char :=
  hyphenate groups u.digits

theorem length_grouped (u : Uuid) : u.grouped.length = 36 := by
  rw [grouped, length_hyphenate groups u.digits u.sum_groups, length_digits]
  rfl

theorem simple?_toLower (cs : List Char) : simple? (cs.map Char.toLower) = simple? cs := by
  rw [simple?, simple?, List.length_map, Text.hexRead?_toLower]

theorem simple?_eq_some_iff {cs : List Char} {u : Uuid} :
    simple? cs = some u ↔ cs.map Char.toLower = u.digits := by
  constructor
  · intro h
    simp only [simple?] at h
    split at h
    · next hlength =>
        rcases Option.map_eq_some_iff.mp h with ⟨n, hn, rfl⟩
        rcases Text.hexText_of_hexRead? hn with ⟨hbound, htext⟩
        rw [hlength] at hbound htext
        have hvalue : (ofNat n).value.val = n := Nat.mod_eq_of_lt hbound
        rw [digits, hvalue, htext]
    · cases h
  · intro h
    rw [← simple?_toLower, h, simple?_digits]

theorem hyphenated?_eq_some_iff {cs : List Char} {u : Uuid} :
    hyphenated? cs = some u ↔ cs.map Char.toLower = u.grouped := by
  constructor
  · intro h
    rcases Option.bind_eq_some_iff.mp h with ⟨ds, hds, hu⟩
    rw [← hyphenate_of_unhyphenate? hds, map_hyphenate, simple?_eq_some_iff.mp hu, grouped]
  · intro h
    have hgroups : (unhyphenate? groups cs).map (List.map Char.toLower) = some u.digits := by
      rw [← unhyphenate?_toLower, h]
      exact unhyphenate?_hyphenate 8 [4, 4, 4, 12] u.digits u.sum_groups
    rcases Option.map_eq_some_iff.mp hgroups with ⟨ds, hds, hsmall⟩
    rw [hyphenated?, hds]
    exact simple?_eq_some_iff.mpr hsmall

theorem braced?_eq_some_iff {cs : List Char} {u : Uuid} :
    braced? cs = some u ↔ cs.map Char.toLower = '{' :: u.grouped ++ ['}'] := by
  constructor
  · intro h
    simp only [braced?] at h
    split at h
    · next cs =>
        split at h
        · next hlast =>
            have hfront := hyphenated?_eq_some_iff.mp h
            rw [← List.take_append_drop 36 cs, hlast, List.map_cons, List.map_append, hfront]
            rfl
        · cases h
    · cases h
  · intro h
    cases cs with
    | nil => cases h
    | cons c cs =>
        rw [List.map_cons, List.cons_append] at h
        injection h with hopen hrest
        rcases Text.eq_of_toLower rfl hopen with rfl
        have hfront : (cs.take 36).map Char.toLower = u.grouped := by
          rw [List.map_take, hrest, List.take_left' u.length_grouped]
        have hlast : (cs.drop 36).map Char.toLower = ['}'] := by
          rw [List.map_drop, hrest, List.drop_left' u.length_grouped]
        rcases List.map_eq_singleton_iff.mp hlast with ⟨c, hdrop, hclose⟩
        rw [Text.eq_of_toLower rfl hclose] at hdrop
        rw [braced?, hdrop]
        exact hyphenated?_eq_some_iff.mpr hfront

theorem urn?_eq_some_iff {cs : List Char} {u : Uuid} :
    urn? cs = some u ↔ cs.map Char.toLower = urnStart ++ u.grouped := by
  constructor
  · intro h
    simp only [urn?] at h
    split at h
    · next hstart =>
        rw [← List.take_append_drop 9 cs, List.map_append, hstart,
          hyphenated?_eq_some_iff.mp h]
    · cases h
  · intro h
    have hlength : urnStart.length = 9 := rfl
    have hstart : (cs.take 9).map Char.toLower = urnStart := by
      rw [List.map_take, h, List.take_left' hlength]
    have hrest : (cs.drop 9).map Char.toLower = u.grouped := by
      rw [List.map_drop, h, List.drop_left' hlength]
    rw [urn?, if_pos hstart]
    exact hyphenated?_eq_some_iff.mpr hrest

/-!
# All spellings
-/

def spellings (u : Uuid) : List (List Char) :=
  [u.digits, u.grouped, '{' :: u.grouped ++ ['}'], urnStart ++ u.grouped]

theorem length_braced (u : Uuid) : ('{' :: u.grouped ++ ['}']).length = 38 := by
  rw [List.length_append, List.length_cons, length_grouped]
  rfl

theorem length_urn (u : Uuid) : (urnStart ++ u.grouped).length = 45 := by
  rw [List.length_append, length_grouped]
  rfl

theorem eq_none_of_length {read : List Char -> Option Uuid} {text : Uuid -> List Char}
    {n : Nat} {cs : List Char}
    (hread : forall u, read cs = some u ↔ cs.map Char.toLower = text u)
    (htext : forall u, (text u).length = n) (hlength : cs.length ≠ n) : read cs = none := by
  cases h : read cs with
  | none => rfl
  | some u =>
      have hsmall := congrArg List.length ((hread u).mp h)
      rw [List.length_map, htext] at hsmall
      exact absurd hsmall hlength

/-- The spellings differ in length, so at most one reader accepts a text. -/
theorem parseChars?_eq_some_iff {cs : List Char} {u : Uuid} :
    parseChars? cs = some u ↔ cs.map Char.toLower ∈ u.spellings := by
  have hsimple : cs.length ≠ 32 -> simple? cs = none :=
    eq_none_of_length (fun _ => simple?_eq_some_iff) length_digits
  have hgrouped : cs.length ≠ 36 -> hyphenated? cs = none :=
    eq_none_of_length (fun _ => hyphenated?_eq_some_iff) length_grouped
  have hbraced : cs.length ≠ 38 -> braced? cs = none :=
    eq_none_of_length (fun _ => braced?_eq_some_iff) length_braced
  simp only [parseChars?, Option.orElse_eq_or, spellings, List.mem_cons, List.not_mem_nil,
    or_false]
  rw [← simple?_eq_some_iff, ← hyphenated?_eq_some_iff, ← braced?_eq_some_iff,
    ← urn?_eq_some_iff]
  constructor
  · intro h
    rcases Option.or_eq_some_iff.mp h with h | ⟨_, h⟩
    · exact Or.inl h
    rcases Option.or_eq_some_iff.mp h with h | ⟨_, h⟩
    · exact Or.inr (Or.inl h)
    rcases Option.or_eq_some_iff.mp h with h | ⟨_, h⟩
    · exact Or.inr (Or.inr (Or.inl h))
    · exact Or.inr (Or.inr (Or.inr h))
  · intro h
    rcases h with h | h | h | h
    · rw [h, Option.some_or]
    · have hlength := congrArg List.length (hyphenated?_eq_some_iff.mp h)
      rw [List.length_map, length_grouped] at hlength
      rw [hsimple (by omega), h, Option.none_or, Option.some_or]
    · have hlength := congrArg List.length (braced?_eq_some_iff.mp h)
      rw [List.length_map, length_braced] at hlength
      rw [hsimple (by omega), hgrouped (by omega), h, Option.none_or, Option.none_or,
        Option.some_or]
    · have hlength := congrArg List.length (urn?_eq_some_iff.mp h)
      rw [List.length_map, length_urn] at hlength
      rw [hsimple (by omega), hgrouped (by omega), hbraced (by omega), h, Option.none_or,
        Option.none_or, Option.none_or]

end Uuid
end TelemetryTriggers
