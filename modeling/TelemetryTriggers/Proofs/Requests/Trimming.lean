import Mathlib.Data.List.DropRight
import TelemetryTriggers.Text.Blank

/-!
# Trimmed texts

What `trim` leaves of a text is known by two facts: only white space was taken away from its
two ends, and none is left there.

Main definitions: `IsTrimmed`, no white space at the two ends.  The main statement is
`trim_eq_iff`; `trim_trim`, that nothing is taken away twice, follows from it.
-/

namespace TelemetryTriggers
namespace Text

structure IsTrimmed (cs : List Char) : Prop where
  head : forall h : cs ≠ [], isBlank (cs.head h) = false
  last : forall h : cs ≠ [], isBlank (cs.getLast h) = false

/-- The second of the two passes goes from the right. -/
theorem trimChars_eq_rdropWhile (cs : List Char) :
    trimChars cs = (cs.dropWhile isBlank).rdropWhile isBlank :=
  rfl

theorem isTrimmed_trimChars (cs : List Char) : IsTrimmed (trimChars cs) := by
  rw [trimChars_eq_rdropWhile]
  constructor
  · intro h
    have hinitial := List.rdropWhile_prefix isBlank (cs.dropWhile isBlank)
    rw [hinitial.head h]
    simpa using List.head_dropWhile_not isBlank (hinitial.ne_nil h)
  · intro h
    simpa using List.rdropWhile_last_not isBlank (cs.dropWhile isBlank) h

theorem exists_blanks_around (cs : List Char) :
    exists front back : List Char, cs = front ++ (trimChars cs ++ back) ∧
      forall c, c ∈ front ++ back -> isBlank c = true := by
  refine ⟨cs.takeWhile isBlank, (cs.dropWhile isBlank).rtakeWhile isBlank, ?_, ?_⟩
  · rw [trimChars_eq_rdropWhile, List.rdropWhile_append_rtakeWhile,
      List.takeWhile_append_dropWhile]
  · intro c hc
    cases List.mem_append.mp hc with
    | inl hfront => exact List.mem_takeWhile_imp hfront
    | inr hback => exact List.mem_rtakeWhile_imp hback

theorem trimChars_blanks_around {front cs back : List Char}
    (hblank : forall c, c ∈ front ++ back -> isBlank c = true) (hcs : IsTrimmed cs) :
    trimChars (front ++ (cs ++ back)) = cs := by
  have hfront : forall c, c ∈ front -> isBlank c = true :=
    fun c hc => hblank c (List.mem_append_left back hc)
  have hback : forall c, c ∈ back -> isBlank c = true :=
    fun c hc => hblank c (List.mem_append_right front hc)
  have hright : (cs ++ back).rdropWhile isBlank = cs := by
    rw [List.rdropWhile, List.reverse_append, List.dropWhile_append_of_pos]
    · exact List.rdropWhile_eq_self_iff.mpr fun h => by simp [hcs.last h]
    · exact fun c hc => hback c (List.mem_reverse.mp hc)
  rw [trimChars_eq_rdropWhile, List.dropWhile_append_of_pos hfront]
  cases cs with
  | nil =>
      rw [List.nil_append, List.dropWhile_eq_nil_iff.mpr hback]
      rfl
  | cons c cs =>
      have hhead : isBlank c = false := hcs.head (List.cons_ne_nil c cs)
      rw [List.cons_append, List.dropWhile_cons_of_neg (by simp [hhead]), ← List.cons_append,
        hright]

/-- A text is trimmed to the one part of it that has white space around it and none at its
own two ends. -/
theorem trim_eq_iff {s t : String} :
    trim s = t ↔ IsTrimmed t.toList ∧
      exists front back : List Char, s.toList = front ++ (t.toList ++ back) ∧
        forall c, c ∈ front ++ back -> isBlank c = true := by
  constructor
  · intro h
    subst h
    rw [toList_trim]
    exact ⟨isTrimmed_trimChars s.toList, exists_blanks_around s.toList⟩
  · intro ⟨ht, front, back, hs, hblank⟩
    rw [trim, hs, trimChars_blanks_around hblank ht, String.ofList_toList]

theorem trim_eq_self {s : String} (h : IsTrimmed s.toList) : trim s = s :=
  trim_eq_iff.mpr ⟨h, [], [], by simp⟩

theorem trim_trim (s : String) : trim (trim s) = trim s :=
  trim_eq_self (trim_eq_iff.mp rfl).1

end Text
end TelemetryTriggers
