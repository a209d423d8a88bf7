import Mathlib.Data.String.Basic
import TelemetryTriggers.Proofs.Requests.Trimming
import TelemetryTriggers.Request

/-!
# Names, words and messages

Each check of a request that looks at one text is set against the grammar of that text.  The
grammars are stated on characters alone: which characters may stand where, and how many.

Main definitions: `Text.IsLetter`, `Text.IsDigit` and `Text.IsWord`; `IsThingName`,
`IsPropertyName` and `IsMessage`; `Comparator.words`, the words for each comparator.  The main
statements are `validateThingName_eq_ok_iff`, `Comparator.parse_eq_ok_iff`,
`Condition.make_eq_ok_iff` and `validateMessage_eq_ok_iff`.
-/

namespace TelemetryTriggers

/-!
# Checks in a row

A row of checks passes exactly when each check in it passes.
-/

section Checks

variable {ε α β : Type}

theorem check_eq_ok_iff {flawed : Prop} [Decidable flawed] {e : ε} {rest : Except ε α}
    {a : α} : (if flawed then .error e else rest) = .ok a ↔ ¬ flawed ∧ rest = .ok a := by
  by_cases h : flawed
  · simp [h]
  · simp [h]

theorem bind_eq_ok_iff {first : Except ε α} {rest : α -> Except ε β} {b : β} :
    first >>= rest = .ok b ↔ exists a, first = .ok a ∧ rest a = .ok b := by
  cases first with
  | error e => simp [bind, Except.bind]
  | ok a => simp [bind, Except.bind]

end Checks

/-!
# Classes of characters
-/

namespace Text

def IsLetter (c : Char) : Prop :=
  'A' ≤ c ∧ c ≤ 'Z' ∨ 'a' ≤ c ∧ c ≤ 'z'

def IsDigit (c : Char) : Prop :=
  '0' ≤ c ∧ c ≤ '9'

theorem isAlpha_iff {c : Char} : c.isAlpha = true ↔ IsLetter c := by
  have hupper : c.isUpper = true ↔ 'A' ≤ c ∧ c ≤ 'Z' := decide_eq_true_iff
  have hlower : c.isLower = true ↔ 'a' ≤ c ∧ c ≤ 'z' := by
    show (decide ('a' ≤ c) && decide (c ≤ 'z')) = true ↔ _
    rw [Bool.and_eq_true, decide_eq_true_eq, decide_eq_true_eq]
  show (c.isUpper || c.isLower) = true ↔ _
  rw [Bool.or_eq_true, hupper, hlower, IsLetter]

theorem isDigit_iff {c : Char} : c.isDigit = true ↔ IsDigit c := by
  rw [Char.isDigit, Bool.and_eq_true, decide_eq_true_eq, decide_eq_true_eq]
  exact Iff.rfl

theorem isWordStart_iff {c : Char} : isWordStart c = true ↔ IsLetter c ∨ c = '_' := by
  rw [isWordStart, Bool.or_eq_true, isAlpha_iff, beq_iff_eq]

theorem isWordChar_iff {c : Char} :
    isWordChar c = true ↔ IsLetter c ∨ IsDigit c ∨ c = '_' := by
  rw [isWordChar, Char.isAlphanum, Bool.or_eq_true, Bool.or_eq_true, isAlpha_iff, isDigit_iff,
    beq_iff_eq, or_assoc]

theorem consistsOf_iff {cls : Char -> Bool} {least most : Nat} {cs : List Char} :
    consistsOf cls least most cs = true ↔
      (forall c, c ∈ cs -> cls c = true) ∧ least ≤ cs.length ∧ cs.length ≤ most := by
  rw [consistsOf, Bool.and_eq_true, Bool.and_eq_true, List.all_eq_true, decide_eq_true_eq,
    decide_eq_true_eq, and_assoc]

def IsWord (cs : List Char) : Prop :=
  exists first rest, cs = first :: rest ∧ (IsLetter first ∨ first = '_') ∧
    forall c, c ∈ rest -> IsLetter c ∨ IsDigit c ∨ c = '_'

theorem startsThen_isWord_iff {cs : List Char} :
    startsThen isWordStart isWordChar cs = true ↔ IsWord cs := by
  cases cs with
  | nil => simp [startsThen, IsWord]
  | cons first rest => simp [startsThen, IsWord, isWordStart_iff, isWordChar_iff]

theorem IsWord.forall_mem {cs : List Char} (h : IsWord cs) {c : Char} (hc : c ∈ cs) :
    IsLetter c ∨ IsDigit c ∨ c = '_' := by
  rcases h with ⟨first, rest, rfl, hfirst, hrest⟩
  cases hc with
  | head => exact hfirst.imp_right Or.inr
  | tail _ hc => exact hrest c hc

theorem utf8ByteSize_of_ascii {s : String} (h : forall c, c ∈ s.toList -> c.val ≤ 127) :
    s.utf8ByteSize = s.length := by
  have hchars : forall cs : List Char, (forall c, c ∈ cs -> c.val ≤ 127) ->
      String.utf8Len cs = cs.length := by
    intro cs
    induction cs with
    | nil => exact fun _ => rfl
    | cons c cs ih =>
        intro hcs
        rw [String.utf8Len_cons, ih fun d hd => hcs d (List.mem_cons_of_mem c hd),
          Char.utf8Size_eq_one_iff.mpr (hcs c List.mem_cons_self), List.length_cons]
  rw [← String.length_toList, ← hchars s.toList h, ← String.utf8ByteSize_ofList,
    String.ofList_toList]

theorem utf8ByteSize_of_isWord {s : String} (h : IsWord s.toList) :
    s.utf8ByteSize = s.length := by
  apply utf8ByteSize_of_ascii
  intro c hc
  have hle : c ≤ 'z' := by
    rcases h.forall_mem hc with (⟨_, hupper⟩ | ⟨_, hlower⟩) | ⟨_, hdigit⟩ | hunderscore
    · exact Char.le_trans hupper (by decide)
    · exact hlower
    · exact Char.le_trans hdigit (by decide)
    · subst hunderscore
      decide
  exact Char.le_trans hle (show 'z' ≤ Char.ofNat 127 by decide)

end Text

/-!
# Names of things
-/

structure IsThingName (name : String) : Prop where
  length_pos : 1 ≤ name.length
  length_le : name.length ≤ 128
  chars : forall c, c ∈ name.toList ->
    Text.IsLetter c ∨ Text.IsDigit c ∨ c = ':' ∨ c = '_' ∨ c = '-'

theorem isThingNameChar_iff {c : Char} :
    isThingNameChar c = true ↔
      Text.IsLetter c ∨ Text.IsDigit c ∨ c = ':' ∨ c = '_' ∨ c = '-' := by
  simp only [isThingNameChar, Char.isAlphanum, Bool.or_eq_true, Text.isAlpha_iff,
    Text.isDigit_iff, beq_iff_eq, or_assoc]

theorem validateThingName_eq_ok_iff {name : String} :
    validateThingName name = .ok () ↔ IsThingName name := by
  rw [validateThingName, check_eq_ok_iff, check_eq_ok_iff, Bool.not_eq_false,
    Text.consistsOf_iff, String.length_toList]
  constructor
  · intro ⟨_, ⟨hchars, hpos, hle⟩, _⟩
    exact ⟨hpos, hle, fun c hc => isThingNameChar_iff.mp (hchars c hc)⟩
  · intro h
    refine ⟨?_, ⟨fun c hc => isThingNameChar_iff.mpr (h.chars c hc), h.length_pos,
      h.length_le⟩, rfl⟩
    intro hempty
    have hpos := h.length_pos
    rw [hempty] at hpos
    exact absurd hpos (by decide)

/-!
# Comparators
-/

namespace Comparator

def words : Comparator -> List String
  | lessThan => ["lt", "<", "less-than", "less_than"]
  | greaterThan => ["gt", ">", "greater-than", "greater_than"]
  | equal => ["eq", "=", "==", "equal"]

theorem name_mem_words (c : Comparator) : Text.lowerAscii (Text.trim c.name) ∈ c.words := by
  cases c with
  | lessThan | greaterThan | equal => decide

theorem lookup_spellings_eq_some_iff {word : String} {c : Comparator} :
    spellings.lookup word = some c ↔ word ∈ c.words := by
  constructor
  · intro h
    rcases List.lookup_eq_some_iff.mp h with ⟨before, after, htable, _⟩
    have hentry : (word, c) ∈ spellings := by
      rw [htable]
      exact List.mem_append_right before List.mem_cons_self
    have hwords : forall entry, entry ∈ spellings -> entry.1 ∈ entry.2.words := by decide
    exact hwords (word, c) hentry
  · have hfound : forall c : Comparator, forall word, word ∈ c.words ->
        spellings.lookup word = some c := by
      intro c
      cases c with
      | lessThan | greaterThan | equal => decide
    exact hfound c word

theorem parse_eq_ok_iff {s : String} {c : Comparator} :
    parse s = .ok c ↔ Text.lowerAscii (Text.trim s) ∈ c.words := by
  rw [← lookup_spellings_eq_some_iff, parse]
  split
  · rename_i found hfound
    rw [hfound, Except.ok.injEq, Option.some.injEq]
  · rename_i hnone
    rw [hnone]
    exact iff_of_false (fun h => nomatch h) (fun h => nomatch h)

end Comparator

/-!
# Properties and conditions
-/

structure IsPropertyName (property : String) : Prop where
  word : Text.IsWord property.toList
  length_le : property.length ≤ 64

theorem Condition.make_eq_ok_iff {property : String} {comparator : Comparator}
    {threshold : Float} {c : Condition} :
    Condition.make property comparator threshold = .ok c ↔
      IsPropertyName property ∧ threshold.isFinite = true ∧
        c = ⟨property, comparator, threshold⟩ := by
  rw [Condition.make, check_eq_ok_iff, check_eq_ok_iff, check_eq_ok_iff, check_eq_ok_iff,
    Bool.not_eq_false, Bool.not_eq_false, Nat.not_lt, Except.ok.injEq, Condition.isProperty,
    Text.startsThen_isWord_iff]
  constructor
  · intro ⟨_, hsize, hword, hfinite, hc⟩
    -- Bytes are counted before it is known that the text is a word.
    rw [Text.utf8ByteSize_of_isWord hword] at hsize
    exact ⟨⟨hword, hsize⟩, hfinite, hc.symm⟩
  · intro ⟨hname, hfinite, hc⟩
    refine ⟨?_, ?_, hname.word, hfinite, hc.symm⟩
    · rcases hname.word with ⟨first, rest, hchars, _⟩
      intro hempty
      rw [hempty] at hchars
      cases hchars
    · rw [Text.utf8ByteSize_of_isWord hname.word]
      exact hname.length_le

/-!
# Messages
-/

def IsMessage (message : String) : Prop :=
  1 ≤ message.length ∧ message.length ≤ 200

theorem validateMessage_eq_ok_iff {given message : String} :
    validateMessage given = .ok message ↔ message = Text.trim given ∧ IsMessage message := by
  rw [validateMessage, check_eq_ok_iff, check_eq_ok_iff, Nat.not_lt, Except.ok.injEq,
    ← String.length_eq_zero_iff]
  constructor
  · intro ⟨hne, hle, h⟩
    subst h
    exact ⟨rfl, Nat.one_le_iff_ne_zero.mpr hne, hle⟩
  · intro ⟨h, hpos, hle⟩
    subst h
    exact ⟨Nat.one_le_iff_ne_zero.mp hpos, hle, rfl⟩

end TelemetryTriggers
