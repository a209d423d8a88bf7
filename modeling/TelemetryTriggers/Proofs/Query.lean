import Mathlib.Data.List.Basic
import TelemetryTriggers.Predicate
import TelemetryTriggers.Proofs.Requests.Words

/-!
# Reading predicates back

The rule engine knows a predicate by its text only.  Here such a text is read as a query:
the message to publish, the topic to select from, and a clause about the reported state.
The message is a literal in which quotes are escaped, names consist of word characters and
numerals of digits, points and signs, so each part of a predicate ends where it should.

Main definitions: `Clause` and `Query`, with the reader `Query.read?`; `Query.device?`,
the device that the topic belongs to.  The main statement is `Query.read?_predicateText`.
-/

namespace TelemetryTriggers

inductive Clause
  | comparison (key : String) (comparator : Comparator) (numeral : String)
  | both (left right : Clause)
  | negation (clause : Clause)
deriving DecidableEq

/-- What is published when a report on the source satisfies the clause. -/
structure Query where
  payload : String
  source : String
  clause : Clause
deriving DecidableEq

namespace Query

/-!
# The reader

Each part of it reads from the beginning of a text and leaves the rest.
-/

/-- The characters up to a quote and what follows the quote.  A backslash stands before a
character that is taken as it is. -/
def readLiteral : List Char -> Option (List Char × List Char)
  | [] => none
  | '"' :: rest => some ([], rest)
  | '\\' :: c :: cs => (readLiteral cs).map fun (text, rest) => (c :: text, rest)
  | ['\\'] => none
  | c :: cs => (readLiteral cs).map fun (text, rest) => (c :: text, rest)

def readSpan (cls : Char -> Bool) (cs : List Char) : Option (String × List Char) :=
  if cs.takeWhile cls = [] then none
  else some (String.ofList (cs.takeWhile cls), cs.dropWhile cls)

def isNumeralChar (c : Char) : Bool :=
  c.isDigit || c == '.' || c == '-'

def readComparator : List Char -> Option (Comparator × List Char)
  | '<' :: rest => some (.lessThan, rest)
  | '>' :: rest => some (.greaterThan, rest)
  | '=' :: rest => some (.equal, rest)
  | _ => none

def readComparison (cs : List Char) : Option (Clause × List Char) := do
  let (key, cs) ← readSpan Text.isWordChar (← Text.stripStart "state.reported.".toList cs)
  let (comparator, cs) ← readComparator (← Text.stripStart " ".toList cs)
  let (numeral, cs) ← readSpan isNumeralChar (← Text.stripStart " ".toList cs)
  some (.comparison key comparator numeral, cs)

/-- Comparisons and negated clauses in parentheses, joined by `AND`, as many as the given
number allows. -/
def readClause : Nat -> List Char -> Option (Clause × List Char)
  | 0, _ => none
  | n + 1, cs => do
      let (first, cs) ←
        match Text.stripStart "NOT (".toList cs with
        | none => readComparison cs
        | some inner => do
            let (clause, cs) ← readClause n inner
            some (.negation clause, ← Text.stripStart ")".toList cs)
      match Text.stripStart " AND ".toList cs with
      | none => some (first, cs)
      | some more => do
          let (rest, cs) ← readClause n more
          some (.both first rest, cs)

def topicMark : Char :=
  Char.ofNat 39

/-- Reads a query that is the whole text.  Each part of a clause takes a character at least,
so the length of the text is allowance enough. -/
def read? (text : String) : Option Query := do
  let (payload, cs) ← readLiteral (← Text.stripStart "SELECT \"".toList text.toList)
  let cs ← Text.stripStart " AS default FROM '".toList cs
  let (source, cs) ← readSpan (· != topicMark) cs
  let (clause, cs) ← readClause cs.length (← Text.stripStart "' WHERE ".toList cs)
  if cs = [] then some ⟨String.ofList payload, source, clause⟩ else none

def device? (q : Query) : Option String :=
  (Text.stripStart "$aws/things/".toList q.source.toList).bind fun rest =>
    (Text.stripStart "/shadow/update/accepted".toList.reverse rest.reverse).map fun device =>
      String.ofList device.reverse

/-!
# Parts of a text
-/

/-- The message ends at the first quote that is not escaped. -/
theorem readLiteral_literal (message rest : List Char) :
    readLiteral (message.flatMap literalChar ++ '"' :: rest) = some (message, rest) := by
  induction message with
  | nil => rfl
  | cons c cs ih =>
      rw [List.flatMap_cons, List.append_assoc]
      by_cases hc : c = '"' ∨ c = '\\'
      · rw [literalChar, if_pos hc]
        show (readLiteral (cs.flatMap literalChar ++ '"' :: rest)).map _ = _
        rw [ih]
        rfl
      · rw [literalChar, if_neg hc, List.singleton_append, readLiteral, ih]
        · rfl
        · exact fun hquote => hc (Or.inl hquote)
        · exact fun _ _ hescape _ => hc (Or.inr hescape)
        · exact fun hescape _ => hc (Or.inr hescape)

theorem readSpan_append {cls : Char -> Bool} {word : String} {rest : List Char}
    (hne : word ≠ "") (hword : word.toList.all cls = true)
    (hrest : rest.head?.all (fun c => !cls c) = true) :
    readSpan cls (word.toList ++ rest) = some (word, rest) := by
  have hend : rest.takeWhile cls = [] ∧ rest.dropWhile cls = rest := by
    cases rest with
    | nil => exact ⟨rfl, rfl⟩
    | cons c cs =>
        have hc : cls c = false := by simpa using hrest
        exact ⟨by rw [List.takeWhile_cons, hc]; rfl, by rw [List.dropWhile_cons, hc]; rfl⟩
  have hall := List.all_eq_true.mp hword
  rw [readSpan, List.takeWhile_append_of_pos hall, List.dropWhile_append_of_pos hall, hend.1,
    hend.2, List.append_nil, String.ofList_toList, if_neg]
  intro hnil
  exact hne (String.toList_eq_nil_iff.mp hnil)

theorem readComparator_symbol (comparator : Comparator) (rest : List Char) :
    readComparator (comparator.symbol.toList ++ rest) = some (comparator, rest) := by
  cases comparator with
  | lessThan | greaterThan | equal => rfl

/-!
# Names, numerals and topics
-/

theorem word_of_make {property : String} {comparator : Comparator} {threshold : Float}
    {c : Condition} (h : Condition.make property comparator threshold = .ok c) :
    c = ⟨property, comparator, threshold⟩ ∧ property.toList.all Text.isWordChar = true ∧
      threshold.isFinite = true := by
  rcases Condition.make_eq_ok_iff.mp h with ⟨hname, hfinite, hc⟩
  refine ⟨hc, ?_, hfinite⟩
  rw [List.all_eq_true]
  exact fun c hc => Text.isWordChar_iff.mpr (hname.word.forall_mem hc)

def IsNumeral (s : String) : Prop :=
  s ≠ "" ∧ s.toList.all isNumeralChar = true

theorem IsNumeral.append {s t : String} (h : IsNumeral s)
    (ht : t.toList.all isNumeralChar = true) : IsNumeral (s ++ t) := by
  refine ⟨fun hnil => h.1 (String.append_eq_empty_iff.mp hnil).1, ?_⟩
  rw [String.toList_append, List.all_append, h.2, ht]
  rfl

theorem IsNumeral.after {s t : String} (h : IsNumeral t)
    (hs : s.toList.all isNumeralChar = true) : IsNumeral (s ++ t) := by
  refine ⟨fun hnil => h.1 (String.append_eq_empty_iff.mp hnil).2, ?_⟩
  rw [String.toList_append, List.all_append, h.2, hs]
  rfl

theorem isNumeralChar_of_mem_toDigits {n : Nat} {c : Char} (h : c ∈ Nat.toDigits 10 n) :
    isNumeralChar c = true := by
  rw [isNumeralChar, Nat.isDigit_of_mem_toDigits (by decide) (by decide) h]
  rfl

theorem all_zeros (n : Nat) : (Decimal.zeros n).toList.all isNumeralChar = true := by
  rw [Decimal.zeros, String.toList_ofList, List.all_eq_true]
  intro c hc
  rw [List.eq_of_mem_replicate hc]
  rfl

theorem isNumeral_positionalText (d : Decimal.Digits) :
    IsNumeral (Decimal.plain.positionalText d) := by
  have hdigits : forall cs : List Char, cs.Sublist (Nat.toDigits 10 d.digits) ->
      (String.ofList cs).toList.all isNumeralChar = true := by
    intro cs hcs
    rw [String.toList_ofList, List.all_eq_true]
    exact fun c hc => isNumeralChar_of_mem_toDigits (hcs.subset hc)
  have hwhole : IsNumeral (String.ofList (Nat.toDigits 10 d.digits)) := by
    refine ⟨?_, hdigits _ (.refl _)⟩
    intro hnil
    have hnone := congrArg String.toList hnil
    rw [String.toList_ofList] at hnone
    exact Nat.toDigits_ne_nil hnone
  rw [Decimal.Layout.positionalText]
  split
  · have hfront : IsNumeral "0." := ⟨by decide, by decide⟩
    exact (hfront.append (all_zeros _)).append (hdigits _ (.refl _))
  · split
    · have hpoint : IsNumeral "." := ⟨by decide, by decide⟩
      exact (hpoint.after (hdigits _ (List.take_sublist _ _))).append
        (hdigits _ (List.drop_sublist _ _))
    · exact (hwhole.append (all_zeros _)).append rfl

theorem isNumeral_text {x : Float} (h : x.isFinite = true) : IsNumeral (Decimal.text x) := by
  have hsign : (if Decimal.isNegative x then "-" else "").toList.all isNumeralChar = true := by
    split
    · decide
    · decide
  have hmagnitude : forall d : Decimal.Digits, IsNumeral (Decimal.plain.magnitude d) := by
    intro d
    rw [Decimal.Layout.magnitude]
    split
    · exact ⟨by decide, by decide⟩
    · exact isNumeral_positionalText d
  rw [Decimal.text_of_isFinite h]
  exact (hmagnitude _).after hsign

theorem all_sourceTopic {thing : String} (h : validateThingName thing = .ok ()) :
    (sourceTopic thing).toList.all (· != topicMark) = true := by
  have hthing : thing.toList.all (· != topicMark) = true := by
    rw [List.all_eq_true]
    intro c hc
    rw [bne_iff_ne]
    intro hmark
    have hchar := isThingNameChar_iff.mpr ((validateThingName_eq_ok_iff.mp h).chars c hc)
    rw [hmark] at hchar
    exact absurd hchar (by decide)
  rw [sourceTopic, String.toList_append, String.toList_append, List.all_append, List.all_append,
    hthing]
  decide

/-!
# The text of a condition
-/

def comparisonChars (key : String) (c : Condition) : List Char :=
  "state.reported.".toList ++ (key.toList ++ (" ".toList ++ (c.comparator.symbol.toList ++
    (" ".toList ++ (Decimal.text c.threshold).toList))))

theorem readComparison_comparisonChars {key : String} {c : Condition} {rest : List Char}
    (hne : key ≠ "") (hkey : key.toList.all Text.isWordChar = true)
    (hfinite : c.threshold.isFinite = true)
    (hrest : rest.head?.all (fun c => !isNumeralChar c) = true) :
    readComparison (comparisonChars key c ++ rest) =
      some (.comparison key c.comparator (Decimal.text c.threshold), rest) := by
  rcases isNumeral_text hfinite with ⟨hnumeral, hchars⟩
  have hblank : forall cs : List Char,
      (" ".toList ++ cs).head?.all (fun c => !Text.isWordChar c) = true := fun _ => rfl
  unfold comparisonChars readComparison
  simp only [List.append_assoc, Text.stripStart_append, Option.bind_eq_bind, Option.bind_some,
    readSpan_append hne hkey (hblank _), readComparator_symbol,
    readSpan_append hnumeral hchars hrest]

def crossing (c : Condition) : Clause :=
  .both (.comparison (currentMark ++ c.property) c.comparator (Decimal.text c.threshold))
    (.negation
      (.comparison (previousMark ++ c.property) c.comparator (Decimal.text c.threshold)))

theorem readClause_crossing {c : Condition} (hword : c.property.toList.all Text.isWordChar = true)
    (hfinite : c.threshold.isFinite = true) (n : Nat) :
    readClause (n + 3) (comparisonChars (currentMark ++ c.property) c ++ (" AND ".toList ++
        ("NOT (".toList ++ (comparisonChars (previousMark ++ c.property) c ++ ")".toList)))) =
      some (crossing c, []) := by
  have hkey : forall mark : String, mark.toList.all Text.isWordChar = true ->
      (mark ++ c.property).toList.all Text.isWordChar = true := by
    intro mark hmark
    rw [String.toList_append, List.all_append, hmark, hword]
    rfl
  have hne : forall mark : String, mark ≠ "" -> mark ++ c.property ≠ "" :=
    fun mark hmark hnil => hmark (String.append_eq_empty_iff.mp hnil).1
  have hplain : forall (key : String) (cs : List Char),
      Text.stripStart "NOT (".toList (comparisonChars key c ++ cs) = none := fun _ _ => rfl
  have hinner : readClause (n + 1)
      (comparisonChars (previousMark ++ c.property) c ++ ")".toList) =
        some (.comparison (previousMark ++ c.property) c.comparator (Decimal.text c.threshold),
          ")".toList) := by
    rw [readClause, hplain, readComparison_comparisonChars (hne _ (by decide))
      (hkey _ (by decide)) hfinite rfl]
    rfl
  have hnegated : readClause (n + 2) ("NOT (".toList ++
      (comparisonChars (previousMark ++ c.property) c ++ ")".toList)) =
        some (.negation (.comparison (previousMark ++ c.property) c.comparator
          (Decimal.text c.threshold)), []) := by
    rw [readClause, Text.stripStart_append]
    simp only [hinner]
    rfl
  rw [readClause, hplain, readComparison_comparisonChars (hne _ (by decide))
    (hkey _ (by decide)) hfinite rfl]
  simp only [Option.bind_eq_bind, Option.bind_some, Text.stripStart_append, hnegated]
  rfl

theorem toList_predicateText (thing : String) (c : Condition) (message : String) :
    (predicateText thing c message).toList =
      "SELECT \"".toList ++ (message.toList.flatMap literalChar ++ '"' ::
        (" AS default FROM '".toList ++ ((sourceTopic thing).toList ++ ("' WHERE ".toList ++
          (comparisonChars (currentMark ++ c.property) c ++ (" AND ".toList ++
            ("NOT (".toList ++ (comparisonChars (previousMark ++ c.property) c ++
              ")".toList)))))))) := by
  have hfrom : "\" AS default FROM '".toList = '"' :: " AS default FROM '".toList := by simp
  have hwhere : "' WHERE state.reported.".toList =
      "' WHERE ".toList ++ "state.reported.".toList := by simp
  have hand : " AND NOT (state.reported.".toList =
      " AND ".toList ++ ("NOT (".toList ++ "state.reported.".toList) := by simp
  unfold predicateText literal comparisonChars
  simp only [String.toList_append, String.toList_ofList, hfrom, hwhere, hand,
    List.append_assoc, List.cons_append]

/-- What a condition is compiled to is read back as a query: the message, the topic of the
device, and the crossing of the threshold. -/
theorem read?_predicateText {thing : String} {c : Condition} (message : String)
    (hthing : validateThingName thing = .ok ())
    (hword : c.property.toList.all Text.isWordChar = true)
    (hfinite : c.threshold.isFinite = true) :
    read? (predicateText thing c message) = some ⟨message, sourceTopic thing, crossing c⟩ := by
  have hsource : sourceTopic thing ≠ "" := by
    intro hnil
    have hnone := (String.append_eq_empty_iff.mp (String.append_eq_empty_iff.mp hnil).1).1
    exact absurd hnone (by decide)
  have hmark : forall cs : List Char,
      ("' WHERE ".toList ++ cs).head?.all (fun c => !(c != topicMark)) = true := fun _ => rfl
  let clause := comparisonChars (currentMark ++ c.property) c ++ (" AND ".toList ++
    ("NOT (".toList ++ (comparisonChars (previousMark ++ c.property) c ++ ")".toList)))
  have hclause : readClause ("' WHERE ".toList ++ clause).length clause =
      some (crossing c, []) := by
    have hlength : exists n, ("' WHERE ".toList ++ clause).length = n + 3 := by
      refine ⟨clause.length + 5, ?_⟩
      rw [List.length_append]
      show 8 + clause.length = _
      omega
    rcases hlength with ⟨n, hlength⟩
    rw [hlength]
    exact readClause_crossing hword hfinite n
  rw [read?, toList_predicateText]
  simp only [Text.stripStart_append, Option.bind_eq_bind, Option.bind_some, readLiteral_literal,
    readSpan_append hsource (all_sourceTopic hthing) (hmark _)]
  show (readClause ("' WHERE ".toList ++ clause).length clause).bind _ = _
  rw [hclause]
  simp only [Option.bind_some, if_true, String.ofList_toList]

theorem device?_sourceTopic (payload thing : String) (clause : Clause) :
    device? ⟨payload, sourceTopic thing, clause⟩ = some thing := by
  rw [device?, sourceTopic, String.toList_append, String.toList_append, List.append_assoc,
    Text.stripStart_append, Option.bind_some, List.reverse_append, Text.stripStart_append]
  simp

end Query
end TelemetryTriggers
