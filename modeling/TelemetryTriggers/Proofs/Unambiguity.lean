import TelemetryTriggers.Proofs.Decimal.RoundTrip
import TelemetryTriggers.Proofs.Query

/-!
# Predicates tell conditions apart

A message may hold quotes, backslashes or a copy of a predicate.  Whatever it holds, the
literal in the text of a predicate ends at the quote after the message, and what follows does
not depend on the message.  So the text says what it was made of, and two conditions with one
text are one condition.

Main definitions: `replaceChar`; `Query.afterQuote`; `selectionText`, what follows the message.
The main statement is `Condition.text_unambiguous`.
-/

namespace TelemetryTriggers

/-!
# Escapes
-/

def replaceChar (old : Char) (new : List Char) (cs : List Char) : List Char :=
  cs.flatMap fun c => if c = old then new else [c]

theorem toList_literal (s : String) :
    (literal s).toList =
      replaceChar '"' ['\\', '"'] (replaceChar '\\' ['\\', '\\'] s.toList) := by
  rw [literal, String.toList_ofList, replaceChar, replaceChar, List.flatMap_assoc]
  apply List.flatMap_congr
  intro c _
  rw [literalChar]
  by_cases hbackslash : c = '\\'
  · rw [if_pos (Or.inr hbackslash), if_pos hbackslash, hbackslash]
    rfl
  · rw [if_neg hbackslash, List.flatMap_cons, List.flatMap_nil, List.append_nil]
    by_cases hquote : c = '"'
    · rw [if_pos (Or.inl hquote), if_pos hquote, hquote]
    · rw [if_neg hquote, if_neg]
      rintro (hc | hc)
      · exact hquote hc
      · exact hbackslash hc

/-- In the other order a backslash that escapes a quote would be escaped itself. -/
example : replaceChar '\\' ['\\', '\\'] (replaceChar '"' ['\\', '"'] ['"']) =
    ['\\', '\\', '"'] := by decide

/-!
# The literal and what follows it
-/

def Query.afterQuote (cs : List Char) : List Char :=
  (cs.dropWhile (· != '"')).drop 1

def selectionText (thing : String) (c : Condition) : String :=
  let test := c.comparator.symbol ++ " " ++ Decimal.text c.threshold
  " AS default FROM '$aws/things/" ++ thing ++ "/shadow/update/accepted'" ++
    " WHERE state.reported.curr" ++ c.property ++ " " ++ test ++
    " AND NOT (state.reported.prev" ++ c.property ++ " " ++ test ++ ")"

theorem toList_predicateText_literal (thing : String) (c : Condition) (message : String) :
    (predicateText thing c message).toList = "SELECT ".toList ++ '"' ::
      ((literal message).toList ++ '"' :: (selectionText thing c).toList) := by
  unfold predicateText selectionText sourceTopic currentMark previousMark
  simp [String.toList_append, List.append_assoc]

/-- The first quote of a predicate opens the message, and the next one that is not escaped
closes it. -/
theorem Query.readLiteral_predicateText (thing : String) (c : Condition) (message : String) :
    readLiteral (afterQuote (predicateText thing c message).toList) =
      some (message.toList, (selectionText thing c).toList) := by
  have hbefore : "SELECT ".toList.all (· != '"') = true := by decide
  rw [toList_predicateText_literal, afterQuote,
    List.dropWhile_append_of_pos (List.all_eq_true.mp hbefore),
    List.dropWhile_cons_of_neg (by decide), List.drop_succ_cons, List.drop_zero, literal,
    String.toList_ofList, readLiteral_literal]

/-!
# Conditions
-/

namespace Condition

variable {c : Condition} {thing property : String} {comparator : Comparator}
  {threshold : Float}

theorem eq_of_crossing {c c' : Condition} (h : Query.crossing c = Query.crossing c') :
    c.property = c'.property ∧ c.comparator = c'.comparator ∧
      Decimal.text c.threshold = Decimal.text c'.threshold := by
  unfold Query.crossing at h
  injection h with hcurrent _
  injection hcurrent with hkey hcomparator hnumeral
  exact ⟨String.append_right_inj currentMark |>.mp hkey, hcomparator, hnumeral⟩

/-- A compiled condition can be read back from its text.  The literal that begins at the first
quote holds the message, whatever characters it has, and ends at the quote before the
selection, which names the device, the property, the comparator and the threshold.  So no
other device, condition or message has the same text. -/
theorem text_unambiguous (hthing : validateThingName thing = .ok ())
    (hc : make property comparator threshold = .ok c) (message : String) :
    exists p, c.compile thing message = .ok p ∧
      p.text.toList = "SELECT ".toList ++ '"' ::
        (replaceChar '"' ['\\', '"'] (replaceChar '\\' ['\\', '\\'] message.toList) ++
          '"' :: (selectionText thing c).toList) ∧
      Query.readLiteral (Query.afterQuote p.text.toList) =
        some (message.toList, (selectionText thing c).toList) ∧
      (exists q, Query.read? p.text = some q ∧ q.payload = message ∧ q.device? = some thing ∧
        q.clause = .both
          (.comparison (currentMark ++ property) comparator (Decimal.text threshold))
          (.negation
            (.comparison (previousMark ++ property) comparator (Decimal.text threshold)))) ∧
      forall {thing' property' : String} {comparator' : Comparator} {threshold' : Float}
        {c' : Condition} {message' : String} {p' : Predicate},
        make property' comparator' threshold' = .ok c' -> c'.compile thing' message' = .ok p' ->
        p'.text = p.text ->
          thing' = thing ∧ property' = property ∧ comparator' = comparator ∧
            threshold' = threshold ∧ message' = message := by
  rcases Query.word_of_make hc with ⟨rfl, hword, hfinite⟩
  have hread := Query.read?_predicateText (c := ⟨property, comparator, threshold⟩) message
    hthing hword hfinite
  refine ⟨_, compile_eq_ok.mpr ⟨hthing, rfl⟩, ?_, Query.readLiteral_predicateText _ _ _,
    ⟨_, hread, rfl, Query.device?_sourceTopic _ _ _, rfl⟩, ?_⟩
  · rw [toList_predicateText_literal, toList_literal]
  intro thing' property' comparator' threshold' c' message' p' hc' hp' htext
  rcases Query.word_of_make hc' with ⟨rfl, hword', hfinite'⟩
  rcases compile_eq_ok.mp hp' with ⟨hthing', rfl⟩
  have hread' := Query.read?_predicateText (c := ⟨property', comparator', threshold'⟩) message'
    hthing' hword' hfinite'
  dsimp only at htext
  rw [htext, hread] at hread'
  injection hread' with hquery
  injection hquery with hmessage hsource hclause
  rcases eq_of_crossing hclause.symm with ⟨hproperty, hcomparator, hnumeral⟩
  have hdevice : some thing' = some thing := by
    rw [← Query.device?_sourceTopic "" thing' (.comparison "" .equal ""), ← hsource,
      Query.device?_sourceTopic]
  exact ⟨Option.some.inj hdevice, hproperty, hcomparator,
    Decimal.text_injective hfinite' hfinite hnumeral, hmessage.symm⟩

/-- A message that looks like the end of its own literal. -/
theorem quoting_message_unambiguous :
    let c : Condition := ⟨"RPM", .greaterThan, 3000⟩
    let message := "\" AS default FROM \\"
    validateThingName "car1" = .ok () ∧ make "RPM" .greaterThan 3000 = .ok c ∧
      exists p, c.compile "car1" message = .ok p ∧
        p.text = "SELECT \"\\\" AS default FROM \\\\\" AS default FROM " ++
          "'$aws/things/car1/shadow/update/accepted' WHERE state.reported.currRPM > 3000 " ++
          "AND NOT (state.reported.prevRPM > 3000)" ∧
        Query.readLiteral (Query.afterQuote p.text.toList) =
          some (message.toList, (selectionText "car1" c).toList) ∧
        (exists q, Query.read? p.text = some q ∧ q.payload = message ∧
          q.device? = some "car1" ∧ q.clause = .both
            (.comparison "currRPM" .greaterThan "3000")
            (.negation (.comparison "prevRPM" .greaterThan "3000"))) ∧
        forall (message' : String) (p' : Predicate), c.compile "car1" message' = .ok p' ->
          p'.text = p.text -> message' = message := by
  intro c message
  have hthing : validateThingName "car1" = .ok () := by decide +kernel
  have hc : make "RPM" .greaterThan 3000 = .ok c := by decide +kernel
  rcases text_unambiguous hthing hc message with ⟨p, hp, _, hliteral, hquery, hunique⟩
  rcases compile_eq_ok.mp hp with ⟨_, rfl⟩
  have hnumeral : Decimal.text 3000 = "3000" := by decide +kernel
  rw [hnumeral] at hquery
  refine ⟨hthing, hc, _, hp, ?_, hliteral, hquery, ?_⟩
  · decide +kernel
  · intro message' p' hp' htext
    exact (hunique hc hp' htext).2.2.2.2

end Condition
end TelemetryTriggers
