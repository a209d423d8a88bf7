import TelemetryTriggers.Proofs.Requests.Targets

/-!
# Requests that are accepted

A request is checked text by text, and each check is known from its grammar.  Together they
say which requests are accepted and what is taken from them.  All that is put right on the
way, white space and letter case and the choice between several words, is put right at once:
the record of an accepted request is itself a request that passes and comes out as it was.

Main definitions: `CreateRequest.WellFormed`, the grammar of requests; `ValidRequest.Reads`,
what is taken from one; `ValidRequest.asRequest`, the request for a record.  The main statement
is `CreateRequest.accepted_iff_wellFormed`.
-/

namespace TelemetryTriggers

/-- A request that can be served under a limit on targets.  The name of the thing is taken as
it is; all other texts may have white space around them, and the words any letter case. -/
structure CreateRequest.WellFormed (request : CreateRequest) (maxTargets : Nat) : Prop where
  thing : IsThingName request.thingName
  comparator : exists c : Comparator,
    Text.lowerAscii (Text.trim request.comparator) ∈ c.words
  property : IsPropertyName (Text.trim request.property)
  threshold : request.threshold.isFinite = true
  message : IsMessage (Text.trim request.message)
  few : request.targets.length ≤ maxTargets
  targets : forall spec, spec ∈ request.targets -> spec.WellFormed

structure ValidRequest.Reads (valid : ValidRequest) (request : CreateRequest) : Prop where
  thing : valid.thingName = request.thingName
  comparator :
    Text.lowerAscii (Text.trim request.comparator) ∈ valid.condition.comparator.words
  property : valid.condition.property = Text.trim request.property
  threshold : valid.condition.threshold = request.threshold
  message : valid.message = Text.trim request.message
  targets : List.Forall₂ ValidTarget.Reads valid.targets request.targets

theorem Condition.read_eq_ok_iff {property comparator : String} {threshold : Float}
    {c : Condition} :
    Condition.read property comparator threshold = .ok c ↔
      Text.lowerAscii (Text.trim comparator) ∈ c.comparator.words ∧ IsPropertyName property ∧
        threshold.isFinite = true ∧ c.property = property ∧ c.threshold = threshold := by
  rw [Condition.read, bind_eq_ok_iff]
  constructor
  · intro ⟨found, hfound, hmake⟩
    rcases Condition.make_eq_ok_iff.mp hmake with ⟨hname, hfinite, rfl⟩
    exact ⟨Comparator.parse_eq_ok_iff.mp hfound, hname, hfinite, rfl, rfl⟩
  · intro ⟨hword, hname, hfinite, hproperty, hthreshold⟩
    refine ⟨c.comparator, Comparator.parse_eq_ok_iff.mpr hword, ?_⟩
    subst hproperty hthreshold
    exact Condition.make_eq_ok_iff.mpr ⟨hname, hfinite, rfl⟩

namespace CreateRequest

variable {request : CreateRequest} {maxTargets : Nat} {valid : ValidRequest}

theorem validate_eq_ok_iff :
    request.validate maxTargets = .ok valid ↔
      request.WellFormed maxTargets ∧ valid.Reads request := by
  simp only [validate, bind_eq_ok_iff, check_eq_ok_iff, Condition.read_eq_ok_iff,
    validateMessage_eq_ok_iff, validateTargets_eq_ok_iff, Except.ok.injEq, Nat.not_lt]
  constructor
  · rintro ⟨_, hthing, c, ⟨hword, hname, hfinite, hproperty, hthreshold⟩, message,
      ⟨hmessage, hlength⟩, hfew, targets, ⟨hspecs, htargets⟩, rfl⟩
    rw [hmessage] at hlength
    exact ⟨⟨validateThingName_eq_ok_iff.mp hthing, ⟨c.comparator, hword⟩, hname, hfinite,
      hlength, hfew, hspecs⟩, ⟨rfl, hword, hproperty, hthreshold, hmessage, htargets⟩⟩
  · rintro ⟨hrequest, hreads⟩
    have hlength : IsMessage valid.message := by
      rw [hreads.message]
      exact hrequest.message
    refine ⟨(), validateThingName_eq_ok_iff.mpr hrequest.thing, valid.condition,
      ⟨hreads.comparator, hrequest.property, hrequest.threshold, hreads.property,
        hreads.threshold⟩, valid.message, ⟨hreads.message, hlength⟩, hrequest.few,
      valid.targets, ⟨hrequest.targets, hreads.targets⟩, ?_⟩
    rw [← hreads.thing]

theorem parts_of_validate (h : request.validate maxTargets = .ok valid) :
    validateThingName request.thingName = .ok () ∧ valid.thingName = request.thingName ∧
      request.targets.length ≤ maxTargets ∧
        validateTargets request.targets = .ok valid.targets := by
  rcases validate_eq_ok_iff.mp h with ⟨hrequest, hreads⟩
  exact ⟨validateThingName_eq_ok_iff.mpr hrequest.thing, hreads.thing, hrequest.few,
    validateTargets_eq_ok_iff.mpr ⟨hrequest.targets, hreads.targets⟩⟩

theorem WellFormed.exists_reads (h : request.WellFormed maxTargets) :
    exists valid : ValidRequest, valid.Reads request := by
  rcases h.comparator with ⟨c, hword⟩
  rcases exists_reads_of_wellFormed h.targets with ⟨targets, htargets⟩
  exact ⟨⟨request.thingName, ⟨Text.trim request.property, c, request.threshold⟩,
    Text.trim request.message, targets⟩, rfl, hword, rfl, rfl, rfl, htargets⟩

end CreateRequest

/-!
# Once more
-/

namespace ValidRequest

variable {request : CreateRequest} {maxTargets : Nat} {valid : ValidRequest}

def asRequest (valid : ValidRequest) (user : UserId) : CreateRequest :=
  ⟨user, valid.thingName, valid.condition.property, valid.condition.comparator.name,
    valid.condition.threshold, valid.message, valid.targets.map ValidTarget.asSpec⟩

theorem validate_asRequest (h : request.validate maxTargets = .ok valid) (user : UserId) :
    (valid.asRequest user).validate maxTargets = .ok valid := by
  rcases CreateRequest.validate_eq_ok_iff.mp h with ⟨hrequest, hreads⟩
  have hproperty : Text.trim valid.condition.property = valid.condition.property := by
    rw [hreads.property, Text.trim_trim]
  have hmessage : Text.trim valid.message = valid.message := by
    rw [hreads.message, Text.trim_trim]
  have hword := valid.condition.comparator.name_mem_words
  have htargets := validateTargets_eq_ok_iff.mp (validateTargets_map_asSpec
    (validateTargets_eq_ok_iff.mpr ⟨hrequest.targets, hreads.targets⟩))
  rw [CreateRequest.validate_eq_ok_iff]
  constructor
  · refine ⟨?_, ⟨_, hword⟩, ?_, ?_, ?_, ?_, htargets.1⟩
    · show IsThingName valid.thingName
      rw [hreads.thing]
      exact hrequest.thing
    · show IsPropertyName (Text.trim valid.condition.property)
      rw [hproperty, hreads.property]
      exact hrequest.property
    · show valid.condition.threshold.isFinite = true
      rw [hreads.threshold]
      exact hrequest.threshold
    · show IsMessage (Text.trim valid.message)
      rw [hmessage, hreads.message]
      exact hrequest.message
    · show (valid.targets.map ValidTarget.asSpec).length ≤ maxTargets
      rw [List.length_map, hreads.targets.length_eq]
      exact hrequest.few
  · exact ⟨rfl, hword, hproperty.symm, rfl, hmessage.symm, htargets.2⟩

end ValidRequest

/-- Exactly the well-formed requests are accepted.  What comes out has its texts trimmed and
its words read, and a request with the fields of what came out, from any account, is accepted
and comes out the same. -/
theorem CreateRequest.accepted_iff_wellFormed (request : CreateRequest) (maxTargets : Nat) :
    ((exists valid, request.validate maxTargets = .ok valid) ↔
      request.WellFormed maxTargets) ∧
    forall valid, request.validate maxTargets = .ok valid ->
      valid.Reads request ∧
        forall user, (valid.asRequest user).validate maxTargets = .ok valid := by
  refine ⟨⟨?_, ?_⟩, ?_⟩
  · intro ⟨valid, h⟩
    exact (CreateRequest.validate_eq_ok_iff.mp h).1
  · intro h
    rcases h.exists_reads with ⟨valid, hreads⟩
    exact ⟨valid, CreateRequest.validate_eq_ok_iff.mpr ⟨h, hreads⟩⟩
  · intro valid h
    exact ⟨(CreateRequest.validate_eq_ok_iff.mp h).2, ValidRequest.validate_asRequest h⟩

/-!
# An example
-/

/-- White space of several kinds, capitals, and an address with dots on both sides. -/
def paddedRequest : CreateRequest :=
  ⟨⟨7⟩, "car:1_A-b", "\t_RPM2\u00a0", " Greater-THAN\n", 3000, "\u3000Shift up ",
    [⟨" EMAIL", "a.b@c..d.e\n"⟩, ⟨"Phone ", " +491234"⟩]⟩

theorem paddedRequest_accepted :
    let valid : ValidRequest := ⟨"car:1_A-b", ⟨"_RPM2", .greaterThan, 3000⟩, "Shift up",
      [⟨.email, "a.b@c..d.e"⟩, ⟨.sms, "+491234"⟩]⟩
    paddedRequest.validate 2 = .ok valid ∧ paddedRequest.WellFormed 2 ∧
      valid.Reads paddedRequest ∧ (valid.asRequest ⟨8⟩).validate 2 = .ok valid ∧
        ¬ paddedRequest.WellFormed 1 := by
  intro valid
  have hvalid : paddedRequest.validate 2 = .ok valid := by decide +kernel
  rcases CreateRequest.accepted_iff_wellFormed paddedRequest 2 with ⟨haccepted, hresult⟩
  rcases hresult valid hvalid with ⟨hreads, hagain⟩
  refine ⟨hvalid, haccepted.mp ⟨valid, hvalid⟩, hreads, hagain ⟨8⟩, ?_⟩
  intro hone
  have hfew : 2 ≤ 1 := hone.few
  exact absurd hfew (by decide)

end TelemetryTriggers
