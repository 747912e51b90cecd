import Sbagent.SchemaRules

/-!
# Schemas and validators

For each type that has rules, what its schema accepts and what its validator accepts. The
validators check more than the schemas: what they check of the rules of the schemas is in
`checkRules`, which is all they do if nothing else is wrong
(`Ruled.validateModel_eq_checkRules`).

What a schema accepts keeps the rules. The other direction fails in two ways: where a null
is left that must not be there, and where a list that has to say something does so in one
item but not in another.
-/

open Fallible JsonSchema Json

/-! ## What is checked of the rules -/

/-- The rules of a merged target. -/
def MergedTarget.checkRules (t : MergedTarget) : Fallible Unit := do
  t.checkRouting
  bailIf (t.deliveryMode
      ≠ DeliveryMode.derive t.consensusBreaking t.pocImplementable)
    (s!"target `{t.id}`: delivery_mode={t.deliveryMode.debug} inconsistent "
      ++ s!"with consensus_breaking={t.consensusBreaking} + poc_implementable="
      ++ Text.debugOptionBool t.pocImplementable ++ " (expected "
      ++ (DeliveryMode.derive t.consensusBreaking t.pocImplementable).debug
      ++ ")")
  bailIf (t.benchEligible ≠ t.deliveryMode.benchEligible)
    (s!"target `{t.id}`: bench_eligible={t.benchEligible} inconsistent with "
      ++ s!"delivery_mode={t.deliveryMode.debug}")
  bailIf (t.benchEligible = true ∧ t.verificationReplay = none)
    (s!"target `{t.id}`: bench_eligible target must carry verification_replay "
      ++ "(Pass 1c invariant — Phase 1.8/3/3.5 require analyzer-emitted "
      ++ "invocations)")
  (bailIf (t.benchEligible = true ∧ t.evidenceQueries = [])
    "bench-eligible target must carry at least one evidence_query").context s!"target `{t.id}`"

/-- The rules of an analyzer's target. -/
def AnalyzerTarget.checkRules (t : AnalyzerTarget) : Fallible Unit := do
  t.checkRouting
  bailIf ((!t.consensusBreaking) = true ∧ t.evidenceQueries = [])
    "bench-eligible target must carry at least one evidence_query"

/-- The rules of an accepted analysis. -/
def AcceptedAnalysis.checkRules (a : AcceptedAnalysis) : Fallible Unit := do
  bailIf (a.lensDisposition.lens ≠ a.selectionLens)
    (s!"analysis `{a.familyId}`: lens_disposition.lens ("
      ++ a.lensDisposition.lens.debug ++ ") must equal selection_lens ("
      ++ a.selectionLens.debug ++ ")")
  bailIf (a.lensDisposition.status = LensDispositionStatus.notActionable
      ∧ a.lensDisposition.reason = none)
    (s!"analysis `{a.familyId}`: lens_disposition.status=not_actionable "
      ++ "requires `reason`")
  bailIf (a.lensDisposition.status = LensDispositionStatus.addressed
      ∧ a.targets = [])
    (s!"analysis `{a.familyId}`: lens_disposition.status=addressed requires "
      ++ "at least one target")

/-- The rule of a disposition, at its place in the document. -/
def LensDispositionEntry.checkRules (i : ℕ) (d : LensDispositionEntry) : Fallible Unit :=
  bailIf (d.status = LensDispositionStatus.notActionable ∧ d.reason = none)
    (s!"lens_dispositions[{i}] (family `{d.familyId}`): not_actionable "
      ++ "requires reason")

/-- A merged target is in order, but for the rules. -/
structure MergedTarget.KeepsOthers (t : MergedTarget) : Prop where
  replay : ∀ vr ∈ t.verificationReplay, vr.Valid
  contributors : t.mergedFrom ≠ []
  count : t.mergedFrom.length = t.convergenceCount
  evidence : validateEvidenceQueriesForReplay t.evidenceQueries t.verificationReplay false
    = Except.ok ()

/-- An analyzer's target is in order, but for the rules. -/
structure AnalyzerTarget.KeepsOthers (t : AnalyzerTarget) : Prop where
  replay : ∀ vr ∈ t.verificationReplay, vr.Valid
  evidence : validateEvidenceQueriesForReplay t.evidenceQueries t.verificationReplay false
    = Except.ok ()

section CheckRules

theorem ok_seq {r : Fallible Unit} : (Except.ok () >>= fun _ => r) = r := rfl

theorem bailIf_of_not {p : Prop} [Decidable p] {msg : String} (h : ¬ p) :
    bailIf p msg = Except.ok () := if_neg h

/-- If the evidence is in order, then it matters only that there is some. -/
theorem validateEvidenceQueriesForReplay_of_ok {qs : List EvidenceQuery}
    {vr : Option VerificationReplay} {required : Bool}
    (h : validateEvidenceQueriesForReplay qs vr false = Except.ok ()) :
    validateEvidenceQueriesForReplay qs vr required = bailIf (required = true ∧ qs = [])
      "bench-eligible target must carry at least one evidence_query" := by
  unfold validateEvidenceQueriesForReplay at h ⊢
  rw [bailIf_of_not (fun hf => Bool.false_ne_true hf.left), ok_seq] at h
  rw [h]
  exact bind_pure _

/-- **If nothing else is wrong with a merged target**, the rules are checked. -/
theorem MergedTarget.validateModel_eq_checkRules {t : MergedTarget} (h : t.KeepsOthers) :
    t.validateModel = t.checkRules := by
  have hreplay : (onSome t.verificationReplay fun vr =>
      vr.validateModel.context s!"target `{t.id}`: verification_replay") = Except.ok () := by
    rw [onSome_ok_iff]
    intro vr hvr
    rw [context_ok_iff, VerificationReplay.validateModel_ok_iff]
    exact h.replay vr hvr
  unfold MergedTarget.validateModel MergedTarget.checkRules
  rw [hreplay, ok_seq, bailIf_of_not h.contributors, ok_seq,
    bailIf_of_not (not_not.mpr h.count), ok_seq,
    validateEvidenceQueriesForReplay_of_ok h.evidence]

theorem AnalyzerTarget.validateModel_eq_checkRules {t : AnalyzerTarget} (h : t.KeepsOthers) :
    t.validateModel = t.checkRules := by
  have hreplay : (onSome t.verificationReplay fun vr =>
      vr.validateModel.context "verification_replay") = Except.ok () := by
    rw [onSome_ok_iff]
    intro vr hvr
    rw [context_ok_iff, VerificationReplay.validateModel_ok_iff]
    exact h.replay vr hvr
  unfold AnalyzerTarget.validateModel AnalyzerTarget.checkRules
  rw [hreplay, ok_seq, validateEvidenceQueriesForReplay_of_ok h.evidence]

theorem AcceptedAnalysis.validateModel_eq_checkRules {a : AcceptedAnalysis}
    (h : ∀ t ∈ a.targets, t.validateModel = Except.ok ()) : a.validateModel = a.checkRules := by
  have htargets : (forEach (fun i t =>
      t.validateModel.context s!"analysis `{a.familyId}` target[{i}]") a.targets)
      = Except.ok () := by
    refine (forEach_ok_iff_forall fun i t => ?_).mpr h
    exact context_ok_iff
  unfold AcceptedAnalysis.validateModel AcceptedAnalysis.checkRules
  rw [htargets]
  congr 1; funext u
  congr 1; funext u
  exact bind_pure _

end CheckRules

/-! ## The rules -/

/-- A merged target keeps the rules. -/
structure MergedTarget.KeepsRules (t : MergedTarget) : Prop where
  routing : RoutingValid t.consensusBreaking t.breakageClass t.pocImplementable t.pocTestScope
    t.consensusWriteup
  deliveryMode : t.deliveryMode = DeliveryMode.derive t.consensusBreaking t.pocImplementable
  benchEligible : t.benchEligible = t.deliveryMode.benchEligible
  measured : t.benchEligible = true → t.verificationReplay ≠ none ∧ t.evidenceQueries ≠ []

/-- An analyzer's target keeps the rules. -/
structure AnalyzerTarget.KeepsRules (t : AnalyzerTarget) : Prop where
  routing : RoutingValid t.consensusBreaking t.breakageClass t.pocImplementable t.pocTestScope
    t.consensusWriteup
  measured : t.consensusBreaking = false → t.verificationReplay ≠ none ∧ t.evidenceQueries ≠ []

/-- A report on an implementation keeps the rules. -/
structure ImplementedReport.KeepsRules (r : ImplementedReport) : Prop where
  /-- Parity is shown, in one item at least. -/
  parity : r.parity.consensusSensitive = true →
    hasNonBlank r.parity.evidence = true ∧ hasNonBlank r.parity.tests = true
  risk : r.parity.unprovenRisk = none
  failed : r.testSummary.failed = 0
  texts : Text.isBlank r.implementationSummary = false ∧ Text.isBlank r.prTitle = false
    ∧ Text.isBlank r.testSummary.logPath = false
  duration : r.testSummary.durationSecs.isFinite = true
    ∧ r.testSummary.durationSecs.lt F64.zero = false
  clippy : r.deliveryMode = DeliveryMode.normalPr → r.clippyClean = some true
  implemented : r.deliveryMode ≠ DeliveryMode.consensusIssue

/-- A report on an attempt that led to nothing keeps the rules. -/
structure AbortedReport.KeepsRules (r : AbortedReport) : Prop where
  reason : Text.isBlank r.reason = false
  /-- The tests that failed are named, one of them at least. -/
  tests : r.failedGate = some FailedGate.nextest →
    ∃ ss, r.failingTests = some ss ∧ hasNonBlank ss = true

section Check

theorem MergedTarget.checkRules_ok_iff {t : MergedTarget} :
    t.checkRules = Except.ok () ↔ t.KeepsRules := by
  unfold MergedTarget.checkRules
  simp only [seq_ok_iff, bailIf_ok_iff, context_ok_iff, MergedTarget.checkRouting_ok_iff,
    not_not, not_and]
  constructor
  · rintro ⟨hrouting, hmode, hbench, hreplay, hevidence⟩
    exact ⟨hrouting, hmode, hbench, fun h => ⟨hreplay h, hevidence h⟩⟩
  · rintro ⟨hrouting, hmode, hbench, hmeasured⟩
    exact ⟨hrouting, hmode, hbench, fun h => (hmeasured h).left, fun h => (hmeasured h).right⟩

theorem AnalyzerTarget.checkRules_ok_iff {t : AnalyzerTarget} :
    t.checkRules = Except.ok () ↔ t.KeepsRules := by
  unfold AnalyzerTarget.checkRules
  simp only [seq_ok_iff, bailIf_ok_iff, AnalyzerTarget.checkRouting_ok_iff, not_and,
    Bool.not_eq_true']
  constructor
  · rintro ⟨⟨hrouting, hreplay⟩, hevidence⟩
    exact ⟨hrouting, fun h => ⟨hreplay h, hevidence h⟩⟩
  · rintro ⟨hrouting, hmeasured⟩
    exact ⟨⟨hrouting, fun h => (hmeasured h).left⟩, fun h => (hmeasured h).right⟩

theorem ImplementedReport.checkClippy_ok_iff {r : ImplementedReport} :
    r.checkClippy = Except.ok () ↔ (r.deliveryMode = DeliveryMode.normalPr →
      r.clippyClean = some true) ∧ r.deliveryMode ≠ DeliveryMode.consensusIssue := by
  unfold ImplementedReport.checkClippy
  rcases r.deliveryMode with _ | _ | _
  · rcases r.clippyClean with _ | _ | _ <;> simp
  · simp
  · simp

theorem ImplementedReport.validateModel_ok_iff {r : ImplementedReport} :
    r.validateModel = Except.ok () ↔ r.KeepsRules := by
  unfold ImplementedReport.validateModel
  simp only [seq_ok_iff, bailIf_ok_iff, ImplementedReport.checkClippy_ok_iff, not_and, not_or,
    Bool.not_eq_true, Bool.not_eq_false, Option.isSome_eq_false_iff, Option.isNone_iff_eq_none,
    not_not]
  constructor
  · rintro ⟨hevidence, htests, hrisk, hfailed, hsummary, htitle, hlog, hduration, hclippy, hmode⟩
    exact ⟨fun h => ⟨hevidence h, htests h⟩, hrisk, hfailed, ⟨hsummary, htitle, hlog⟩, hduration,
      hclippy, hmode⟩
  · rintro ⟨hparity, hrisk, hfailed, ⟨hsummary, htitle, hlog⟩, hduration, hclippy, hmode⟩
    exact ⟨fun h => (hparity h).left, fun h => (hparity h).right, hrisk, hfailed, hsummary, htitle,
      hlog, hduration, hclippy, hmode⟩

theorem AbortedReport.validateModel_ok_iff {r : AbortedReport} :
    r.validateModel = Except.ok () ↔ r.KeepsRules := by
  have htests : (r.failingTests.map hasNonBlank).getD false = true
      ↔ ∃ ss, r.failingTests = some ss ∧ hasNonBlank ss = true := by
    cases r.failingTests <;> simp
  unfold AbortedReport.validateModel
  simp only [seq_ok_iff, bailIf_ok_iff, not_and, Bool.not_eq_true, Bool.not_eq_false, htests]
  exact ⟨fun h => ⟨h.left, h.right⟩, fun h => ⟨h.reason, h.tests⟩⟩

end Check

/-! ## Targets -/

section Targets

variable (readReplay : Json → Fallible VerificationReplay)
  (readQuery : Json → Fallible EvidenceQuery)

/-- How a target is measured, as it is read from a document. -/
structure ReadsMeasured (doc : Json) (replay : Option VerificationReplay)
    (queries : List EvidenceQuery) : Prop where
  replay : optional readReplay "verification_replay" doc.get = Except.ok replay
  queries : defaulted readQuery "evidence_queries" doc.get = Except.ok queries

/-- An analyzer's target, as it is read from a document. -/
structure ReadsAnalyzerTarget (doc : Json) (t : AnalyzerTarget) : Prop where
  routing : ReadsRouting doc t.consensusBreaking t.breakageClass t.pocImplementable
    t.pocTestScope t.consensusWriteup
  measured : ReadsMeasured readReplay readQuery doc t.verificationReplay t.evidenceQueries

/-- A merged target, as it is read from a document. -/
structure ReadsMergedTarget (doc : Json) (t : MergedTarget) : Prop where
  routing : ReadsRouting doc t.consensusBreaking t.breakageClass t.pocImplementable
    t.pocTestScope t.consensusWriteup
  measured : ReadsMeasured readReplay readQuery doc t.verificationReplay t.evidenceQueries
  deliveryMode : required (readName DeliveryMode.variants) "delivery_mode" doc.get
    = Except.ok t.deliveryMode
  benchEligible : required readBool "bench_eligible" doc.get = Except.ok t.benchEligible

end Targets

section AcceptsTargets

variable {space : Char → Bool} {doc : Json} {readReplay : Json → Fallible VerificationReplay}
  {readQuery : Json → Fallible EvidenceQuery}

/-- What is benchmarked says how. -/
theorem accepts_measured_iff {replay : Option VerificationReplay} {queries : List EvidenceQuery}
    (hobject : doc.isObject = true) (h : ReadsMeasured readReplay readQuery doc replay queries) :
    accepts space measured doc = true ↔ replay ≠ none ∧ queries ≠ [] := by
  have hqueries : (accepts space (Schema.required "evidence_queries") doc = true
      ∧ accepts space (Schema.property "evidence_queries" (Schema.minItems 1)) doc = true)
      ↔ queries ≠ [] := by
    rw [accepts_required_iff hobject, accepts_property_iff]
    have hread := h.queries
    unfold defaulted at hread
    cases hget : doc.get "evidence_queries" with
    | none =>
      rw [hget] at hread
      obtain rfl := Except.ok.inj hread
      simp
    | some v =>
      rw [hget] at hread
      obtain ⟨vs, rfl, hvs⟩ := readArray_ok_iff.mp hread
      have hnil : vs = [] ↔ queries = [] := by
        rw [← List.length_eq_zero_iff, (mapM_ok_iff.mp hvs).length_eq, List.length_eq_zero_iff]
      simp [accepts, elements, Nat.one_le_iff_ne_zero, hnil]
  rw [← present_iff space hobject h.replay, ← hqueries]
  unfold measured
  simp only [accepts_all_iff, accepts_requireds_iff, accepts_properties_iff,
    List.forall_mem_cons, List.not_mem_nil, false_imp_iff, forall_const, and_true]
  tauto

/-- **An analyzer's target**: the schema accepts what keeps the rules and leaves no null. -/
theorem accepts_analyzerTarget_iff {t : AnalyzerTarget}
    (h : ReadsAnalyzerTarget readReplay readQuery doc t) :
    accepts space (Schema.all injectAnalyzerTarget) doc = true
      ↔ t.KeepsRules ∧ ¬ LeftNull doc t.consensusBreaking t.pocImplementable := by
  unfold injectAnalyzerTarget
  rw [accepts_all_append, accepts_routing_iff h.routing, accepts_all_iff,
    List.forall_mem_singleton, accepts_ifThen_iff, h.routing.breaking_iff,
    accepts_measured_iff h.routing.isObject h.measured, and_right_comm]
  exact and_congr_left fun _ => ⟨fun hrules => ⟨hrules.left, hrules.right⟩,
    fun hrules => ⟨hrules.routing, hrules.measured⟩⟩

/-- **A merged target**: the schema accepts what keeps the rules and leaves no null. -/
theorem accepts_mergedTarget_iff {t : MergedTarget}
    (h : ReadsMergedTarget readReplay readQuery doc t) :
    accepts space (Schema.all injectMergedTarget) doc = true
      ↔ t.KeepsRules ∧ ¬ LeftNull doc t.consensusBreaking t.pocImplementable := by
  have hobject := h.routing.isObject
  have hmode : ∀ {s : String} {m : DeliveryMode}, DeliveryMode.variants.lookup s = some m →
      (accepts space (Schema.property "delivery_mode" (Schema.const (Scalar.string s))) doc = true
        ↔ t.deliveryMode = m) := fun hs =>
    const_required_iff h.deliveryMode fun _ => readName_is (by decide) hs
  have hbench : ∀ b : Bool,
      accepts space (Schema.property "bench_eligible" (Schema.const (Scalar.bool b))) doc = true
        ↔ t.benchEligible = b := fun b =>
    const_required_iff h.benchEligible fun _ => readBool_is
  have hnormal : accepts space (whenConst "delivery_mode" (Scalar.string "normal_pr")) doc = true
      ↔ t.deliveryMode = DeliveryMode.normalPr :=
    whenConst_required_iff hobject h.deliveryMode fun _ => readName_is (by decide) rfl
  have heligible : accepts space (whenConst "bench_eligible" (Scalar.bool true)) doc = true
      ↔ t.benchEligible = true :=
    whenConst_required_iff hobject h.benchEligible fun _ => readBool_is
  have hboth : ∀ b : Bool, accepts space (Schema.all
      [Schema.properties [("consensus_breaking", Schema.const (Scalar.bool true)),
          ("poc_implementable", Schema.const (Scalar.bool b))],
        Schema.requireds ["consensus_breaking", "poc_implementable"]]) doc = true
      ↔ t.consensusBreaking = true ∧ t.pocImplementable = some b := by
    intro b
    rw [← h.routing.breaking_iff (b := true), ← h.routing.poc_iff (b := b)]
    unfold whenConst
    simp only [accepts_all_iff, accepts_requireds_iff, accepts_properties_iff,
      List.forall_mem_cons, List.not_mem_nil, false_imp_iff, forall_const, and_true]
    tauto
  have helse : accepts space (Schema.ifThenElse
      (whenConst "delivery_mode" (Scalar.string "normal_pr"))
      (Schema.properties [("bench_eligible", Schema.const (Scalar.bool true))])
      (Schema.properties [("bench_eligible", Schema.const (Scalar.bool false))])) doc = true
      ↔ t.benchEligible = t.deliveryMode.benchEligible := by
    rw [accepts]
    split_ifs with hm
    · rw [accepts_properties_iff, List.forall_mem_singleton, hbench, hnormal.mp hm]
      rfl
    · rw [accepts_properties_iff, List.forall_mem_singleton, hbench, eq_comm (b := false),
        eq_comm (a := t.benchEligible), Bool.eq_false_iff.mpr fun he =>
          hm (hnormal.mpr (DeliveryMode.benchEligible_iff.mp he))]
  unfold injectMergedTarget
  rw [accepts_all_append, accepts_routing_iff h.routing, accepts_all_iff]
  simp only [List.forall_mem_cons, List.not_mem_nil, false_imp_iff, implies_true, and_true,
    accepts_ifThen_iff, helse, heligible, h.routing.breaking_iff, hboth, accepts_properties_iff,
    hmode (s := "normal_pr") rfl, hmode (s := "consensus_poc_pr") rfl,
    hmode (s := "consensus_issue") rfl, accepts_measured_iff hobject h.measured]
  constructor
  · rintro ⟨⟨hrouting, hnull⟩, hfalse, hpoc, hissue, hb, hm⟩
    refine ⟨⟨hrouting, ?_, hb, hm⟩, hnull⟩
    cases hcb : t.consensusBreaking with
    | false => exact hfalse hcb
    | true =>
      -- a breaking change says whether a proof of concept can be made
      obtain ⟨b, hb⟩ := Option.ne_none_iff_exists'.mp (hrouting.breaking hcb).right.left
      rw [hb]
      cases b with
      | true => exact hpoc ⟨hcb, hb⟩
      | false => exact hissue ⟨hcb, hb⟩
  · rintro ⟨hrules, hnull⟩
    refine ⟨⟨hrules.routing, hnull⟩, fun hcb => ?_, fun hpoc => ?_, fun hissue => ?_,
      hrules.benchEligible, hrules.measured⟩
    · rw [hrules.deliveryMode, hcb]
      rfl
    · rw [hrules.deliveryMode, hpoc.left, hpoc.right]
      rfl
    · rw [hrules.deliveryMode, hissue.left, hissue.right]
      rfl

end AcceptsTargets

/-! ## Dispositions and analyses -/

/-- A disposition, as it is read from a document. -/
structure ReadsDisposition (doc : Json) (lens : SelectionLens) (status : LensDispositionStatus)
    (reason : Option String) : Prop where
  isObject : doc.isObject = true
  lens : required (readName SelectionLens.variants) "lens" doc.get = Except.ok lens
  status : required (readName LensDispositionStatus.variants) "status" doc.get = Except.ok status
  reason : optional readString "reason" doc.get = Except.ok reason

/-- An accepted analysis, as it is read from a document. -/
structure ReadsAcceptedAnalysis (readReplay : Json → Fallible VerificationReplay)
    (readQuery : Json → Fallible EvidenceQuery) (doc : Json) (a : AcceptedAnalysis) : Prop where
  isObject : doc.isObject = true
  selectionLens : required (readName SelectionLens.variants) "selection_lens" doc.get
    = Except.ok a.selectionLens
  lensDisposition : ∃ v, doc.get "lens_disposition" = some v
    ∧ ReadsDisposition v a.lensDisposition.lens a.lensDisposition.status a.lensDisposition.reason
  targets : ∃ vs, doc.get "targets" = some (array vs)
    ∧ List.Forall₂ (ReadsAnalyzerTarget readReplay readQuery) vs a.targets

/-- An accepted analysis keeps the rules. -/
structure AcceptedAnalysis.KeepsRules (a : AcceptedAnalysis) : Prop where
  lens : a.lensDisposition.lens = a.selectionLens
  reason : a.lensDisposition.status = LensDispositionStatus.notActionable →
    a.lensDisposition.reason ≠ none
  targets : a.lensDisposition.status = LensDispositionStatus.addressed → a.targets ≠ []

section AcceptsDispositions

variable {space : Char → Bool} {doc : Json} {readReplay : Json → Fallible VerificationReplay}
  {readQuery : Json → Fallible EvidenceQuery} {lens : SelectionLens}
  {status : LensDispositionStatus} {reason : Option String}

/-- **A disposition**: the schema accepts what keeps the rule. -/
theorem accepts_lensDisposition_iff (h : ReadsDisposition doc lens status reason) :
    accepts space (Schema.all injectLensDisposition) doc = true
      ↔ (status = LensDispositionStatus.notActionable → reason ≠ none) := by
  have hstatus : accepts space (whenConst "status" (Scalar.string "not_actionable")) doc = true
      ↔ status = LensDispositionStatus.notActionable :=
    whenConst_required_iff h.isObject h.status fun _ => readName_is (by decide) rfl
  unfold injectLensDisposition
  rw [accepts_all_iff, List.forall_mem_singleton, accepts_ifThen_iff, hstatus,
    ← present_iff space h.isObject h.reason]
  simp only [accepts_all_iff, accepts_requireds_iff, accepts_properties_iff,
    List.forall_mem_cons, List.not_mem_nil, false_imp_iff, implies_true, and_true]

theorem AcceptedAnalysis.checkRules_ok_iff {a : AcceptedAnalysis} :
    a.checkRules = Except.ok () ↔ a.KeepsRules := by
  unfold AcceptedAnalysis.checkRules
  simp only [seq_ok_iff, bailIf_ok_iff, not_not, not_and]
  exact ⟨fun h => ⟨h.left, h.right.left, h.right.right⟩,
    fun h => ⟨h.lens, h.reason, h.targets⟩⟩

/-- **An accepted analysis**: the schema, with the one of the disposition, accepts what keeps
the rules. -/
theorem accepts_acceptedAnalysis_iff {a : AcceptedAnalysis}
    (h : ReadsAcceptedAnalysis readReplay readQuery doc a) :
    accepts space (Schema.all (injectAcceptedAnalysis
        ++ [Schema.property "lens_disposition" (Schema.all injectLensDisposition)])) doc = true
      ↔ a.KeepsRules := by
  obtain ⟨v, hv, hdisposition⟩ := h.lensDisposition
  obtain ⟨vs, hvs, htargets⟩ := h.targets
  have hproperty : ∀ s : Schema,
      accepts space (Schema.property "lens_disposition" s) doc = true
        ↔ accepts space s v = true := fun _ => accepts_property_of_some hv
  have hselection : ∀ {s : String} {l : SelectionLens}, SelectionLens.variants.lookup s = some l →
      (accepts space (whenConst "selection_lens" (Scalar.string s)) doc = true
        ↔ a.selectionLens = l) := fun hs =>
    whenConst_required_iff h.isObject h.selectionLens fun _ => readName_is (by decide) hs
  have hlens : ∀ {s : String} {l : SelectionLens}, SelectionLens.variants.lookup s = some l →
      (accepts space (whenConst "lens" (Scalar.string s)) v = true
        ↔ a.lensDisposition.lens = l) := fun hs =>
    whenConst_required_iff hdisposition.isObject hdisposition.lens fun _ =>
      readName_is (by decide) hs
  have hstatus : accepts space (whenConst "status" (Scalar.string "addressed")) v = true
      ↔ a.lensDisposition.status = LensDispositionStatus.addressed :=
    whenConst_required_iff hdisposition.isObject hdisposition.status fun _ =>
      readName_is (by decide) rfl
  have haddressed : accepts space (Schema.all
      [Schema.properties [("lens_disposition", whenConst "status" (Scalar.string "addressed"))],
        Schema.requireds ["lens_disposition"]]) doc = true
      ↔ a.lensDisposition.status = LensDispositionStatus.addressed := by
    rw [← hstatus, ← hproperty]
    simp only [accepts_all_iff, List.forall_mem_cons, List.not_mem_nil, false_imp_iff,
      implies_true, and_true, accepts_properties_iff, accepts_requireds_iff,
      accepts_required_iff h.isObject, hv, Option.isSome_some]
  have hcount : accepts space (Schema.properties [("targets", Schema.minItems 1)]) doc = true
      ↔ a.targets ≠ [] := by
    rw [accepts_properties_iff, List.forall_mem_singleton, accepts_property_iff, hvs, Ne,
      ← List.length_eq_zero_iff, ← htargets.length_eq, List.length_eq_zero_iff]
    simp [accepts, elements, Nat.one_le_iff_ne_zero]
  unfold injectAcceptedAnalysis
  rw [accepts_all_append, accepts_all_append, accepts_all_iff, accepts_all_iff, accepts_all_iff]
  simp only [List.map_cons, List.map_nil, List.forall_mem_cons, List.not_mem_nil, false_imp_iff,
    implies_true, and_true, accepts_ifThen_iff, accepts_properties_iff, hproperty, hcount,
    haddressed, accepts_lensDisposition_iff hdisposition, hselection (s := "tx_latency") rfl,
    hselection (s := "tenure_throughput") rfl, hselection (s := "commit_time") rfl,
    hlens (s := "tx_latency") rfl, hlens (s := "tenure_throughput") rfl,
    hlens (s := "commit_time") rfl]
  constructor
  · rintro ⟨⟨⟨hlatency, hthroughput, hcommit⟩, htargets⟩, hreason⟩
    refine ⟨?_, hreason, htargets⟩
    -- the schema has one rule for each lens
    cases hl : a.selectionLens with
    | txLatency => exact hlatency hl
    | tenureThroughput => exact hthroughput hl
    | commitTime => exact hcommit hl
  · rintro ⟨hlens, hreason, htargets⟩
    rw [hlens]
    exact ⟨⟨⟨id, id, id⟩, htargets⟩, hreason⟩

end AcceptsDispositions

/-! ## Experiments and reports -/

/-- An experiment, as it is read from a document. -/
structure ReadsExperiment (doc : Json) (e : Experiment) : Prop where
  isObject : doc.isObject = true
  deliveryMode : required (readName DeliveryMode.variants) "delivery_mode" doc.get
    = Except.ok e.deliveryMode
  status : required (readName ExperimentStatus.variants) "status" doc.get = Except.ok e.status

/-- What was said about parity, as it is read from a document. -/
structure ReadsParity (doc : Json) (p : ParityReport) : Prop where
  isObject : doc.isObject = true
  consensusSensitive : required readBool "consensus_sensitive" doc.get
    = Except.ok p.consensusSensitive
  evidence : required (readArray readString) "evidence" doc.get = Except.ok p.evidence
  tests : required (readArray readString) "tests" doc.get = Except.ok p.tests
  unprovenRisk : optional readString "unproven_risk" doc.get = Except.ok p.unprovenRisk

/-- What was said about the tests, as it is read from a document. -/
structure ReadsTestSummary (doc : Json) (t : TestSummary) : Prop where
  isObject : doc.isObject = true
  failed : required readU64 "failed" doc.get = Except.ok t.failed
  durationSecs : required readF64 "duration_secs" doc.get = Except.ok t.durationSecs
  logPath : required readString "log_path" doc.get = Except.ok t.logPath
  /-- The duration is a number that a text can hold. -/
  fits : ∀ v, doc.get "duration_secs" = some v → v.Fits

/-- A report on an implementation, as it is read from a document. -/
structure ReadsImplementedReport (doc : Json) (r : ImplementedReport) : Prop where
  isObject : doc.isObject = true
  deliveryMode : required (readName DeliveryMode.variants) "delivery_mode" doc.get
    = Except.ok r.deliveryMode
  implementationSummary : required readString "implementation_summary" doc.get
    = Except.ok r.implementationSummary
  testSummary : ∃ v, doc.get "test_summary" = some v ∧ ReadsTestSummary v r.testSummary
  clippyClean : optional readBool "clippy_clean" doc.get = Except.ok r.clippyClean
  prTitle : required readString "pr_title" doc.get = Except.ok r.prTitle
  parity : ∃ v, doc.get "parity" = some v ∧ ReadsParity v r.parity

/-- A report on an attempt that led to nothing, as it is read from a document. -/
structure ReadsAbortedReport (doc : Json) (r : AbortedReport) : Prop where
  isObject : doc.isObject = true
  reason : required readString "reason" doc.get = Except.ok r.reason
  failedGate : optional (readName FailedGate.variants) "failed_gate" doc.get
    = Except.ok r.failedGate
  failingTests : optional (readArray readString) "failing_tests" doc.get
    = Except.ok r.failingTests

/-- The texts of a report on an implementation that have to say something. -/
def ImplementedReport.texts (r : ImplementedReport) : List String :=
  [r.implementationSummary, r.prTitle, r.testSummary.logPath] ++ r.parity.evidence
    ++ r.parity.tests

/-- The texts of a report on an attempt that led to nothing, of which some have to say
something. -/
def AbortedReport.texts (r : AbortedReport) : List String :=
  r.reason :: r.failingTests.getD []

section AcceptsReports

variable {space : Char → Bool} {doc : Json}

/-- **An experiment**: the schema accepts what the validator accepts. -/
theorem accepts_experiment_iff {e : Experiment} (h : ReadsExperiment doc e) :
    accepts space (Schema.all injectExperiment) doc = true
      ↔ e.deliveryMode.allows e.status = true := by
  have hmode : ∀ {s : String} {m : DeliveryMode}, DeliveryMode.variants.lookup s = some m →
      (accepts space (whenConst "delivery_mode" (Scalar.string s)) doc = true
        ↔ e.deliveryMode = m) := fun hs =>
    whenConst_required_iff h.isObject h.deliveryMode fun _ => readName_is (by decide) hs
  obtain ⟨v, hv, hread⟩ := required_ok_iff.mp h.status
  have his : ∀ {s : String} {st : ExperimentStatus}, ExperimentStatus.variants.lookup s = some st →
      ((Scalar.string s).is v = true ↔ e.status = st) := fun hs =>
    readName_is (by decide) hs hread
  have hstatus : ∀ ws : List Scalar,
      accepts space (Schema.property "status" (Schema.enum ws)) doc = true
        ↔ ∃ w ∈ ws, w.is v = true := by
    intro ws
    rw [accepts_property_iff, hv]
    simp [accepts]
  unfold injectExperiment
  rw [accepts_all_iff]
  simp only [List.map_cons, List.map_nil, List.forall_mem_cons, List.not_mem_nil, false_imp_iff,
    implies_true, and_true, accepts_ifThen_iff, accepts_properties_iff,
    hmode (s := "normal_pr") rfl, hmode (s := "consensus_poc_pr") rfl,
    hmode (s := "consensus_issue") rfl, hstatus, List.exists_mem_cons_iff, false_and,
    his (s := "accepted") rfl, his (s := "rejected") rfl,
    his (s := "aborted") rfl, his (s := "poc_landed") rfl, his (s := "routed_to_issue") rfl]
  cases e.deliveryMode <;> cases e.status <;> simp [DeliveryMode.allows]

/-- **A report on an implementation**: the schema accepts what keeps the rules and leaves no
blank item where parity has to be shown. -/
theorem accepts_implementedReport_iff {r : ImplementedReport} (h : ReadsImplementedReport doc r)
    (halike : ∀ s ∈ r.texts, Alike space s) :
    accepts space (Schema.all injectImplementedReport) doc = true
      ↔ r.KeepsRules ∧ (r.parity.consensusSensitive = true →
        ∀ s ∈ r.parity.evidence ++ r.parity.tests, Text.isBlank s = false) := by
  -- each rule of the schema is read back first, and then they are put together
  obtain ⟨p, hp, hparity⟩ := h.parity
  obtain ⟨t, ht, htest⟩ := h.testSummary
  have hflag : accepts space (whenConst "consensus_sensitive" (Scalar.bool true)) p = true
      ↔ r.parity.consensusSensitive = true :=
    whenConst_required_iff hparity.isObject hparity.consensusSensitive fun _ => readBool_is
  have hsensitive : accepts space (Schema.all
      [Schema.properties [("parity", whenConst "consensus_sensitive" (Scalar.bool true))],
        Schema.requireds ["parity"]]) doc = true ↔ r.parity.consensusSensitive = true := by
    rw [← hflag, ← accepts_property_of_some hp]
    simp only [accepts_all_iff, List.forall_mem_cons, List.not_mem_nil, false_imp_iff,
      implies_true, and_true, accepts_properties_iff, accepts_requireds_iff,
      accepts_required_iff h.isObject, hp, Option.isSome_some]
  have hevidence := accepts_items_iff hparity.evidence fun s hs =>
    halike s (List.mem_append_left _ (List.mem_append_right _ hs))
  have htests := accepts_items_iff hparity.tests fun s hs =>
    halike s (List.mem_append_right _ hs)
  have hrisk : accepts space (Schema.property "unproven_risk" Schema.null) p = true
      ↔ r.parity.unprovenRisk = none := by
    rw [accepts_property_iff]
    obtain ⟨hnone, hmissing | hmissing⟩ | ⟨v, s, hv, -, hread, hsome⟩ :=
      optional_ok_iff.mp hparity.unprovenRisk
    · simp [hmissing, hnone]
    · simp [hmissing, hnone, accepts, isNull]
    · rw [readString_ok_iff.mp hread] at hv
      simp [hv, hsome, accepts, isNull]
  have hfailed : accepts space (Schema.property "failed" (Schema.const (Scalar.nat 0))) t = true
      ↔ r.testSummary.failed = 0 :=
    const_required_iff htest.failed fun _ => readU64_is
  have hlog := accepts_text_iff htest.logPath (halike _ (by simp [ImplementedReport.texts]))
  have hsummary := accepts_text_iff h.implementationSummary
    (halike _ (by simp [ImplementedReport.texts]))
  have htitle := accepts_text_iff h.prTitle (halike _ (by simp [ImplementedReport.texts]))
  have hduration : accepts space (Schema.property "duration_secs" (Schema.minimum 0)) t = true
      ↔ r.testSummary.durationSecs.isFinite = true
        ∧ r.testSummary.durationSecs.lt F64.zero = false := by
    obtain ⟨v, hv, hread⟩ := required_ok_iff.mp htest.durationSecs
    rw [accepts_property_of_some hv, ← atLeast_zero_iff (htest.fits v hv) hread, accepts]
  have hmode : ∀ {s : String} {m : DeliveryMode}, DeliveryMode.variants.lookup s = some m →
      (accepts space (whenConst "delivery_mode" (Scalar.string s)) doc = true
        ↔ r.deliveryMode = m) := fun hs =>
    whenConst_required_iff h.isObject h.deliveryMode fun _ => readName_is (by decide) hs
  have hclean : accepts space (whenConst "clippy_clean" (Scalar.bool true)) doc = true
      ↔ r.clippyClean = some true :=
    whenConst_optional_iff h.isObject h.clippyClean rfl fun _ _ => readBool_is
  have hclippy : accepts space (Schema.all [Schema.requireds ["clippy_clean"],
      Schema.properties [("clippy_clean", Schema.const (Scalar.bool true))]]) doc = true
      ↔ r.clippyClean = some true := by
    rw [← hclean]
    unfold whenConst
    simp only [accepts_all_iff, List.forall_mem_cons, List.not_mem_nil, false_imp_iff,
      implies_true, and_true]
    exact and_comm
  unfold injectImplementedReport
  rw [accepts_all_iff]
  simp only [List.forall_mem_cons, List.not_mem_nil, false_imp_iff, implies_true, and_true,
    accepts_ifThen_iff, hsensitive, hclippy, hmode (s := "normal_pr") rfl,
    hmode (s := "consensus_issue") rfl, accepts_properties_iff, accepts_property_of_some hp,
    accepts_property_of_some ht, hevidence, htests, hrisk, hfailed, hlog, hsummary, htitle,
    hduration]
  constructor
  · rintro ⟨hparity, hrisk, hfailed, htexts, hduration, hclippy, hissue⟩
    refine ⟨⟨fun h => ⟨(hparity h).left.left, (hparity h).right.left⟩, hrisk, hfailed, htexts,
      hduration, hclippy, fun h => absurd (hissue h) Bool.false_ne_true⟩, fun h => ?_⟩
    rw [List.forall_mem_append]
    exact ⟨(hparity h).left.right, (hparity h).right.right⟩
  · -- that no item is blank is what the validator does not ask
    rintro ⟨hrules, hall⟩
    refine ⟨fun h => ?_, hrules.risk, hrules.failed, hrules.texts, hrules.duration, hrules.clippy,
      fun h => absurd h hrules.implemented⟩
    have hitems := List.forall_mem_append.mp (hall h)
    exact ⟨⟨(hrules.parity h).left, hitems.left⟩, (hrules.parity h).right, hitems.right⟩

/-- **A report on an attempt that led to nothing**: the schema accepts what keeps the rules and
names no blank test. -/
theorem accepts_abortedReport_iff {r : AbortedReport} (h : ReadsAbortedReport doc r)
    (halike : ∀ s ∈ r.texts, Alike space s) :
    accepts space (Schema.all injectAbortedReport) doc = true
      ↔ r.KeepsRules ∧ (r.failedGate = some FailedGate.nextest →
        ∀ s ∈ r.failingTests.getD [], Text.isBlank s = false) := by
  have hgate : accepts space (whenConst "failed_gate" (Scalar.string "nextest")) doc = true
      ↔ r.failedGate = some FailedGate.nextest :=
    whenConst_optional_iff h.isObject h.failedGate rfl fun _ _ => readName_is (by decide) rfl
  have htests : accepts space (Schema.all [Schema.requireds ["failing_tests"],
      Schema.properties [("failing_tests", Schema.all [Schema.array, nonBlankItems])]]) doc = true
      ↔ (∃ ss, r.failingTests = some ss ∧ hasNonBlank ss = true)
        ∧ ∀ s ∈ r.failingTests.getD [], Text.isBlank s = false := by
    simp only [accepts_all_iff, List.forall_mem_cons, List.not_mem_nil, false_imp_iff,
      implies_true, and_true, accepts_requireds_iff, accepts_properties_iff,
      accepts_required_iff h.isObject, accepts_property_iff]
    obtain ⟨hnone, hmissing | hmissing⟩ | ⟨v, ss, hv, -, hread, hsome⟩ :=
      optional_ok_iff.mp h.failingTests
    · simp [hmissing, hnone]
    · simp [hmissing, hnone, accepts, elements]
    · obtain ⟨vs, rfl, hvs⟩ := readArray_ok_iff.mp hread
      have hitems : accepts space nonBlankItems (array vs) = true
          ↔ hasNonBlank ss = true ∧ ∀ s ∈ ss, Text.isBlank s = false := by
        rw [mapM_readString_ok_iff.mp hvs]
        exact accepts_nonBlankItems_iff fun s hs =>
          halike s (List.mem_cons_of_mem _ (by rw [hsome]; exact hs))
      simp [hv, hsome, hitems, accepts, elements]
  have hreason := accepts_text_iff h.reason (halike _ List.mem_cons_self)
  unfold injectAbortedReport
  rw [accepts_all_iff]
  simp only [List.forall_mem_cons, List.not_mem_nil, false_imp_iff, implies_true, and_true,
    accepts_ifThen_iff, accepts_properties_iff, hreason, hgate, htests]
  exact ⟨fun hrules => ⟨⟨hrules.left, fun hn => (hrules.right hn).left⟩,
      fun hn => (hrules.right hn).right⟩,
    fun hkept => ⟨hkept.left.reason, fun hn => ⟨hkept.left.tests hn, hkept.right hn⟩⟩⟩

end AcceptsReports

/-! ## All types -/

/-- A value of a type that has rules. A disposition is one in a list. -/
inductive Ruled where
  | mergedTarget (t : MergedTarget)
  | analyzerTarget (t : AnalyzerTarget)
  | acceptedAnalysis (a : AcceptedAnalysis)
  | lensDispositionEntry (i : ℕ) (d : LensDispositionEntry)
  | experiment (e : Experiment)
  | implementedReport (r : ImplementedReport)
  | abortedReport (r : AbortedReport)

namespace Ruled

/-- The rules that are injected. The schema of an analysis refers to the one of its
disposition, which has a rule of its own. -/
def applyInvariants : Ruled → List Schema
  | mergedTarget _ => injectMergedTarget
  | analyzerTarget _ => injectAnalyzerTarget
  | acceptedAnalysis _ => injectAcceptedAnalysis
      ++ [Schema.property "lens_disposition" (Schema.all injectLensDisposition)]
  | lensDispositionEntry _ _ => injectLensDisposition
  | experiment _ => injectExperiment
  | implementedReport _ => injectImplementedReport
  | abortedReport _ => injectAbortedReport

/-- The value, as it is read from a document. Only the fields that the rules are about have to
be read. -/
def ReadFrom (readReplay : Json → Fallible VerificationReplay)
    (readQuery : Json → Fallible EvidenceQuery) (doc : Json) : Ruled → Prop
  | mergedTarget t => ReadsMergedTarget readReplay readQuery doc t
  | analyzerTarget t => ReadsAnalyzerTarget readReplay readQuery doc t
  | acceptedAnalysis a => ReadsAcceptedAnalysis readReplay readQuery doc a
  | lensDispositionEntry _ d => ReadsDisposition doc d.lens d.status d.reason
  | experiment e => ReadsExperiment doc e
  | implementedReport r => ReadsImplementedReport doc r
  | abortedReport r => ReadsAbortedReport doc r

/-- The validator. A disposition is validated by the document that has it in a list. -/
def validateModel : Ruled → Fallible Unit
  | mergedTarget t => t.validateModel
  | analyzerTarget t => t.validateModel
  | acceptedAnalysis a => a.validateModel
  | lensDispositionEntry i d => d.checkRules i
  | experiment e => e.validateModel
  | implementedReport r => r.validateModel
  | abortedReport r => r.validateModel

/-- What the validator checks of the rules. -/
def checkRules : Ruled → Fallible Unit
  | mergedTarget t => t.checkRules
  | analyzerTarget t => t.checkRules
  | acceptedAnalysis a => a.checkRules
  | lensDispositionEntry i d => d.checkRules i
  | experiment e => e.validateModel
  | implementedReport r => r.validateModel
  | abortedReport r => r.validateModel

/-- The value is in order, but for the rules. -/
def KeepsOthers : Ruled → Prop
  | mergedTarget t => t.KeepsOthers
  | analyzerTarget t => t.KeepsOthers
  | acceptedAnalysis a => ∀ t ∈ a.targets, t.validateModel = Except.ok ()
  | _ => True

/-- The value keeps the rules. -/
def KeepsRules : Ruled → Prop
  | mergedTarget t => t.KeepsRules
  | analyzerTarget t => t.KeepsRules
  | acceptedAnalysis a => a.KeepsRules
  | lensDispositionEntry _ d => d.status = LensDispositionStatus.notActionable → d.reason ≠ none
  | experiment e => e.deliveryMode.allows e.status = true
  | implementedReport r => r.KeepsRules
  | abortedReport r => r.KeepsRules

/-- The texts that have to say something. -/
def texts : Ruled → List String
  | implementedReport r => r.texts
  | abortedReport r => r.texts
  | _ => []

/-- What only the schema minds: a null where there must not be anything, and a blank item in a
list that has to say something. -/
def Minds (doc : Json) : Ruled → Prop
  | mergedTarget t => LeftNull doc t.consensusBreaking t.pocImplementable
  | analyzerTarget t => LeftNull doc t.consensusBreaking t.pocImplementable
  | implementedReport r => r.parity.consensusSensitive = true
      ∧ ∃ s ∈ r.parity.evidence ++ r.parity.tests, Text.isBlank s = true
  | abortedReport r => r.failedGate = some FailedGate.nextest
      ∧ ∃ s ∈ r.failingTests.getD [], Text.isBlank s = true
  | _ => False

variable {x : Ruled} {doc : Json} {space : Char → Bool}
  {readReplay : Json → Fallible VerificationReplay} {readQuery : Json → Fallible EvidenceQuery}

/-- **If nothing else is wrong**, the validator checks the rules. -/
theorem validateModel_eq_checkRules (h : x.KeepsOthers) : x.validateModel = x.checkRules := by
  cases x with
  | mergedTarget t => exact MergedTarget.validateModel_eq_checkRules h
  | analyzerTarget t => exact AnalyzerTarget.validateModel_eq_checkRules h
  | acceptedAnalysis a => exact AcceptedAnalysis.validateModel_eq_checkRules h
  | _ => rfl

/-- **The validator** accepts what is in order and passes the check of the rules. -/
theorem validateModel_ok_iff :
    x.validateModel = Except.ok () ↔ x.checkRules = Except.ok () ∧ x.KeepsOthers := by
  suffices h : x.validateModel = Except.ok () → x.KeepsOthers by
    refine ⟨fun hok => ⟨?_, h hok⟩, fun hok => ?_⟩
    · rw [← validateModel_eq_checkRules (h hok)]
      exact hok
    · rw [validateModel_eq_checkRules hok.right]
      exact hok.left
  have hevidence : ∀ {qs : List EvidenceQuery} {vr : Option VerificationReplay} {b : Bool},
      validateEvidenceQueriesForReplay qs vr b = Except.ok () →
        validateEvidenceQueriesForReplay qs vr false = Except.ok () := fun hok =>
    validateEvidenceQueriesForReplay_ok_iff.mpr
      ⟨nofun, (validateEvidenceQueriesForReplay_ok_iff.mp hok).right⟩
  intro h
  cases x with
  | mergedTarget t =>
    have hvalid := MergedTarget.validateModel_ok_iff.mp h
    exact ⟨hvalid.replay, hvalid.contributors, hvalid.count, hevidence hvalid.evidence⟩
  | analyzerTarget t =>
    have hvalid := AnalyzerTarget.validateModel_ok_iff.mp h
    exact ⟨hvalid.replay, hevidence hvalid.evidence⟩
  | acceptedAnalysis a =>
    exact fun t ht => AnalyzerTarget.validateModel_ok_iff.mpr
      ((AcceptedAnalysis.valid_of_validateModel h).left t ht)
  | _ => trivial

theorem checkRules_ok_iff : x.checkRules = Except.ok () ↔ x.KeepsRules := by
  cases x with
  | mergedTarget t => exact MergedTarget.checkRules_ok_iff
  | analyzerTarget t => exact AnalyzerTarget.checkRules_ok_iff
  | acceptedAnalysis a => exact AcceptedAnalysis.checkRules_ok_iff
  | lensDispositionEntry i d =>
    show bailIf _ _ = Except.ok () ↔ (_ → _ ≠ none)
    rw [bailIf_ok_iff, not_and]
  | experiment e =>
    show bailIf _ _ = Except.ok () ↔ e.deliveryMode.allows e.status = true
    rw [bailIf_ok_iff, Bool.not_eq_false]
  | implementedReport r => exact ImplementedReport.validateModel_ok_iff
  | abortedReport r => exact AbortedReport.validateModel_ok_iff

/-- **The schemas** accept what keeps the rules and has nothing that only they mind. -/
theorem accepts_applyInvariants_iff (h : x.ReadFrom readReplay readQuery doc)
    (halike : ∀ s ∈ x.texts, Alike space s) :
    accepts space (Schema.all x.applyInvariants) doc = true ↔ x.KeepsRules ∧ ¬ x.Minds doc := by
  have hblank : ∀ {p : Prop} {ss : List String},
      (p → ∀ s ∈ ss, Text.isBlank s = false) ↔ ¬ (p ∧ ∃ s ∈ ss, Text.isBlank s = true) := by
    intro p ss
    simp
  cases x with
  | mergedTarget t => exact accepts_mergedTarget_iff h
  | analyzerTarget t => exact accepts_analyzerTarget_iff h
  | acceptedAnalysis a => exact (accepts_acceptedAnalysis_iff h).trans (by simp [KeepsRules, Minds])
  | lensDispositionEntry i d =>
    exact (accepts_lensDisposition_iff h).trans (by simp [KeepsRules, Minds])
  | experiment e => exact (accepts_experiment_iff h).trans (by simp [KeepsRules, Minds])
  | implementedReport r =>
    exact (accepts_implementedReport_iff h halike).trans (and_congr_right fun _ => hblank)
  | abortedReport r =>
    exact (accepts_abortedReport_iff h halike).trans (and_congr_right fun _ => hblank)

end Ruled

/-! A finding that leaves a null, and a report that names a blank test. -/

/-- An issue that says of the scope of its tests that it is null. -/
def nullScopeJson : Json :=
  object [("target_span", string "span"), ("bucket", string "block_processing"),
    ("fix_signature", string "cache-reads"),
    ("hotspot", object [("span", string "span"), ("self_wall_us", nat 10),
      ("total_wall_us", nat 20), ("calls", nat 1), ("location", string "lib.rs:1")]),
    ("files", array [string "lib.rs"]), ("evidence", string "trace"),
    ("proposed_change", string "change cache-reads"),
    ("expected_improvement", object [("tx_latency", nat 0), ("tenure_throughput", nat 0),
      ("commit_time", nat 0)]),
    ("risk", string "high"), ("verification_plan", string "review"),
    ("consensus_breaking", bool true), ("breakage_class", string "block_validation"),
    ("poc_implementable", bool false), ("poc_test_scope", null),
    ("consensus_writeup", string "writeup")]

/-- A report that names a test that failed, and a blank one. -/
def blankTest : AbortedReport where
  sessionId := "20260614-000000"
  targetId := "cache-reads"
  deliveryMode := DeliveryMode.normalPr
  reason := "a test failed"
  failedGate := some FailedGate.nextest
  failingTests := some ["", "vm::tests::costs"]

/-- The document of that report. -/
def blankTestJson : Json :=
  object [("schema_version", nat 2), ("session_id", string "20260614-000000"),
    ("target_id", string "cache-reads"), ("outcome", string "aborted"),
    ("delivery_mode", string "normal_pr"), ("reason", string "a test failed"),
    ("failed_gate", string "nextest"),
    ("failing_tests", array [string "", string "vm::tests::costs"])]

/-- Texts are judged alike if white space is. -/
theorem alike_isWhiteSpace (s : String) : Alike Text.isWhiteSpace s :=
  List.not_all_eq_any_not.symm

theorem readFrom_nullScope {readReplay : Json → Fallible VerificationReplay}
    {readQuery : Json → Fallible EvidenceQuery} :
    (Ruled.analyzerTarget (consensusFinding "cache-reads")).ReadFrom readReplay readQuery
      nullScopeJson :=
  ⟨⟨rfl, rfl, rfl, rfl, rfl, rfl⟩, ⟨rfl, rfl⟩⟩

theorem readFrom_blankTest {readReplay : Json → Fallible VerificationReplay}
    {readQuery : Json → Fallible EvidenceQuery} :
    (Ruled.abortedReport blankTest).ReadFrom readReplay readQuery blankTestJson :=
  ⟨rfl, rfl, rfl, rfl⟩

/-- **Schemas and validators agree** on a document, unless it keeps all rules and has a null
where there must not be anything, or a blank item in a list that has to say something. -/
theorem accepts_iff_checkRules_iff {x : Ruled} {doc : Json} {space : Char → Bool}
    {readReplay : Json → Fallible VerificationReplay} {readQuery : Json → Fallible EvidenceQuery}
    (h : x.ReadFrom readReplay readQuery doc) (halike : ∀ s ∈ x.texts, Alike space s) :
    (accepts space (Schema.all x.applyInvariants) doc = true ↔ x.checkRules = Except.ok ())
      ↔ ¬ (x.KeepsRules ∧ x.Minds doc) := by
  rw [Ruled.accepts_applyInvariants_iff h halike, Ruled.checkRules_ok_iff]
  tauto

/-- The theorem at the report. -/
theorem accepts_iff_checkRules_iff_blankTest :
    (accepts Text.isWhiteSpace (Schema.all (Ruled.abortedReport blankTest).applyInvariants)
        blankTestJson = true ↔ (Ruled.abortedReport blankTest).checkRules = Except.ok ())
      ↔ ¬ ((Ruled.abortedReport blankTest).KeepsRules
        ∧ (Ruled.abortedReport blankTest).Minds blankTestJson) :=
  @accepts_iff_checkRules_iff _ _ _ (fun _ => bail "") (fun _ => bail "")
    readFrom_blankTest fun s _ => alike_isWhiteSpace s

/-- Both documents are validated, and neither schema accepts its own. -/
theorem not_accepts_of_validateModel :
    ((∃ readReplay readQuery, (Ruled.analyzerTarget (consensusFinding "cache-reads")).ReadFrom
          readReplay readQuery nullScopeJson)
        ∧ accepts Text.isWhiteSpace (Schema.all injectAnalyzerTarget) nullScopeJson = false
        ∧ (Ruled.analyzerTarget (consensusFinding "cache-reads")).checkRules = Except.ok ()
        ∧ (consensusFinding "cache-reads").validateModel = Except.ok ())
      ∧ (∃ readReplay readQuery, (Ruled.abortedReport blankTest).ReadFrom
          readReplay readQuery blankTestJson)
        ∧ accepts Text.isWhiteSpace (Schema.all injectAbortedReport) blankTestJson = false
        ∧ (Ruled.abortedReport blankTest).checkRules = Except.ok ()
        ∧ blankTest.validateModel = Except.ok () :=
  ⟨⟨⟨fun _ => bail "", fun _ => bail "", readFrom_nullScope⟩, by decide, by decide, by decide⟩,
    ⟨fun _ => bail "", fun _ => bail "", readFrom_blankTest⟩, by decide, by decide, by decide⟩
