import Sbagent.Common

/-!
# Analyses and optimization targets

An analyzer leaves one analysis per family; an accepted one carries the
targets the analyzer commits to. The merge phase consolidates the targets of
all accepted analyses into one document, `optimization-targets.json`, whose
targets point back at their contributors by family id and index.

Both documents are written by a language model and checked on reading. The
checks on the routing fields – what a change that breaks consensus must carry,
and what any other change must not – are the same on an analyzer's target and
on a merged one, up to the words of the messages.
-/

open Fallible

/-! ## Analyses -/

/-- One concrete optimization target emitted by an analyzer. -/
structure AnalyzerTarget where
  targetSpan : String
  bucket : Bucket
  /-- Stable identifier of the structural fix. -/
  fixSignature : String
  hotspot : Hotspot
  files : List String
  evidence : String
  evidenceQueries : List EvidenceQuery
  proposedChange : String
  expectedImprovement : ImprovementVector
  risk : Risk
  verificationPlan : String
  verificationReplay : Option VerificationReplay
  consensusBreaking : Bool
  breakageClass : Option BreakageClass
  pocImplementable : Option Bool
  pocTestScope : Option (List String)
  consensusWriteup : Option String
  deriving DecidableEq

/-- Disposition of the lens that triage promoted a family on. -/
structure LensDisposition where
  lens : SelectionLens
  status : LensDispositionStatus
  reason : Option String
  deriving DecidableEq

/-- An analysis that found the signal to be real. -/
structure AcceptedAnalysis where
  familyId : String
  selectionLens : SelectionLens
  lensDisposition : LensDisposition
  targets : List AnalyzerTarget
  globalMaterialityNote : Option String
  deriving DecidableEq

/-- An analysis that found the signal to be a false positive. -/
structure RejectedAnalysis where
  familyId : String
  reason : String
  deriving DecidableEq

/-- The contents of one `analysis.json`. -/
inductive Analysis where
  | accepted (a : AcceptedAnalysis)
  | rejected (r : RejectedAnalysis)
  deriving DecidableEq

/-- Family id of either kind of analysis. -/
def Analysis.familyId : Analysis → String
  | accepted a => a.familyId
  | rejected r => r.familyId

/-! ## Optimization targets -/

/-- Reference to one analyzer target: its family, and its zero-based index
in that analysis's `targets[]`. -/
structure MergedFrom where
  familyId : String
  targetIndex : ℕ
  deriving DecidableEq

/-- An analyzer target that the merge dropped. -/
structure RejectedByMerge where
  familyId : String
  targetIndex : ℕ
  reason : String
  deriving DecidableEq

/-- One merged optimization target. -/
structure MergedTarget where
  /-- Canonical identifier, which every later phase files its work under. -/
  id : String
  mergedFrom : List MergedFrom
  convergenceCount : ℕ
  rank : Option ℕ
  targetSpan : String
  bucket : Bucket
  hotspot : Hotspot
  files : List String
  evidence : String
  evidenceQueries : List EvidenceQuery
  proposedChange : String
  expectedImprovement : ImprovementVector
  risk : Risk
  verificationPlan : String
  verificationReplay : Option VerificationReplay
  mergeNotes : Option String
  contributorDifferences : Option (List String)
  consensusBreaking : Bool
  breakageClass : Option BreakageClass
  pocImplementable : Option Bool
  pocTestScope : Option (List String)
  consensusWriteup : Option String
  deliveryMode : DeliveryMode
  benchEligible : Bool
  deriving DecidableEq

/-- The contents of `optimization-targets.json`. -/
structure OptimizationTargets where
  sessionId : String
  baselineRunId : ℤ
  baselineRerunId : ℤ
  noiseFloorPct : F64
  mergeModel : String
  targets : List MergedTarget
  rejectedByMerge : List RejectedByMerge
  lensDispositions : List LensDispositionEntry
  deriving DecidableEq

/-! ## Validators -/

/-- The routing fields of a change that breaks consensus. The two kinds of
target word their messages differently: `pre` stands in front of each, `note`
after the one on block validation, and `allowed` is the verb of the last. -/
def checkBreakingFields (pre note allowed : String)
    (breakageClass : Option BreakageClass) (pocImplementable : Option Bool)
    (pocTestScope : Option (List String)) (consensusWriteup : Option String) :
    Fallible Unit := do
  bailIf (breakageClass = none)
    (pre ++ "consensus_breaking=true requires breakage_class")
  bailIf (pocImplementable = none)
    (pre ++ "consensus_breaking=true requires poc_implementable")
  bailIf (consensusWriteup = none)
    (pre ++ "consensus_breaking=true requires consensus_writeup")
  bailIf (breakageClass = some BreakageClass.blockValidation
      ∧ pocImplementable ≠ some false)
    (pre ++ "breakage_class=block_validation forces poc_implementable=false"
      ++ note)
  if pocImplementable = some true then
    bailIf (pocTestScope = none ∨ pocTestScope = some [])
      (pre ++ "poc_implementable=true requires non-empty poc_test_scope")
  else
    bailIf (pocTestScope.isSome = true)
      (pre ++ "poc_test_scope " ++ allowed
        ++ " only when poc_implementable=true")

/-- The routing fields of an analyzer's target. A change that does not break
consensus carries none of them and says how it is to be measured. -/
def AnalyzerTarget.checkRouting (t : AnalyzerTarget) : Fallible Unit :=
  if t.consensusBreaking then
    checkBreakingFields "" " (bench harness does not exercise validation path)"
      "is allowed" t.breakageClass t.pocImplementable t.pocTestScope
      t.consensusWriteup
  else do
    bailIf (t.breakageClass.isSome = true)
      "non-consensus target must not carry breakage_class"
    bailIf (t.pocImplementable.isSome = true)
      "non-consensus target must not carry poc_implementable"
    bailIf (t.pocTestScope.isSome = true)
      "non-consensus target must not carry poc_test_scope"
    bailIf (t.consensusWriteup.isSome = true)
      "non-consensus target must not carry consensus_writeup"
    bailIf (t.verificationReplay = none)
      ("non-consensus target must carry verification_replay (Pass 1c invariant "
        ++ "— analyzer owns the measurement protocol)")

/-- An analyzer's target: replay, routing fields and evidence. -/
def AnalyzerTarget.validateModel (t : AnalyzerTarget) : Fallible Unit := do
  onSome t.verificationReplay fun vr =>
    vr.validateModel.context "verification_replay"
  t.checkRouting
  validateEvidenceQueriesForReplay t.evidenceQueries t.verificationReplay
    (!t.consensusBreaking)

/-- An accepted analysis: the lens it disposes of is its own, and it carries
what its disposition promises. -/
def AcceptedAnalysis.validateModel (a : AcceptedAnalysis) : Fallible Unit := do
  bailIf (a.lensDisposition.lens ≠ a.selectionLens)
    (s!"analysis `{a.familyId}`: lens_disposition.lens ("
      ++ a.lensDisposition.lens.debug ++ ") must equal selection_lens ("
      ++ a.selectionLens.debug ++ ")")
  bailIf (a.lensDisposition.status = LensDispositionStatus.notActionable
      ∧ a.lensDisposition.reason = none)
    (s!"analysis `{a.familyId}`: lens_disposition.status=not_actionable "
      ++ "requires `reason`")
  bailIf (a.lensDisposition.status = LensDispositionStatus.addressed
      ∧ a.targets = [])
    (s!"analysis `{a.familyId}`: lens_disposition.status=addressed requires "
      ++ "at least one target")
  forEach (fun i t =>
    t.validateModel.context s!"analysis `{a.familyId}` target[{i}]") a.targets

/-- An analysis of either kind; a rejected one has nothing to check. -/
def Analysis.validateModel : Analysis → Fallible Unit
  | accepted a => a.validateModel
  | rejected _ => Except.ok ()

/-- The routing fields of a merged target. -/
def MergedTarget.checkRouting (t : MergedTarget) : Fallible Unit :=
  if t.consensusBreaking then
    checkBreakingFields s!"target `{t.id}`: " "" "allowed" t.breakageClass
      t.pocImplementable t.pocTestScope t.consensusWriteup
  else
    bailIf (t.breakageClass.isSome = true ∨ t.pocImplementable.isSome = true
        ∨ t.pocTestScope.isSome = true ∨ t.consensusWriteup.isSome = true)
      (s!"target `{t.id}`: non-consensus target must not carry any "
        ++ "consensus-only field")

/-- A merged target: contributors, routing fields, derived fields, replay and
evidence. -/
def MergedTarget.validateModel (t : MergedTarget) : Fallible Unit := do
  onSome t.verificationReplay fun vr =>
    vr.validateModel.context s!"target `{t.id}`: verification_replay"
  bailIf (t.mergedFrom = []) s!"target `{t.id}`: merged_from is empty"
  bailIf (t.mergedFrom.length ≠ t.convergenceCount)
    (s!"target `{t.id}`: convergence_count={t.convergenceCount} but "
      ++ s!"merged_from has {t.mergedFrom.length} entries")
  t.checkRouting
  bailIf (t.deliveryMode
      ≠ DeliveryMode.derive t.consensusBreaking t.pocImplementable)
    (s!"target `{t.id}`: delivery_mode={t.deliveryMode.debug} inconsistent "
      ++ s!"with consensus_breaking={t.consensusBreaking} + poc_implementable="
      ++ Text.debugOptionBool t.pocImplementable ++ " (expected "
      ++ (DeliveryMode.derive t.consensusBreaking t.pocImplementable).debug
      ++ ")")
  bailIf (t.benchEligible ≠ t.deliveryMode.benchEligible)
    (s!"target `{t.id}`: bench_eligible={t.benchEligible} inconsistent with "
      ++ s!"delivery_mode={t.deliveryMode.debug}")
  bailIf (t.benchEligible = true ∧ t.verificationReplay = none)
    (s!"target `{t.id}`: bench_eligible target must carry verification_replay "
      ++ "(Pass 1c invariant — Phase 1.8/3/3.5 require analyzer-emitted "
      ++ "invocations)")
  (validateEvidenceQueriesForReplay t.evidenceQueries t.verificationReplay
    t.benchEligible).context s!"target `{t.id}`"

/-- The whole document: every target is well formed, and a lens that was not
acted on has a reason. -/
def OptimizationTargets.validateModel (o : OptimizationTargets) :
    Fallible Unit := do
  forEach (fun i t => t.validateModel.context s!"targets[{i}]") o.targets
  forEach (fun i d =>
    bailIf (d.status = LensDispositionStatus.notActionable ∧ d.reason = none)
      (s!"lens_dispositions[{i}] (family `{d.familyId}`): not_actionable "
        ++ "requires reason")) o.lensDispositions

/-- Read and validate `optimization-targets.json`. -/
def readOptimizationTargets (f : FileRead OptimizationTargets) :
    Fallible OptimizationTargets :=
  f.parseValidated OptimizationTargets.validateModel
    "merge/optimization-targets.json"

/-! ## What the validators accept -/

/-- What the routing fields must be: all there and consistent when consensus
is broken, all absent otherwise. -/
structure RoutingValid (consensusBreaking : Bool)
    (breakageClass : Option BreakageClass) (pocImplementable : Option Bool)
    (pocTestScope : Option (List String)) (consensusWriteup : Option String) :
    Prop where
  /-- A breaking change carries its fields. -/
  breaking : consensusBreaking = true → breakageClass ≠ none
    ∧ pocImplementable ≠ none ∧ consensusWriteup ≠ none
  /-- Block validation is never implementable as a proof of concept. -/
  blockValidation : consensusBreaking = true →
    breakageClass = some BreakageClass.blockValidation →
      pocImplementable = some false
  /-- A proof of concept has a test scope, and nothing else has one. -/
  scope : consensusBreaking = true →
    (pocImplementable = some true → ∃ s, pocTestScope = some s ∧ s ≠ [])
      ∧ (pocImplementable ≠ some true → pocTestScope = none)
  /-- Any other change carries none of the fields. -/
  nonBreaking : consensusBreaking = false → breakageClass = none
    ∧ pocImplementable = none ∧ pocTestScope = none ∧ consensusWriteup = none

/-- What a merged target must be for the validator to accept it. -/
structure MergedTarget.Valid (t : MergedTarget) : Prop where
  /-- The replay, where there is one, is valid. -/
  replay : ∀ vr ∈ t.verificationReplay, vr.Valid
  /-- Somebody contributed. -/
  contributors : t.mergedFrom ≠ []
  /-- The count counts the contributors. -/
  count : t.mergedFrom.length = t.convergenceCount
  /-- The routing fields are consistent. -/
  routing : RoutingValid t.consensusBreaking t.breakageClass
    t.pocImplementable t.pocTestScope t.consensusWriteup
  /-- The delivery mode is the derived one. -/
  deliveryMode : t.deliveryMode
    = DeliveryMode.derive t.consensusBreaking t.pocImplementable
  /-- Exactly the normal pull requests are benchmarked. -/
  benchEligible : t.benchEligible = t.deliveryMode.benchEligible
  /-- What is benchmarked says how. -/
  measured : t.benchEligible = true → t.verificationReplay ≠ none
  /-- The evidence fits the replay. -/
  evidence : validateEvidenceQueriesForReplay t.evidenceQueries
    t.verificationReplay t.benchEligible = Except.ok ()

theorem checkBreakingFields_ok_iff {pre note allowed : String}
    {bc : Option BreakageClass} {poc : Option Bool}
    {scope : Option (List String)} {writeup : Option String} {u : Unit} :
    checkBreakingFields pre note allowed bc poc scope writeup = Except.ok u
      ↔ RoutingValid true bc poc scope writeup := by
  have hscope : (if poc = some true then
        bailIf (scope = none ∨ scope = some [])
          (pre ++ "poc_implementable=true requires non-empty poc_test_scope")
      else bailIf (scope.isSome = true) (pre ++ "poc_test_scope " ++ allowed
        ++ " only when poc_implementable=true")) = Except.ok u
      ↔ (poc = some true → ∃ s, scope = some s ∧ s ≠ [])
        ∧ (poc ≠ some true → scope = none) := by
    split
    case isTrue h => cases scope <;> simp [h]
    case isFalse h => cases scope <;> simp [h]
  unfold checkBreakingFields
  simp only [seq_ok_iff, bailIf_ok_iff, hscope, not_and, not_not]
  constructor
  · rintro ⟨hbc, hpoc, hwr, hbv, hsc⟩
    exact ⟨fun _ => ⟨hbc, hpoc, hwr⟩, fun _ => hbv, fun _ => hsc, by simp⟩
  · rintro ⟨hb, hbv, hsc, _⟩
    obtain ⟨hbc, hpoc, hwr⟩ := hb rfl
    exact ⟨hbc, hpoc, hwr, hbv rfl, hsc rfl⟩

theorem MergedTarget.checkRouting_ok_iff {t : MergedTarget} {u : Unit} :
    t.checkRouting = Except.ok u
      ↔ RoutingValid t.consensusBreaking t.breakageClass t.pocImplementable
          t.pocTestScope t.consensusWriteup := by
  unfold MergedTarget.checkRouting
  split
  case isTrue h =>
    rw [h]
    exact checkBreakingFields_ok_iff
  case isFalse h =>
    have hf : t.consensusBreaking = false := by simpa using h
    rw [bailIf_ok_iff, hf]
    simp only [not_or, Bool.not_eq_true, Option.isSome_eq_false_iff,
      Option.isNone_iff_eq_none]
    exact ⟨fun h => ⟨by simp, by simp, by simp, fun _ => h⟩,
      fun h => h.nonBreaking rfl⟩

/-- **The merged-target validator accepts exactly the valid targets.** -/
theorem MergedTarget.validateModel_ok_iff {t : MergedTarget} {u : Unit} :
    t.validateModel = Except.ok u ↔ t.Valid := by
  unfold MergedTarget.validateModel
  simp only [seq_ok_iff, bailIf_ok_iff, onSome_ok_iff, context_ok_iff,
    MergedTarget.checkRouting_ok_iff, VerificationReplay.validateModel_ok_iff,
    not_not, not_and]
  constructor
  · rintro ⟨hvr, hmf, hcount, hroute, hdm, hbe, hmeas, hev⟩
    exact ⟨hvr, hmf, hcount, hroute, hdm, hbe, hmeas, hev⟩
  · rintro ⟨hvr, hmf, hcount, hroute, hdm, hbe, hmeas, hev⟩
    exact ⟨hvr, hmf, hcount, hroute, hdm, hbe, hmeas, hev⟩

/-- **The document validator accepts exactly the documents whose targets are
valid** and whose unaddressed lenses have reasons. -/
theorem OptimizationTargets.validateModel_ok_iff {o : OptimizationTargets}
    {u : Unit} : o.validateModel = Except.ok u
      ↔ (∀ t ∈ o.targets, t.Valid) ∧ ∀ d ∈ o.lensDispositions,
          d.status = LensDispositionStatus.notActionable → d.reason ≠ none := by
  unfold OptimizationTargets.validateModel
  rw [seq_ok_iff]
  refine and_congr (forEach_ok_iff_forall fun i t => ?_)
    (forEach_ok_iff_forall fun i d => ?_)
  · rw [context_ok_iff, MergedTarget.validateModel_ok_iff]
  · rw [bailIf_ok_iff, not_and]

/-- A valid target is benchmarked when it is delivered as a normal pull
request, and then it has a valid replay. -/
theorem MergedTarget.Valid.exists_replay {t : MergedTarget} (h : t.Valid)
    (hm : t.deliveryMode = DeliveryMode.normalPr) :
    ∃ vr, t.verificationReplay = some vr ∧ vr.Valid := by
  have helig : t.benchEligible = true := by
    rw [h.benchEligible, DeliveryMode.benchEligible_iff]
    exact hm
  obtain ⟨vr, hvr⟩ := Option.ne_none_iff_exists'.mp (h.measured helig)
  exact ⟨vr, hvr, h.replay vr (by rw [hvr]; rfl)⟩
