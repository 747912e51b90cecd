import Sbagent.Targets

/-!
# What the phases leave behind for a target

After the merge every target has its own set of files. The optimizer's agent
leaves a report; the coordinator, when it commits what the agent did, leaves
the provenance of the commit; the calibration and the benchmark each leave
the run ids of their invocations; the results analyzer leaves a verdict on
the two. None of them is trusted on reading: the report, the provenance and
the verdict are compared with the session, the target and the delivery mode
they are read for, since an agent wrote the first and the last, and any of the
three may have been copied from elsewhere.

What happens to a file that fails is not the same for all. A missing report
and a missing provenance are ordinary, a malformed one is an error; a verdict
that is missing, malformed or out of place is no verdict
(`readResultsAnalysisForTarget_ok_some_iff`).
-/

open Fallible

/-! ## The optimizer's report -/

/-- Structural identifier for the gate that failed in an aborted run. -/
inductive FailedGate where
  | fmt
  | clippy
  | nextest
  | releaseBuild
  | nonTargetsMatch
  | noImplementationFound
  | parityUnprovable
  | timeoutHit
  | environmentalError
  deriving DecidableEq

/-- Whether the change touches consensus-sensitive code, and what shows that
it keeps parity if so. -/
structure ParityReport where
  consensusSensitive : Bool
  evidence : List String
  tests : List String
  /-- Never set on an implemented report. -/
  unprovenRisk : Option String
  deriving DecidableEq

/-- Test-suite outcome of the agent's inner loop. -/
structure TestSummary where
  passed : ℕ
  failed : ℕ
  durationSecs : F64
  logPath : String
  deriving DecidableEq

/-- Body of a report on an implementation. -/
structure ImplementedReport where
  sessionId : String
  targetId : String
  deliveryMode : DeliveryMode
  implementationSummary : String
  deviationFromProposedChange : Option String
  dependencyChanges : Option String
  testSummary : TestSummary
  clippyClean : Option Bool
  prTitle : String
  parity : ParityReport
  hardForkFollowup : Option String
  deriving DecidableEq

/-- Body of a report on an attempt that led to nothing. -/
structure AbortedReport where
  sessionId : String
  targetId : String
  deliveryMode : DeliveryMode
  reason : String
  failedGate : Option FailedGate
  failingTests : Option (List String)
  deriving DecidableEq

/-- The contents of `optimizer-report.json`. -/
inductive OptimizerReport where
  /-- All gates passed, the code is in the checkout. -/
  | implemented (r : ImplementedReport)
  /-- No usable implementation. -/
  | aborted (r : AbortedReport)
  deriving DecidableEq

namespace OptimizerReport

/-- The session a report says it belongs to. -/
def sessionId : OptimizerReport → String
  | implemented r => r.sessionId
  | aborted r => r.sessionId

/-- The target a report says it belongs to. -/
def targetId : OptimizerReport → String
  | implemented r => r.targetId
  | aborted r => r.targetId

/-- The delivery mode a report says it was made under. -/
def deliveryMode : OptimizerReport → DeliveryMode
  | implemented r => r.deliveryMode
  | aborted r => r.deliveryMode

/-- Whether there is something to commit. -/
def isImplemented : OptimizerReport → Bool
  | implemented _ => true
  | aborted _ => false

end OptimizerReport

/-- At least one entry says something. -/
def hasNonBlank (xs : List String) : Bool := xs.any fun s => !Text.isBlank s

/-- Clippy is the gate of a normal pull request, is left to the agent for a
proof of concept, and an issue has no implementation at all. -/
def ImplementedReport.checkClippy (r : ImplementedReport) : Fallible Unit :=
  match r.deliveryMode, r.clippyClean with
  | DeliveryMode.normalPr, some true => Except.ok ()
  | DeliveryMode.normalPr, some false =>
    bail (s!"implemented report `{r.targetId}`: normal_pr requires "
      ++ "clippy_clean=true (if clippy failed, emit `aborted` with "
      ++ "failed_gate=clippy)")
  | DeliveryMode.normalPr, none =>
    bail (s!"implemented report `{r.targetId}`: normal_pr requires clippy_clean "
      ++ "to be set")
  | DeliveryMode.consensusPocPr, _ => Except.ok ()
  | DeliveryMode.consensusIssue, _ =>
    bail (s!"implemented report `{r.targetId}`: consensus_issue mode never "
      ++ "produces an implemented report (coordinator skips the optimizer for "
      ++ "those targets)")

/-- The invariants of an implemented report. -/
def ImplementedReport.validateModel (r : ImplementedReport) : Fallible Unit := do
  bailIf (r.parity.consensusSensitive = true
      ∧ hasNonBlank r.parity.evidence = false)
    (s!"implemented report `{r.targetId}`: parity.consensus_sensitive=true "
      ++ "requires at least one non-blank parity.evidence entry")
  bailIf (r.parity.consensusSensitive = true ∧ hasNonBlank r.parity.tests = false)
    (s!"implemented report `{r.targetId}`: parity.consensus_sensitive=true "
      ++ "requires at least one non-blank parity.tests entry")
  bailIf (r.parity.unprovenRisk.isSome = true)
    (s!"implemented report `{r.targetId}`: parity.unproven_risk must be null on "
      ++ "`implemented` (use consensus_review_needed outcome instead — Phase 2)")
  bailIf (r.testSummary.failed ≠ 0)
    (s!"implemented report `{r.targetId}`: test_summary.failed must be 0 on "
      ++ s!"`implemented` (got {r.testSummary.failed}; emit `aborted` with "
      ++ "failed_gate=nextest + failing_tests list if tests actually failed)")
  bailIf (Text.isBlank r.implementationSummary = true)
    (s!"implemented report `{r.targetId}`: implementation_summary must be "
      ++ "non-blank")
  bailIf (Text.isBlank r.prTitle = true)
    s!"implemented report `{r.targetId}`: pr_title must be non-blank"
  bailIf (Text.isBlank r.testSummary.logPath = true)
    s!"implemented report `{r.targetId}`: test_summary.log_path must be non-blank"
  bailIf (r.testSummary.durationSecs.isFinite = false
      ∨ r.testSummary.durationSecs.lt F64.zero = true)
    (s!"implemented report `{r.targetId}`: test_summary.duration_secs must be "
      ++ s!"finite and >= 0 (got {r.testSummary.durationSecs.display})")
  r.checkClippy

/-- The invariants of an aborted report. -/
def AbortedReport.validateModel (r : AbortedReport) : Fallible Unit := do
  bailIf (Text.isBlank r.reason = true)
    s!"aborted report `{r.targetId}`: reason must be non-blank"
  bailIf (r.failedGate = some FailedGate.nextest
      ∧ (r.failingTests.map hasNonBlank).getD false = false)
    (s!"aborted report `{r.targetId}`: failed_gate=nextest requires at least one "
      ++ "non-blank failing_tests entry (so next-session triage knows which "
      ++ "tests blocked this attempt)")

/-- A report of either kind. -/
def OptimizerReport.validateModel : OptimizerReport → Fallible Unit
  | implemented r => r.validateModel
  | aborted r => r.validateModel

/-- The report belongs where it was found. The check is made in two places
whose messages differ in the words `claims`. -/
def OptimizerReport.checkContext (r : OptimizerReport)
    (sessionId targetId : String) (mode : DeliveryMode) (claims : String) :
    Fallible Unit := do
  bailIf (r.targetId ≠ targetId)
    (s!"optimizer-report.json for {targetId}: report.target_id="
      ++ Text.debug r.targetId ++ " does not match expected target_id="
      ++ Text.debug targetId)
  bailIf (r.sessionId ≠ sessionId)
    (s!"optimizer-report.json for {targetId}: report.session_id="
      ++ Text.debug r.sessionId ++ " does not match expected session_id="
      ++ Text.debug sessionId)
  bailIf (r.deliveryMode ≠ mode)
    (s!"optimizer-report.json for {targetId}: report.delivery_mode="
      ++ r.deliveryMode.debug ++ " does not match expected delivery_mode="
      ++ mode.debug ++ " (an agent " ++ claims ++ " a different mode could bypass "
      ++ "mode-specific invariants like clippy_clean)")

/-! ## The coordinator's provenance -/

/-- The contents of `coordinator-provenance.json`: what the coordinator saw of
the checkout's history when it committed. -/
structure CoordinatorProvenance where
  sessionId : String
  targetId : String
  deliveryMode : DeliveryMode
  /-- The parent of the coordinator's commit. -/
  baseSha : String
  /-- The coordinator's commit. -/
  headSha : String
  commitMessage : String
  deriving DecidableEq

namespace CoordinatorProvenance

/-- Forty hexadecimal digits. -/
def validateSha (field sha : String) : Fallible Unit := do
  bailIf (Text.byteLen sha ≠ 40)
    s!"{field}: expected 40-char hex SHA, got {Text.byteLen sha} chars"
  bailIf (sha.toList.all Text.isAsciiHexDigit = false)
    s!"{field}: contains non-hex characters"

/-- The provenance of a commit that exists. -/
def validateModel (p : CoordinatorProvenance) : Fallible Unit := do
  bailIf (Text.isBlank p.sessionId = true) "session_id must be non-empty"
  bailIf (Text.isBlank p.targetId = true) "target_id must be non-empty"
  validateSha "base_sha" p.baseSha
  validateSha "head_sha" p.headSha
  bailIf (p.baseSha = p.headSha)
    (s!"base_sha == head_sha ({p.baseSha}); coordinator must observe a HEAD that "
      ++ "advanced past the base after the agent's commit")
  bailIf (Text.isBlank p.commitMessage = true) "commit_message must be non-empty"

/-- The provenance belongs where it was found. -/
def validateContext (p : CoordinatorProvenance) (sessionId targetId : String)
    (mode : DeliveryMode) : Fallible Unit := do
  bailIf (p.sessionId ≠ sessionId)
    (s!"coordinator-provenance.json for {targetId}: session_id="
      ++ Text.debug p.sessionId ++ " does not match expected session_id="
      ++ Text.debug sessionId)
  bailIf (p.targetId ≠ targetId)
    ("coordinator-provenance.json: target_id=" ++ Text.debug p.targetId
      ++ " does not match expected target_id=" ++ Text.debug targetId
      ++ " (sidecar from the wrong target dir?)")
  bailIf (p.deliveryMode ≠ mode)
    (s!"coordinator-provenance.json for {targetId}: delivery_mode="
      ++ p.deliveryMode.debug ++ " does not match expected delivery_mode="
      ++ mode.debug)

end CoordinatorProvenance

/-! ## The verdict on a measurement -/

/-- The analyzer's overall verdict. -/
inductive Verdict where
  /-- The measured signal matches the hypothesis. -/
  | accepted
  /-- It matches in part. -/
  | mixed
  /-- It contradicts the hypothesis. -/
  | rejected
  deriving DecidableEq

/-- A verdict in a message. -/
def Verdict.debug : Verdict → String
  | accepted => "Accepted"
  | mixed => "Mixed"
  | rejected => "Rejected"

/-- How sure the analyzer is. -/
inductive Confidence where
  | high
  | medium
  | low
  deriving DecidableEq

/-- What the analyzer measured for one invocation. -/
structure PerInvocationResult where
  invocationId : String
  label : String
  baselineRunId : ℤ
  candidateRunId : ℤ
  measuredPct : F64
  matchesExpectedSignal : Bool
  observations : List String
  deriving DecidableEq

namespace PerInvocationResult

/-- The row of the baseline's run-id file that a result quotes. -/
def baselineEntry (r : PerInvocationResult) : InvocationRunId :=
  ⟨r.invocationId, r.baselineRunId⟩

/-- The row of the candidate's run-id file that a result quotes. -/
def candidateEntry (r : PerInvocationResult) : InvocationRunId :=
  ⟨r.invocationId, r.candidateRunId⟩

/-- One result is well formed. -/
def validateModel (r : PerInvocationResult) : Fallible Unit := do
  bailIf (isValidInvocationId r.invocationId = false)
    ("per_invocation_result.invocation_id = " ++ Text.debug r.invocationId
      ++ " does not match ^[a-z](?:[a-z0-9-]\x7b0,38\x7d[a-z0-9])?$ (analyzers "
      ++ "must echo the invocation_id from the target's "
      ++ "verification_replay.invocations[].id)")
  bailIf (Text.isBlank r.label = true)
    s!"per_invocation_result `{r.invocationId}`: label must be non-blank"
  bailIf (r.baselineRunId ≤ 0)
    (s!"per_invocation_result `{r.invocationId}`: baseline_run_id = "
      ++ s!"{r.baselineRunId} must be > 0 (stacks-bench DB primary keys are "
      ++ "1-indexed)")
  bailIf (r.candidateRunId ≤ 0)
    (s!"per_invocation_result `{r.invocationId}`: candidate_run_id = "
      ++ s!"{r.candidateRunId} must be > 0 (stacks-bench DB primary keys are "
      ++ "1-indexed)")
  bailIf (r.measuredPct.isFinite = false)
    (s!"per_invocation_result `{r.invocationId}`: measured_pct = "
      ++ s!"{r.measuredPct.display} must be finite")
  forEach (fun i o => bailIf (Text.isBlank o = true)
    (s!"per_invocation_result `{r.invocationId}`: observations[{i}] must be "
      ++ "non-blank")) r.observations

end PerInvocationResult

/-- The contents of `results-analysis.json`. -/
structure ResultsAnalysis where
  sessionId : String
  targetId : String
  axis : SelectionLens
  verdict : Verdict
  confidence : Confidence
  headlineRationale : String
  headlineImprovementPct : Option F64
  perInvocation : List PerInvocationResult
  caveats : List String
  prBodySummary : Option String
  deriving DecidableEq

namespace ResultsAnalysis

/-- A headline number goes with an acceptance, and never with a rejection. -/
def checkHeadline (ra : ResultsAnalysis) : Fallible Unit :=
  match ra.verdict, ra.headlineImprovementPct.isSome with
  | Verdict.accepted, false =>
    bail ("results_analysis.verdict=accepted requires headline_improvement_pct "
      ++ "(the analyzer must commit a single number when accepting)")
  | Verdict.rejected, true =>
    bail ("results_analysis.verdict=rejected forbids headline_improvement_pct "
      ++ "(no PR ships; the field would be misleading)")
  | _, _ => Except.ok ()

/-- A summary for the pull request goes with everything but a rejection. -/
def checkPrBody (ra : ResultsAnalysis) : Fallible Unit :=
  match ra.verdict, ra.prBodySummary.isSome with
  | Verdict.accepted, false | Verdict.mixed, false =>
    bail (s!"results_analysis.verdict={ra.verdict.debug} requires "
      ++ "pr_body_summary (Phase 5 PR-writer sources the PR body from this "
      ++ "field)")
  | Verdict.rejected, true =>
    bail "results_analysis.verdict=rejected forbids pr_body_summary (no PR ships)"
  | _, _ => Except.ok ()

/-- A verdict names what it is about, has a result for each of its
invocations, and carries what its outcome calls for. -/
def validateModel (ra : ResultsAnalysis) : Fallible Unit := do
  bailIf (Text.isBlank ra.sessionId = true)
    "results_analysis.session_id must be non-empty"
  bailIf (Text.isBlank ra.targetId = true)
    "results_analysis.target_id must be non-empty"
  bailIf (Text.isBlank ra.headlineRationale = true)
    "results_analysis.headline_rationale must be non-blank"
  onSome ra.headlineImprovementPct fun hp => bailIf (hp.isFinite = false)
    (s!"results_analysis.headline_improvement_pct = {hp.display} must be "
      ++ "finite")
  bailIf (ra.perInvocation = [])
    "results_analysis.per_invocation must contain at least one entry"
  -- the duplicate is noticed before the result itself is looked at
  scanDistinct (fun p => p.invocationId)
    (fun i p => s!"results_analysis.per_invocation[{i}]: duplicate invocation_id "
      ++ Text.debug p.invocationId)
    (fun _ _ => Except.ok ())
    (fun i p => p.validateModel.context s!"results_analysis.per_invocation[{i}]")
    ra.perInvocation
  ra.checkHeadline
  ra.checkPrBody
  onSome ra.prBodySummary fun s => bailIf (Text.isBlank s = true)
    "results_analysis.pr_body_summary must be non-blank when present"
  forEach (fun i c => bailIf (Text.isBlank c = true)
    s!"results_analysis.caveats[{i}] must be non-blank") ra.caveats

end ResultsAnalysis

/-! ## The source of a session -/

/-- The contents of `source.json`: the commit that the session's source
branch resolved to when the session started. -/
structure SourceJson where
  url : String
  branch : String
  sha : String
  fetchedAt : String
  cacheId : String
  deriving DecidableEq

/-- A source id is a slug of at most 64 bytes. -/
def validateSourceId (s : String) : Except String Unit :=
  let bytes := s.toUTF8.data.toList.map UInt8.toNat
  let lower := fun b => 97 ≤ b ∧ b ≤ 122
  let digit := fun b => 48 ≤ b ∧ b ≤ 57
  match bytes with
  | [] => Except.error "must not be empty"
  | first :: rest =>
    if 64 < bytes.length then
      Except.error s!"must be ≤64 chars (got {bytes.length})"
    else if ¬ lower first then
      Except.error "must start with a lowercase ASCII letter (a-z)"
    else
      match rest.getLast? with
      | none => Except.ok ()
      | some last =>
        if ¬ (lower last ∨ digit last) then
          Except.error
            "must end with a lowercase ASCII letter or digit (no trailing hyphen)"
        else
          match rest.dropLast.findIdx? fun b => ¬ (lower b ∨ digit b ∨ b = 45) with
          | none => Except.ok ()
          | some i => Except.error
            (s!"char {i + 1} (`{Char.ofNat (rest.getD i 0)}`) not allowed; only "
              ++ "`[a-z0-9-]` permitted between first and last positions")

/-- The record of a resolved source. -/
def SourceJson.validateModel (s : SourceJson) : Fallible Unit := do
  bailIf (s.url = "") "source.json: url must not be empty"
  bailIf (s.branch = "") "source.json: branch must not be empty"
  bailIf (s.fetchedAt = "") "source.json: fetched_at must not be empty"
  bailIf (Text.byteLen s.sha ≠ 40 ∨ s.sha.toList.all Text.isAsciiHexDigit = false)
    ("source.json: sha must be a 40-char hex string, got " ++ Text.debug s.sha)
  match validateSourceId s.cacheId with
  | Except.ok () => Except.ok ()
  | Except.error e =>
    bail s!"source.json: cache_id `{s.cacheId}` is not a valid slug: {e}"

/-! ## What was published -/

/-- The contents of `publish-feedback.json`: what a target was published as. -/
structure PublishFeedback where
  prUrl : Option String
  issueUrl : Option String
  openedAt : String
  deriving DecidableEq

namespace PublishFeedback

/-- A target is published as a pull request or as an issue. -/
def checkUrls (pf : PublishFeedback) : Fallible Unit :=
  match pf.prUrl, pf.issueUrl with
  | some _, some _ => bail
      ("publish-feedback.json carries both `pr_url` and `issue_url`; exactly one "
        ++ "is required (PR-mode and issue-mode targets are disjoint)")
  | none, none => bail
      ("publish-feedback.json carries neither `pr_url` nor `issue_url`; exactly "
        ++ "one is required")
  | some _, none => Except.ok ()
  | none, some _ => Except.ok ()

/-- One artifact, and when it was opened. -/
def validateModel (pf : PublishFeedback) : Fallible Unit := do
  pf.checkUrls
  bailIf (Text.isBlank pf.openedAt = true)
    ("publish-feedback.json has empty `opened_at`; the timestamp is the "
      ++ "provenance anchor")

/-- Read the file, if it is there. -/
def readOptional (path : String) (f : FileRead PublishFeedback) :
    Fallible (Option PublishFeedback) :=
  f.readOptional validateModel s!"reading publish-feedback.json at {path}"
    s!"parsing publish-feedback.json at {path}"
    s!"validating publish-feedback.json at {path}"

end PublishFeedback

/-! ## The files of a session -/

/-- What the files of a session hold, by the id of the target whose
directories they lie in. -/
structure SessionFiles where
  /-- The session's id. -/
  id : String
  /-- `optimize/<target>/optimizer-report.json`. -/
  optimizerReport : String → FileRead OptimizerReport
  /-- `optimize/<target>/consensus-issue.md`: its length, where it is a
  regular file. -/
  consensusIssue : String → Option ℕ
  /-- `optimize/<target>/coordinator-provenance.json`. -/
  coordinatorProvenance : String → FileRead CoordinatorProvenance
  /-- `optimize/<target>/candidate-run-ids.json`. -/
  candidateRunIds : String → FileRead InvocationRunIds
  /-- `verify/<target>/baseline-run-ids.json`. -/
  baselineRunIds : String → FileRead InvocationRunIds
  /-- `analyze/<target>/results-analysis.json`. -/
  resultsAnalysis : String → FileRead ResultsAnalysis
  /-- `source.json`. -/
  source : FileRead SourceJson

namespace SessionFiles

variable (s : SessionFiles)

/-- The optimizer's report on a target, if there is one: an error when it is
malformed or not about this target of this session in this mode. -/
def readOptimizerReportForTarget (targetId : String) (mode : DeliveryMode) :
    Fallible (Option OptimizerReport) := do
  let path := s!"optimize/{targetId}/optimizer-report.json"
  let report ← (s.optimizerReport targetId).readOptional
    OptimizerReport.validateModel s!"reading {path}" s!"parsing {path}"
    s!"validating {path}"
  onSome report fun r => r.checkContext s.id targetId mode "that claims"
  return report

/-- The verdict on a target, if there is a usable one: only a file that is
there and cannot be read is an error. -/
def readResultsAnalysisForTarget (targetId : String) :
    Fallible (Option ResultsAnalysis) :=
  match s.resultsAnalysis targetId with
  | FileRead.notFound => Except.ok none
  | FileRead.ioError => bail s!"reading analyze/{targetId}/results-analysis.json"
  | FileRead.malformed => Except.ok none
  | FileRead.parsed ra =>
    if ra.validateModel.isOk = false then Except.ok none
    else if ra.sessionId ≠ s.id ∨ ra.targetId ≠ targetId then Except.ok none
    else Except.ok (some ra)

/-- The provenance of a target's commit, if there is one: an error when it is
malformed or does not belong to the target. -/
def loadCoordinatorProvenance (target : MergedTarget) :
    Fallible (Option CoordinatorProvenance) := do
  let path := s!"optimize/{target.id}/coordinator-provenance.json"
  let p ← (s.coordinatorProvenance target.id).readOptional
    CoordinatorProvenance.validateModel s!"reading {path}"
    s!"parsing/validating {path}" s!"parsing/validating {path}"
  onSome p fun p =>
    (p.validateContext s.id target.id target.deliveryMode).context path
  return p

end SessionFiles

/-- The run ids in a file, if there is one. -/
def loadInvocationRunIds (path : String) (f : FileRead InvocationRunIds) :
    Fallible (Option InvocationRunIds) :=
  f.readOptional InvocationRunIds.validateModel s!"reading {path}"
    s!"parsing {path}" s!"invalid InvocationRunIds in {path}"

/-! ## What the validators and loaders accept -/

/-- What a verdict must be for the validator to accept it. -/
structure ResultsAnalysis.Valid (ra : ResultsAnalysis) : Prop where
  /-- It names its session and its target. -/
  named : Text.isBlank ra.sessionId = false ∧ Text.isBlank ra.targetId = false
  /-- It defends itself. -/
  rationale : Text.isBlank ra.headlineRationale = false
  /-- A headline number is a number. -/
  headline : ∀ hp ∈ ra.headlineImprovementPct, hp.isFinite = true
  /-- Something was measured. -/
  nonempty : ra.perInvocation ≠ []
  /-- An invocation has one result. -/
  nodup : (ra.perInvocation.map fun p => p.invocationId).Nodup
  /-- Each result is well formed. -/
  each : ∀ p ∈ ra.perInvocation, p.validateModel = Except.ok ()
  /-- An acceptance commits to a number. -/
  accepted : ra.verdict = Verdict.accepted → ra.headlineImprovementPct ≠ none
  /-- A rejection ships nothing. -/
  rejected : ra.verdict = Verdict.rejected →
    ra.headlineImprovementPct = none ∧ ra.prBodySummary = none
  /-- Everything else comes with a text for the pull request. -/
  prBody : ra.verdict ≠ Verdict.rejected →
    ∃ s, ra.prBodySummary = some s ∧ Text.isBlank s = false
  /-- Caveats say something. -/
  caveats : ∀ c ∈ ra.caveats, Text.isBlank c = false

theorem ResultsAnalysis.checkHeadline_ok_iff {ra : ResultsAnalysis} {u : Unit} :
    ra.checkHeadline = Except.ok u
      ↔ (ra.verdict = Verdict.accepted → ra.headlineImprovementPct ≠ none)
        ∧ (ra.verdict = Verdict.rejected → ra.headlineImprovementPct = none) := by
  unfold checkHeadline
  cases ra.verdict <;> cases ra.headlineImprovementPct <;> simp

theorem ResultsAnalysis.checkPrBody_ok_iff {ra : ResultsAnalysis} {u : Unit} :
    ra.checkPrBody = Except.ok u
      ↔ (ra.verdict = Verdict.rejected → ra.prBodySummary = none)
        ∧ (ra.verdict ≠ Verdict.rejected → ra.prBodySummary ≠ none) := by
  unfold checkPrBody
  cases ra.verdict <;> cases ra.prBodySummary <;> simp

/-- **The verdict validator accepts exactly the valid verdicts.** -/
theorem ResultsAnalysis.validateModel_ok_iff {ra : ResultsAnalysis} {u : Unit} :
    ra.validateModel = Except.ok u ↔ ra.Valid := by
  have hcaveats : (forEach (fun i c => bailIf (Text.isBlank c = true)
      s!"results_analysis.caveats[{i}] must be non-blank") ra.caveats
        = Except.ok u) ↔ ∀ c ∈ ra.caveats, Text.isBlank c = false :=
    forEach_ok_iff_forall (by simp)
  unfold ResultsAnalysis.validateModel
  simp only [seq_ok_iff, bailIf_ok_iff, onSome_ok_iff, scanDistinct_ok_iff,
    context_ok_iff, checkHeadline_ok_iff, checkPrBody_ok_iff, hcaveats,
    true_and, Bool.not_eq_true, Bool.not_eq_false]
  constructor
  · rintro ⟨hs, ht, hr, hh, hne, ⟨hnd, heach⟩, ⟨hacc, hrej⟩, ⟨hrej', hpr⟩, hbl,
      hcav⟩
    refine ⟨⟨hs, ht⟩, hr, hh, hne, hnd, fun p hp => ?_, hacc,
      fun h => ⟨hrej h, hrej' h⟩, fun h => ?_, hcav⟩
    · obtain ⟨i, hi⟩ := List.mem_iff_getElem?.mp hp
      exact heach i p hi
    · obtain ⟨s, hsome⟩ := Option.ne_none_iff_exists'.mp (hpr h)
      exact ⟨s, hsome, hbl s hsome⟩
  · rintro ⟨⟨hs, ht⟩, hr, hh, hne, hnd, heach, hacc, hrej, hpr, hcav⟩
    refine ⟨hs, ht, hr, hh, hne,
      ⟨hnd, fun i p hi => heach p (List.mem_of_getElem? hi)⟩,
      ⟨hacc, fun h => (hrej h).left⟩, ⟨fun h => (hrej h).right, fun h => ?_⟩,
      fun s hsome => ?_, hcav⟩
    · obtain ⟨s, hsome, -⟩ := hpr h
      rw [hsome]
      exact Option.some_ne_none s
    · by_cases hv : ra.verdict = Verdict.rejected
      · rw [(hrej hv).right] at hsome
        exact absurd hsome (Option.not_mem_none s)
      · obtain ⟨s', hs', hbl⟩ := hpr hv
        obtain rfl : s' = s := by rw [hs'] at hsome; simpa using hsome
        exact hbl

theorem OptimizerReport.checkContext_ok_iff {r : OptimizerReport}
    {sid tid : String} {mode : DeliveryMode} {claims : String} {u : Unit} :
    r.checkContext sid tid mode claims = Except.ok u
      ↔ r.targetId = tid ∧ r.sessionId = sid ∧ r.deliveryMode = mode := by
  unfold checkContext
  simp only [seq_ok_iff, bailIf_ok_iff, not_not]

theorem CoordinatorProvenance.validateContext_ok_iff
    {p : CoordinatorProvenance} {sid tid : String} {mode : DeliveryMode}
    {u : Unit} : p.validateContext sid tid mode = Except.ok u
      ↔ p.sessionId = sid ∧ p.targetId = tid ∧ p.deliveryMode = mode := by
  unfold validateContext
  simp only [seq_ok_iff, bailIf_ok_iff, not_not]

namespace SessionFiles

variable {s : SessionFiles} {targetId : String} {mode : DeliveryMode}

theorem readOptimizerReportForTarget_ok_none_iff :
    s.readOptimizerReportForTarget targetId mode = Except.ok none
      ↔ s.optimizerReport targetId = FileRead.notFound := by
  unfold readOptimizerReportForTarget
  simp only [bind_ok_iff, onSome_ok_iff, pure_ok_iff]
  constructor
  · rintro ⟨_, h, _, -, rfl⟩
    exact FileRead.readOptional_ok_none_iff.mp h
  · intro h
    exact ⟨none, FileRead.readOptional_ok_none_iff.mpr h, (), by simp, rfl⟩

/-- **A report is used when it is valid and is about this target, in this
session and in this mode.** -/
theorem readOptimizerReportForTarget_ok_some_iff {r : OptimizerReport} :
    s.readOptimizerReportForTarget targetId mode = Except.ok (some r)
      ↔ s.optimizerReport targetId = FileRead.parsed r
        ∧ r.validateModel = Except.ok () ∧ r.targetId = targetId
        ∧ r.sessionId = s.id ∧ r.deliveryMode = mode := by
  unfold readOptimizerReportForTarget
  simp only [bind_ok_iff, onSome_ok_iff, pure_ok_iff]
  constructor
  · rintro ⟨o, hread, _, hc, rfl⟩
    obtain ⟨hf, hv⟩ := FileRead.readOptional_ok_some_iff.mp hread
    exact ⟨hf, hv, OptimizerReport.checkContext_ok_iff.mp (hc r rfl)⟩
  · rintro ⟨hf, hv, hc⟩
    refine ⟨some r, FileRead.readOptional_ok_some_iff.mpr ⟨hf, hv⟩, (),
      fun r' hr' => ?_, rfl⟩
    obtain rfl : r = r' := by simpa using hr'
    exact OptimizerReport.checkContext_ok_iff.mpr hc

/-- **A verdict is used when it is valid and is about this target in this
session**, and otherwise there is none. -/
theorem readResultsAnalysisForTarget_ok_some_iff {ra : ResultsAnalysis} :
    s.readResultsAnalysisForTarget targetId = Except.ok (some ra)
      ↔ s.resultsAnalysis targetId = FileRead.parsed ra ∧ ra.Valid
        ∧ ra.sessionId = s.id ∧ ra.targetId = targetId := by
  have hvalid : ∀ ra : ResultsAnalysis, ra.validateModel.isOk = true
      ↔ ra.Valid := by
    intro ra
    rw [isOk_iff, ← ResultsAnalysis.validateModel_ok_iff (u := ())]
    exact ⟨fun ⟨_, h⟩ => h, fun h => ⟨(), h⟩⟩
  unfold readResultsAnalysisForTarget
  cases hf : s.resultsAnalysis targetId with
  | notFound => simp
  | ioError => simp
  | malformed => simp
  | parsed ra' =>
    simp only [FileRead.parsed.injEq]
    by_cases hv : ra'.validateModel.isOk = true
    · rw [if_neg (by simp [hv])]
      by_cases hc : ra'.sessionId ≠ s.id ∨ ra'.targetId ≠ targetId
      · rw [if_pos hc]
        refine iff_of_false (by simp) ?_
        rintro ⟨rfl, -, hs, ht⟩
        exact hc.elim (fun h => h hs) (fun h => h ht)
      · rw [if_neg hc]
        have hc' := not_or.mp hc
        simp only [not_not] at hc'
        constructor
        · intro h
          obtain rfl : ra' = ra := by simpa using h
          exact ⟨rfl, (hvalid _).mp hv, hc'⟩
        · rintro ⟨rfl, -⟩
          rfl
    · rw [if_pos (by simpa using hv)]
      refine iff_of_false (by simp) ?_
      rintro ⟨rfl, hra, -⟩
      exact hv ((hvalid _).mpr hra)

theorem loadCoordinatorProvenance_ok_none_iff {t : MergedTarget} :
    s.loadCoordinatorProvenance t = Except.ok none
      ↔ s.coordinatorProvenance t.id = FileRead.notFound := by
  unfold loadCoordinatorProvenance
  simp only [bind_ok_iff, onSome_ok_iff, pure_ok_iff]
  constructor
  · rintro ⟨_, h, _, -, rfl⟩
    exact FileRead.readOptional_ok_none_iff.mp h
  · intro h
    exact ⟨none, FileRead.readOptional_ok_none_iff.mpr h, (), by simp, rfl⟩

/-- **A provenance is used when it is valid and belongs to this target.** -/
theorem loadCoordinatorProvenance_ok_some_iff {t : MergedTarget}
    {p : CoordinatorProvenance} :
    s.loadCoordinatorProvenance t = Except.ok (some p)
      ↔ s.coordinatorProvenance t.id = FileRead.parsed p
        ∧ p.validateModel = Except.ok () ∧ p.sessionId = s.id
        ∧ p.targetId = t.id ∧ p.deliveryMode = t.deliveryMode := by
  unfold loadCoordinatorProvenance
  simp only [bind_ok_iff, onSome_ok_iff, pure_ok_iff, context_ok_iff]
  constructor
  · rintro ⟨o, hread, _, hc, rfl⟩
    obtain ⟨hf, hv⟩ := FileRead.readOptional_ok_some_iff.mp hread
    exact ⟨hf, hv, CoordinatorProvenance.validateContext_ok_iff.mp
      (hc p rfl)⟩
  · rintro ⟨hf, hv, hc⟩
    refine ⟨some p, FileRead.readOptional_ok_some_iff.mpr ⟨hf, hv⟩, (),
      fun q hq => ?_, rfl⟩
    obtain rfl : p = q := by simpa using hq
    exact CoordinatorProvenance.validateContext_ok_iff.mpr hc

end SessionFiles

/-- **A run-id file is used when its rows name distinct invocations and real
runs.** -/
theorem loadInvocationRunIds_ok_some_iff {path : String}
    {f : FileRead InvocationRunIds} {ids : InvocationRunIds} :
    loadInvocationRunIds path f = Except.ok (some ids)
      ↔ f = FileRead.parsed ids
        ∧ (ids.entries.map fun e => e.invocationId).Nodup
        ∧ ∀ e ∈ ids.entries,
            isValidInvocationId e.invocationId = true ∧ 0 < e.runId := by
  rw [loadInvocationRunIds, FileRead.readOptional_ok_some_iff,
    InvocationRunIds.validateModel_ok_iff]
