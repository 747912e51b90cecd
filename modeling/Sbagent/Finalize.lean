import Sbagent.Merge
import Sbagent.Reports

/-!
# The summary of a session

Finalizing a session gives every target one row. For a normal pull request the
row is settled by four files that four phases wrote: the optimizer's report
says whether there is an implementation, two run-id files say which benchmark
runs measured the candidate and the baseline, and the results analyzer's
verdict says what the runs show. An acceptance is the conjunction of all of
them, and the id of an invocation is what they are compared by.

The three lists of invocations – those of the two run-id files and those of
the verdict – need not be in the order of the target's replay on disk. The two
files are put into that order first (`reorderToMatch_ok_iff`); the verdict has
to be in it already (`crossCheckPerInvocation_ok_iff`). What finalizing accepts
is then read off the files alone: `computeSummary_sound`.
-/

open Fallible
open Std (ExtTreeMap)

/-! ## Rows -/

/-- Outcome of an experiment row. -/
inductive ExperimentStatus where
  /-- The benchmark measured a real improvement. -/
  | accepted
  /-- The benchmark did not show one. -/
  | rejected
  /-- The pipeline did not produce a usable artifact. -/
  | aborted
  /-- Scoped tests passed; no benchmark by design. -/
  | pocLanded
  /-- The analyzer's writeup is the artifact. -/
  | routedToIssue
  deriving DecidableEq

/-- A row status in a message. -/
def ExperimentStatus.debug : ExperimentStatus → String
  | accepted => "Accepted"
  | rejected => "Rejected"
  | aborted => "Aborted"
  | pocLanded => "PocLanded"
  | routedToIssue => "RoutedToIssue"

/-- One row of a summary. -/
structure Experiment where
  targetId : String
  deliveryMode : DeliveryMode
  status : ExperimentStatus
  runIds : Option (List ℤ)
  baselineRunIds : Option (List ℤ)
  improvementPct : Option F64
  breakageClass : Option BreakageClass
  baseSha : Option String
  headSha : Option String
  reason : Option String
  deriving DecidableEq

/-- The statuses that a row of a delivery mode may have. -/
def DeliveryMode.allows : DeliveryMode → ExperimentStatus → Bool
  | normalPr, ExperimentStatus.accepted => true
  | normalPr, ExperimentStatus.rejected => true
  | normalPr, ExperimentStatus.aborted => true
  | consensusPocPr, ExperimentStatus.pocLanded => true
  | consensusPocPr, ExperimentStatus.aborted => true
  | consensusIssue, ExperimentStatus.routedToIssue => true
  | consensusIssue, ExperimentStatus.aborted => true
  | _, _ => false

/-- The status of a row fits its delivery mode. -/
def Experiment.validateModel (e : Experiment) : Fallible Unit :=
  bailIf (e.deliveryMode.allows e.status = false)
    (s!"experiment `{e.targetId}`: status={e.status.debug} invalid for "
      ++ s!"delivery_mode={e.deliveryMode.debug}")

/-- Counts of normal pull requests. -/
structure NormalPrCounts where
  accepted : UInt32
  rejected : UInt32
  aborted : UInt32
  deriving DecidableEq

/-- Counts of proofs of concept. -/
structure ConsensusPocPrCounts where
  pocLanded : UInt32
  aborted : UInt32
  deriving DecidableEq

/-- Counts of issues. -/
structure ConsensusIssueCounts where
  routedToIssue : UInt32
  aborted : UInt32
  deriving DecidableEq

/-- Counts by delivery mode and status. -/
structure OutcomeCounts where
  normalPr : NormalPrCounts
  consensusPocPr : ConsensusPocPrCounts
  consensusIssue : ConsensusIssueCounts
  deriving DecidableEq

/-- The contents of `summary.json`. -/
structure Summary where
  sessionId : String
  baselineRunId : ℤ
  baselineRerunId : ℤ
  noiseFloorPct : F64
  experiments : List Experiment
  outcomeCounts : OutcomeCounts
  lensDispositions : List LensDispositionEntry
  nextTargetsHint : Option String
  sourceUrl : Option String
  sourceBranch : Option String
  sourceSha : Option String
  sourceFetchedAt : Option String
  deriving DecidableEq

/-- A row without a baseline of its own. The shas are filled in later. -/
def experiment (t : MergedTarget) (status : ExperimentStatus)
    (runIds : Option (List ℤ)) (improvementPct : Option F64)
    (reason : Option String) : Experiment :=
  { targetId := t.id
    deliveryMode := t.deliveryMode
    status := status
    runIds := runIds
    baselineRunIds := none
    improvementPct := improvementPct
    breakageClass := t.breakageClass
    baseSha := none
    headSha := none
    reason := reason }

/-- A row with the run ids of its baseline. -/
def experimentWithBaseline (t : MergedTarget) (status : ExperimentStatus)
    (runIds baselineRunIds : Option (List ℤ)) (improvementPct : Option F64)
    (reason : Option String) : Experiment :=
  { experiment t status runIds improvementPct reason with
    baselineRunIds := baselineRunIds }

/-! ## The verdicts of a session -/

/-- The verdicts, by target id. -/
abbrev VerdictMap : Type := ExtTreeMap String ResultsAnalysis

/-- Enter the verdict on one target, if there is one. -/
def loadVerdict (files : SessionFiles) (out : VerdictMap) (t : MergedTarget) :
    Fallible VerdictMap := do
  let ra ← files.readResultsAnalysisForTarget t.id
  return match ra with
    | some ra => out.insert t.id ra
    | none => out

/-- Load every target's verdict. -/
def loadVerdicts (files : SessionFiles) (targets : OptimizationTargets) :
    Fallible VerdictMap :=
  targets.targets.foldlM (loadVerdict files) ∅

/-! ## Invocations -/

/-- The elements of one list that are not in the other, as sets are printed. -/
def debugDifference (xs ys : List String) : String :=
  let diff := (xs.filter fun x => x ∉ ys).dedup.insertionSort fun a b => a ≤ b
  "[" ++ String.intercalate ", " (diff.map Text.debug) ++ "]"

/-- Put the rows of a run-id file into the expected order. The file has to be
about the expected invocations, no fewer and no more. -/
def reorderToMatch (actual : InvocationRunIds) (expected : List String)
    (side : String) : Fallible InvocationRunIds := do
  let ids := actual.entries.map fun e => e.invocationId
  bailIf (expected.toFinset ≠ ids.toFinset)
    (s!"{side}-run-ids invocation set mismatch: missing "
      ++ debugDifference expected ids ++ ", extra " ++ debugDifference ids expected
      ++ "; baseline + candidate must mirror "
      ++ "verification_replay.invocations[].id exactly (Pass 1c invariant)")
  let entries ← expected.mapM fun id =>
    ofOption (actual.entries.find? fun e => e.invocationId = id)
      "set equality just verified this id exists"
  return ⟨entries⟩

/-- The ids of a target's invocations, in the order of its replay. -/
def expectedInvocationOrder (t : MergedTarget) : Fallible (List String) := do
  let vr ← ofOption t.verificationReplay
    (s!"bench_eligible target `{t.id}` has no verification_replay; merge "
      ++ "validator should have rejected this (Pass 1c invariant)")
  return vr.invocations.map fun inv => inv.id

/-- The verdict's axis is the one that the target's first invocation expects
its signal on. -/
def crossCheckAxis (ra : ResultsAnalysis) (t : MergedTarget) : Fallible Unit := do
  let vr ← ofOption t.verificationReplay
    s!"bench_eligible target `{t.id}` has no verification_replay (caller bug)"
  let first ← ofOption vr.invocations.head? "index out of bounds"
  bailIf (ra.axis ≠ first.expectedSignal.axis)
    (s!"results-analysis.axis = {ra.axis.debug} but the target's invocations "
      ++ s!"expect axis = {first.expectedSignal.axis.debug}")

/-- One result of the verdict against the rows of the two files in the same
position. -/
def crossCheckRow (i : ℕ)
    (r : PerInvocationResult × InvocationRunId × InvocationRunId) :
    Fallible Unit := do
  let row := r.fst
  let b := r.snd.fst
  let c := r.snd.snd
  bailIf (row.invocationId ≠ b.invocationId)
    (s!"per_invocation[{i}].invocation_id = " ++ Text.debug row.invocationId
      ++ s!" but baseline-run-ids[{i}] = " ++ Text.debug b.invocationId)
  bailIf (row.invocationId ≠ c.invocationId)
    (s!"per_invocation[{i}].invocation_id = " ++ Text.debug row.invocationId
      ++ s!" but candidate-run-ids[{i}] = " ++ Text.debug c.invocationId)
  bailIf (row.baselineRunId ≠ b.runId)
    (s!"per_invocation[{i}].baseline_run_id = {row.baselineRunId} but "
      ++ s!"baseline-run-ids[{i}].run_id = {b.runId}")
  bailIf (row.candidateRunId ≠ c.runId)
    (s!"per_invocation[{i}].candidate_run_id = {row.candidateRunId} but "
      ++ s!"candidate-run-ids[{i}].run_id = {c.runId}")

/-- The verdict's results against the two files, position by position. -/
def crossCheckPerInvocation (ra : ResultsAnalysis)
    (baseline candidate : InvocationRunIds) : Fallible Unit := do
  bailIf (ra.perInvocation.length ≠ baseline.entries.length)
    (s!"per_invocation length {ra.perInvocation.length} != baseline run-ids "
      ++ s!"length {baseline.entries.length}")
  bailIf (ra.perInvocation.length ≠ candidate.entries.length)
    (s!"per_invocation length {ra.perInvocation.length} != candidate run-ids "
      ++ s!"length {candidate.entries.length}")
  forEach crossCheckRow
    (ra.perInvocation.zip (baseline.entries.zip candidate.entries))

/-! ## One row -/

/-- What a verdict makes of a row: its status and the reason shown with it. -/
def mapVerdictToStatus (ra : ResultsAnalysis) :
    ExperimentStatus × Option String :=
  match ra.verdict with
  | Verdict.accepted => (ExperimentStatus.accepted, none)
  | Verdict.mixed =>
    let caveats := if ra.caveats = [] then [ra.headlineRationale] else ra.caveats
    (ExperimentStatus.accepted,
      some ("mixed: " ++ String.intercalate "; " caveats))
  | Verdict.rejected => (ExperimentStatus.rejected, some ra.headlineRationale)

/-- A chain of messages on one line. -/
def alternate (e : List String) : String := String.intercalate ": " e

/-- The row of a benchmarked target, given its run ids in the order of the
replay and the verdict, if there is one. -/
def judge (t : MergedTarget) (candidateIds baselineIds : InvocationRunIds)
    (verdict : Option ResultsAnalysis) : Experiment :=
  let row := fun status pct reason => experimentWithBaseline t status
    (some candidateIds.runIds) (some baselineIds.runIds) pct reason
  match verdict with
  | none => row ExperimentStatus.aborted none
      (some ("results-analyzer did not produce a verdict — "
        ++ "analyze/<target>/results-analysis.json absent or invalid"))
  | some ra =>
    match crossCheckAxis ra t with
    | Except.error e => row ExperimentStatus.aborted none
        (some s!"results-analysis axis-check failed: {alternate e}")
    | Except.ok () =>
      match crossCheckPerInvocation ra baselineIds candidateIds with
      | Except.error e => row ExperimentStatus.aborted none
          (some s!"results-analysis cross-check failed: {alternate e}")
      | Except.ok () => row (mapVerdictToStatus ra).fst
          ra.headlineImprovementPct (mapVerdictToStatus ra).snd

/-- The row of a target whose candidate was benchmarked. The calibration that
gave the baseline has to have run. -/
def evaluateBenchmarked (t : MergedTarget) (files : SessionFiles)
    (verdicts : VerdictMap) (expectedOrder : List String)
    (candidateIds : InvocationRunIds) : Fallible Experiment := do
  let rawBaseline ← loadInvocationRunIds s!"verify/{t.id}/baseline-run-ids.json"
    (files.baselineRunIds t.id)
  let rawBaselineIds ← ofOption rawBaseline
    (s!"verify/{t.id}/baseline-run-ids.json missing for bench_eligible target "
      ++ s!"`{t.id}`; Phase 1.8 calibration MUST run before finalize (Pass 1c "
      ++ "invariant)")
  let baselineIds ← (reorderToMatch rawBaselineIds expectedOrder
    "baseline").context s!"for target `{t.id}`"
  return judge t candidateIds baselineIds verdicts[t.id]?

/-- The row of a target whose candidate run ids were looked for. -/
def evaluateCandidate (t : MergedTarget) (files : SessionFiles)
    (verdicts : VerdictMap) (expectedOrder : List String) :
    Option InvocationRunIds → Fallible Experiment
  | none => Except.ok (experiment t ExperimentStatus.aborted none none
      (some ("no candidate-run-ids.json — Phase 3 (`session bench run`) did not "
        ++ "complete for this target")))
  | some rawCandidateIds =>
    match reorderToMatch rawCandidateIds expectedOrder "candidate" with
    | Except.error e => Except.ok (experiment t ExperimentStatus.aborted
        (some rawCandidateIds.runIds) none
        (some s!"for target `{t.id}`: {alternate e}"))
    | Except.ok candidateIds =>
      evaluateBenchmarked t files verdicts expectedOrder candidateIds

/-- The row of a normal pull request with an implementation. -/
def evaluateNormalPr (t : MergedTarget) (files : SessionFiles)
    (verdicts : VerdictMap) : Fallible Experiment := do
  let expectedOrder ← expectedInvocationOrder t
  let raw ← loadInvocationRunIds s!"optimize/{t.id}/candidate-run-ids.json"
    (files.candidateRunIds t.id)
  evaluateCandidate t files verdicts expectedOrder raw

/-- The row of an issue: whether the coordinator left its marker. -/
def evaluateConsensusIssue (t : MergedTarget) (files : SessionFiles) :
    Experiment :=
  if 0 < (files.consensusIssue t.id).getD 0 then
    experiment t ExperimentStatus.routedToIssue none none none
  else
    experiment t ExperimentStatus.aborted none none
      (some ("consensus-issue.md marker missing — Phase 2 (`session optimize "
        ++ "run`) did not complete"))

/-- The row of a target whose report was looked for. -/
def evaluateReport (t : MergedTarget) (files : SessionFiles)
    (verdicts : VerdictMap) : Option OptimizerReport → Fallible Experiment
  | none => Except.ok (experiment t ExperimentStatus.aborted none none
      (some ("no optimizer-report.json emitted — Phase 2 agent crashed or never "
        ++ "ran")))
  | some (OptimizerReport.aborted r) =>
    Except.ok (experiment t ExperimentStatus.aborted none none (some r.reason))
  | some (OptimizerReport.implemented _) =>
    if t.deliveryMode = DeliveryMode.consensusPocPr then
      Except.ok (experiment t ExperimentStatus.pocLanded none none none)
    else evaluateNormalPr t files verdicts

/-- Evaluate one merged target into a row. -/
def evaluateTarget (t : MergedTarget) (files : SessionFiles)
    (verdicts : VerdictMap) : Fallible Experiment :=
  if t.deliveryMode = DeliveryMode.consensusIssue then
    Except.ok (evaluateConsensusIssue t files)
  else do
    let report ← (files.readOptimizerReportForTarget t.id
      t.deliveryMode).context s!"reading optimizer-report.json for {t.id}"
    evaluateReport t files verdicts report

/-! ## The summary -/

/-- The row of a target, with the shas of its commit where there is one. -/
def experimentRow (files : SessionFiles) (verdicts : VerdictMap)
    (t : MergedTarget) : Fallible Experiment := do
  let exp ← evaluateTarget t files verdicts
  let p ← (files.loadCoordinatorProvenance t).context
    s!"loading coordinator provenance for {t.id}"
  return match p with
    | some p => { exp with baseSha := some p.baseSha, headSha := some p.headSha }
    | none => exp

/-- Count one row. A row that its own validator refuses is not counted. -/
def OutcomeCounts.count (c : OutcomeCounts) (e : Experiment) : OutcomeCounts :=
  match e.deliveryMode, e.status with
  | DeliveryMode.normalPr, ExperimentStatus.accepted =>
    { c with normalPr := { c.normalPr with accepted := c.normalPr.accepted + 1 } }
  | DeliveryMode.normalPr, ExperimentStatus.rejected =>
    { c with normalPr := { c.normalPr with rejected := c.normalPr.rejected + 1 } }
  | DeliveryMode.normalPr, ExperimentStatus.aborted =>
    { c with normalPr := { c.normalPr with aborted := c.normalPr.aborted + 1 } }
  | DeliveryMode.consensusPocPr, ExperimentStatus.pocLanded =>
    { c with consensusPocPr :=
        { c.consensusPocPr with pocLanded := c.consensusPocPr.pocLanded + 1 } }
  | DeliveryMode.consensusPocPr, ExperimentStatus.aborted =>
    { c with consensusPocPr :=
        { c.consensusPocPr with aborted := c.consensusPocPr.aborted + 1 } }
  | DeliveryMode.consensusIssue, ExperimentStatus.routedToIssue =>
    { c with consensusIssue :=
        { c.consensusIssue with
          routedToIssue := c.consensusIssue.routedToIssue + 1 } }
  | DeliveryMode.consensusIssue, ExperimentStatus.aborted =>
    { c with consensusIssue :=
        { c.consensusIssue with aborted := c.consensusIssue.aborted + 1 } }
  | _, _ => c

/-- Aggregate the rows by delivery mode and status. -/
def aggregateCounts (experiments : List Experiment) : OutcomeCounts :=
  experiments.foldl OutcomeCounts.count ⟨⟨0, 0, 0⟩, ⟨0, 0⟩, ⟨0, 0⟩⟩

/-- What the operator might do next. -/
def computeHint (experiments : List Experiment) : String :=
  let count := fun st => experiments.countP fun e => e.status = st
  let nTotal := experiments.length
  let nAccepted := count ExperimentStatus.accepted
  let nPoc := count ExperimentStatus.pocLanded
  let nIssue := count ExperimentStatus.routedToIssue
  let nAborted := count ExperimentStatus.aborted
  let nRegressions := experiments.countP fun e =>
    e.status = ExperimentStatus.rejected
      && (e.reason.map fun r => Text.startsWith r "regression").getD false
  if nTotal = 0 then
    "zero targets reached benchmarking; check analysis/*/analysis.json"
  else if nAccepted = 0 ∧ nPoc = 0 ∧ nIssue = 0 then
    if nAborted = nTotal then
      "all experiments aborted before benchmarking; review optimize/*/abort.md "
        ++ "and optimize/*/stderr.log"
    else if 0 < nRegressions then
      s!"rejected: {nRegressions} regression(s); rest within noise. Try "
        ++ "smaller-scope changes or tighter targets."
    else
      "all rejected within noise floor; try wider profiler view "
        ++ "(--profiler-hot 100+) or different block range"
  else
    s!"{nAccepted} PR(s) + {nPoc} PoC PR(s) + {nIssue} issue(s) of {nTotal} "
      ++ "target(s); review and re-run rejected/aborted with refined analyses"

/-- The record of the session's source, if there is one. -/
def loadSource (f : FileRead SourceJson) : Fallible (Option SourceJson) :=
  (f.readOptional SourceJson.validateModel "reading source.json"
    "parsing/validating source.json"
    "parsing/validating source.json").context "loading source.json"

/-- Compute a summary from the targets, the verdicts and the files. -/
def computeSummary (targets : OptimizationTargets) (files : SessionFiles)
    (verdicts : VerdictMap) : Fallible Summary := do
  let experiments ← targets.targets.mapM (experimentRow files verdicts)
  let source ← loadSource files.source
  return {
    sessionId := targets.sessionId
    baselineRunId := targets.baselineRunId
    baselineRerunId := targets.baselineRerunId
    noiseFloorPct := targets.noiseFloorPct
    experiments := experiments
    outcomeCounts := aggregateCounts experiments
    lensDispositions := targets.lensDispositions
    nextTargetsHint := some (computeHint experiments)
    sourceUrl := source.map fun s => s.url
    sourceBranch := source.map fun s => s.branch
    sourceSha := source.map fun s => s.sha
    sourceFetchedAt := source.map fun s => s.fetchedAt }

/-- Finalize a session: its targets, its verdicts, its summary. -/
def finalize (targetsFile : FileRead OptimizationTargets) (files : SessionFiles) :
    Fallible Summary := do
  let targets ← readOptimizationTargets targetsFile
  let verdicts ← loadVerdicts files targets
  computeSummary targets files verdicts

/-! ## What finalizing accepts -/

/-- A run-id file is about exactly the given invocations. -/
def InvocationRunIds.Covers (ids : InvocationRunIds) (expected : List String) :
    Prop :=
  ∀ id, id ∈ ids.entries.map (fun e => e.invocationId) ↔ id ∈ expected

/-- There is an implementation of a target, and it is this target's. -/
def HasImplementation (files : SessionFiles) (t : MergedTarget) : Prop :=
  ∃ r, files.optimizerReport t.id
      = FileRead.parsed (OptimizerReport.implemented r)
    ∧ r.targetId = t.id ∧ r.sessionId = files.id
    ∧ r.deliveryMode = t.deliveryMode

/-- The files of a normal pull request that settle it in its favour: an
implementation, a measurement of the candidate and of the baseline for each
of its invocations, and a verdict on exactly these measurements. -/
structure AcceptanceEvidence (files : SessionFiles) (t : MergedTarget)
    (vr : VerificationReplay) (candidate baseline : InvocationRunIds)
    (ra : ResultsAnalysis) : Prop where
  /-- How the target is to be measured. -/
  replay : t.verificationReplay = some vr
  /-- There is something to measure. -/
  report : HasImplementation files t
  /-- The candidate was measured. -/
  candidateFile : files.candidateRunIds t.id = FileRead.parsed candidate
  /-- It was measured on the target's invocations. -/
  candidateIds : candidate.Covers (vr.invocations.map fun inv => inv.id)
  /-- The baseline was measured. -/
  baselineFile : files.baselineRunIds t.id = FileRead.parsed baseline
  /-- It was measured on the target's invocations. -/
  baselineIds : baseline.Covers (vr.invocations.map fun inv => inv.id)
  /-- There is a verdict. -/
  verdictFile : files.resultsAnalysis t.id = FileRead.parsed ra
  /-- It is valid and about this target. -/
  context : ra.Valid ∧ ra.sessionId = files.id ∧ ra.targetId = t.id
  /-- It is in favour. -/
  verdict : ra.verdict = Verdict.accepted ∨ ra.verdict = Verdict.mixed
  /-- It is on the axis that all invocations expect their signal on. -/
  axis : ∀ inv ∈ vr.invocations, inv.expectedSignal.axis = ra.axis
  /-- Its results are those of the invocations, in their order, and quote the
  run ids of the two files. -/
  rows : List.Forall₂ (fun inv p => p.invocationId = inv.id
      ∧ p.candidateEntry ∈ candidate.entries
      ∧ p.baselineEntry ∈ baseline.entries) vr.invocations ra.perInvocation

/-- A list of run ids is aligned with a replay by a run-id file: each
invocation stands next to the run that the file has for it. -/
def AlignedBy (ids : InvocationRunIds) (vr : VerificationReplay)
    (runs : List ℤ) : Prop :=
  List.Forall₂ (fun inv run => (⟨inv.id, run⟩ : InvocationRunId) ∈ ids.entries)
    vr.invocations runs

/-! ## The verdicts that are loaded -/

section Verdicts

variable {files : SessionFiles}

/-- What a map of verdicts holds after the targets with the given ids. -/
def VerdictsOf (files : SessionFiles) (ids : List String) (m : VerdictMap) :
    Prop :=
  ∀ id ra, m[id]? = some ra
    ↔ id ∈ ids ∧ files.readResultsAnalysisForTarget id = Except.ok (some ra)

theorem verdictsOf_step {ids : List String} {m m' : VerdictMap}
    {t : MergedTarget} (hm : VerdictsOf files ids m)
    (h : loadVerdict files m t = Except.ok m') :
    VerdictsOf files (t.id :: ids) m' := by
  obtain ⟨o, hread, hm'⟩ : ∃ o,
      files.readResultsAnalysisForTarget t.id = Except.ok o
        ∧ (match o with
            | some ra => m.insert t.id ra
            | none => m) = m' := by
    simpa only [loadVerdict, bind_ok_iff, pure_ok_iff] using h
  intro id ra
  rw [List.mem_cons, or_and_right]
  cases o with
  | none =>
    have hmm : m = m' := hm'
    have hne : ¬ (id = t.id
        ∧ files.readResultsAnalysisForTarget id = Except.ok (some ra)) := by
      rintro ⟨rfl, hra⟩
      rw [hread] at hra
      simp at hra
    rw [← hmm, hm id ra]
    simp only [hne, false_or]
  | some ra' =>
    have hins : m.insert t.id ra' = m' := hm'
    rw [← hins, ExtTreeMap.getElem?_insert]
    by_cases hid : t.id = id
    · subst hid
      rw [if_pos (Std.ReflCmp.compare_self), hread]
      simp only [Option.some.injEq, Except.ok.injEq, true_and]
      exact ⟨Or.inl, fun h => h.elim id fun h => h.right⟩
    · have hcmp : compare t.id id ≠ Ordering.eq := fun hc =>
        hid (Std.LawfulEqCmp.eq_of_compare hc)
      rw [if_neg hcmp, hm id ra]
      simp [Ne.symm hid]

theorem verdictsOf_run {ids : List String} {m m' : VerdictMap}
    {ts : List MergedTarget} (hm : VerdictsOf files ids m)
    (h : ts.foldlM (loadVerdict files) m = Except.ok m') :
    VerdictsOf files ((ts.map fun t => t.id).reverse ++ ids) m' := by
  induction ts generalizing ids m with
  | nil =>
    obtain rfl : m = m' := by
      simpa only [List.foldlM_nil, pure_ok_iff] using h
    simpa using hm
  | cons t ts ih =>
    obtain ⟨m₁, h₁, h₂⟩ : ∃ m₁, loadVerdict files m t = Except.ok m₁
        ∧ ts.foldlM (loadVerdict files) m₁ = Except.ok m' := by
      simpa only [List.foldlM_cons, bind_ok_iff] using h
    simpa using ih (verdictsOf_step hm h₁) h₂

/-- **A target's entry in the map of verdicts is what its file says.** -/
theorem getElem?_loadVerdicts {targets : OptimizationTargets}
    {verdicts : VerdictMap}
    (h : loadVerdicts files targets = Except.ok verdicts) {t : MergedTarget}
    (ht : t ∈ targets.targets) {ra : ResultsAnalysis} :
    verdicts[t.id]? = some ra
      ↔ files.readResultsAnalysisForTarget t.id = Except.ok (some ra) := by
  have hempty : VerdictsOf files [] (∅ : VerdictMap) := by
    intro id ra
    simp
  rw [verdictsOf_run hempty h t.id ra]
  simp only [List.append_nil, List.mem_reverse, and_iff_right_iff_imp]
  exact fun _ => List.mem_map_of_mem ht

end Verdicts

/-! ## The order of the invocations -/

section Invocations

variable {actual ids : InvocationRunIds} {expected : List String}
  {side : String}

/-- In a file that names no invocation twice, looking an id up is finding the
row that has it. -/
theorem find?_entries_eq_some_iff
    (hnd : (actual.entries.map fun e => e.invocationId).Nodup) {id : String}
    {e : InvocationRunId} :
    (actual.entries.find? fun e => e.invocationId = id) = some e
      ↔ e ∈ actual.entries ∧ e.invocationId = id := by
  constructor
  · intro h
    exact ⟨List.mem_of_find?_eq_some h, by simpa using List.find?_some h⟩
  · rintro ⟨he, rfl⟩
    obtain ⟨e', hfind⟩ : ∃ e', (actual.entries.find?
        fun e' => e'.invocationId = e.invocationId) = some e' := by
      refine Option.isSome_iff_exists.mp (List.find?_isSome.mpr ⟨e, he, ?_⟩)
      simp
    have hid : e'.invocationId = e.invocationId := by
      simpa using List.find?_some hfind
    rw [hfind, List.inj_on_of_nodup_map hnd (List.mem_of_find?_eq_some hfind) he
      hid]

/-- **A run-id file can be put into the expected order exactly when it is
about the expected invocations**, and then the result has them in that order,
each with its row of the file. -/
theorem reorderToMatch_ok_iff
    (hnd : (actual.entries.map fun e => e.invocationId).Nodup) :
    reorderToMatch actual expected side = Except.ok ids
      ↔ actual.Covers expected ∧ List.Forall₂ (fun id e =>
          e ∈ actual.entries ∧ e.invocationId = id) expected ids.entries := by
  have hset : (¬ expected.toFinset
        ≠ (actual.entries.map fun e => e.invocationId).toFinset)
      ↔ actual.Covers expected := by
    rw [not_not, Finset.ext_iff, InvocationRunIds.Covers]
    refine forall_congr' fun id => ?_
    rw [List.mem_toFinset, List.mem_toFinset]
    exact iff_comm
  unfold reorderToMatch
  rw [seq_ok_iff, bailIf_ok_iff, hset]
  refine and_congr_right fun _ => ?_
  simp only [bind_ok_iff, pure_ok_iff, mapM_ok_iff, ofOption_ok_iff,
    find?_entries_eq_some_iff hnd]
  constructor
  · rintro ⟨entries, h, rfl⟩
    exact h
  · intro h
    exact ⟨ids.entries, h, rfl⟩

/-- The lookup that the code expects to succeed does. -/
theorem exists_reorderToMatch (side : String)
    (hnd : (actual.entries.map fun e => e.invocationId).Nodup)
    (h : actual.Covers expected) :
    ∃ ids, reorderToMatch actual expected side = Except.ok ids := by
  have hex : ∀ id ∈ expected, ∃ e ∈ actual.entries, e.invocationId = id :=
    fun id hid => List.mem_map.mp ((h id).mpr hid)
  have : Nonempty InvocationRunId := ⟨⟨"", 0⟩⟩
  choose! row hrow using hex
  refine ⟨⟨expected.map row⟩, (reorderToMatch_ok_iff hnd).mpr ⟨h, ?_⟩⟩
  rw [List.forall₂_map_right_iff, List.forall₂_same]
  exact hrow

end Invocations

/-! ## The checks on a verdict -/

section Checks

variable {ra : ResultsAnalysis} {t : MergedTarget} {vr : VerificationReplay}

/-- Where all invocations expect their signal on one axis, comparing with the
first is comparing with each. -/
theorem crossCheckAxis_ok_iff (hvr : t.verificationReplay = some vr)
    (hvalid : vr.Valid) {u : Unit} : crossCheckAxis ra t = Except.ok u
      ↔ ∀ inv ∈ vr.invocations, inv.expectedSignal.axis = ra.axis := by
  obtain ⟨first, rest, hinvs⟩ := List.exists_cons_of_ne_nil hvalid.nonempty
  have hfirst : first ∈ vr.invocations := by
    rw [hinvs]
    exact List.mem_cons_self
  have hhead : vr.invocations.head? = some first := by
    rw [hinvs]
    rfl
  unfold crossCheckAxis
  simp only [hvr, bind_ok_iff, ofOption_ok_iff, bailIf_ok_iff, not_not,
    Option.some.injEq, exists_eq_left', hhead]
  constructor
  · intro haxis inv hinv
    rw [haxis, hvalid.axis inv hinv first hfirst]
  · intro h
    exact (h first hfirst).symm

theorem crossCheckRow_ok_iff {i : ℕ}
    {r : PerInvocationResult × InvocationRunId × InvocationRunId} {u : Unit} :
    crossCheckRow i r = Except.ok u
      ↔ r.fst.baselineEntry = r.snd.fst ∧ r.fst.candidateEntry = r.snd.snd := by
  obtain ⟨row, ⟨bid, brun⟩, ⟨cid, crun⟩⟩ := r
  simp only [crossCheckRow, seq_ok_iff, bailIf_ok_iff, not_not,
    PerInvocationResult.baselineEntry, PerInvocationResult.candidateEntry,
    InvocationRunId.mk.injEq]
  tauto

/-- Going over three lists of one length in step compares the first with the
other two. -/
theorem forall_mem_zip_zip_iff {α β γ : Type} {f : α → β} {g : α → γ}
    {l : List α} {m : List β} {n : List γ} (hm : l.length = m.length)
    (hn : l.length = n.length) :
    (∀ r ∈ l.zip (m.zip n), f r.fst = r.snd.fst ∧ g r.fst = r.snd.snd)
      ↔ l.map f = m ∧ l.map g = n := by
  induction l generalizing m n with
  | nil =>
    obtain rfl := List.length_eq_zero_iff.mp hm.symm
    obtain rfl := List.length_eq_zero_iff.mp hn.symm
    simp
  | cons a l ih =>
    obtain ⟨b, m, rfl⟩ := List.exists_cons_of_length_eq_add_one hm.symm
    obtain ⟨c, n, rfl⟩ := List.exists_cons_of_length_eq_add_one hn.symm
    simp only [List.zip_cons_cons, List.forall_mem_cons, List.map_cons,
      List.cons.injEq, ih (Nat.succ.inj hm) (Nat.succ.inj hn)]
    exact and_and_and_comm

/-- **The verdict's results pass when they quote the two files row by row.** -/
theorem crossCheckPerInvocation_ok_iff {baseline candidate : InvocationRunIds}
    {u : Unit} : crossCheckPerInvocation ra baseline candidate = Except.ok u
      ↔ ra.perInvocation.map PerInvocationResult.baselineEntry = baseline.entries
        ∧ ra.perInvocation.map PerInvocationResult.candidateEntry
          = candidate.entries := by
  have hrows : forEach crossCheckRow
        (ra.perInvocation.zip (baseline.entries.zip candidate.entries))
          = Except.ok u
      ↔ ∀ r ∈ ra.perInvocation.zip (baseline.entries.zip candidate.entries),
        r.fst.baselineEntry = r.snd.fst ∧ r.fst.candidateEntry = r.snd.snd :=
    forEach_ok_iff_forall fun _ _ => crossCheckRow_ok_iff
  unfold crossCheckPerInvocation
  simp only [seq_ok_iff, bailIf_ok_iff, not_not, hrows]
  constructor
  · rintro ⟨hb, hc, h⟩
    exact (forall_mem_zip_zip_iff hb hc).mp h
  · intro h
    have hb : ra.perInvocation.length = baseline.entries.length := by
      rw [← h.left, List.length_map]
    have hc : ra.perInvocation.length = candidate.entries.length := by
      rw [← h.right, List.length_map]
    exact ⟨hb, hc, (forall_mem_zip_zip_iff hb hc).mpr h⟩

end Checks

/-! ## One row -/

section Row

variable {files : SessionFiles} {verdicts : VerdictMap} {t : MergedTarget}
  {e : Experiment}

/-- A row is about a target when it has the target's id and mode and a status
that the mode allows. -/
structure Experiment.IsAbout (e : Experiment) (t : MergedTarget) : Prop where
  id : e.targetId = t.id
  mode : e.deliveryMode = t.deliveryMode
  status : t.deliveryMode.allows e.status = true

theorem DeliveryMode.allows_aborted (m : DeliveryMode) :
    m.allows ExperimentStatus.aborted = true := by
  cases m <;> rfl

theorem isAbout_experiment {st : ExperimentStatus} {runs : Option (List ℤ)}
    {pct : Option F64} {reason : Option String}
    (h : t.deliveryMode.allows st = true) :
    (experiment t st runs pct reason).IsAbout t :=
  ⟨rfl, rfl, h⟩

theorem mapVerdictToStatus_accepted_iff {ra : ResultsAnalysis} :
    (mapVerdictToStatus ra).fst = ExperimentStatus.accepted
      ↔ ra.verdict = Verdict.accepted ∨ ra.verdict = Verdict.mixed := by
  unfold mapVerdictToStatus
  cases ra.verdict <;> simp

variable {candidateIds baselineIds : InvocationRunIds}
  {verdict : Option ResultsAnalysis}

/-- What the judgement of two measurements is, by cases on the verdict. -/
theorem judge_cases (t : MergedTarget) (candidateIds baselineIds : InvocationRunIds)
    (verdict : Option ResultsAnalysis) :
    (∃ reason, judge t candidateIds baselineIds verdict
        = experimentWithBaseline t ExperimentStatus.aborted
          (some candidateIds.runIds) (some baselineIds.runIds) none reason)
      ∨ ∃ ra, verdict = some ra ∧ crossCheckAxis ra t = Except.ok ()
        ∧ crossCheckPerInvocation ra baselineIds candidateIds = Except.ok ()
        ∧ judge t candidateIds baselineIds verdict
          = experimentWithBaseline t (mapVerdictToStatus ra).fst
            (some candidateIds.runIds) (some baselineIds.runIds)
            ra.headlineImprovementPct (mapVerdictToStatus ra).snd := by
  cases verdict with
  | none => exact Or.inl ⟨_, rfl⟩
  | some ra =>
    cases hax : crossCheckAxis ra t with
    | error e => exact Or.inl ⟨_, by simp only [judge, hax]; rfl⟩
    | ok _ =>
      cases hpi : crossCheckPerInvocation ra baselineIds candidateIds with
      | error e => exact Or.inl ⟨_, by simp only [judge, hax, hpi]; rfl⟩
      | ok _ => exact Or.inr ⟨ra, rfl, hax, hpi, by simp only [judge, hax, hpi]⟩

theorem judge_runIds : (judge t candidateIds baselineIds verdict).runIds
      = some candidateIds.runIds
    ∧ (judge t candidateIds baselineIds verdict).baselineRunIds
      = some baselineIds.runIds := by
  obtain ⟨reason, h⟩ | ⟨ra, -, -, -, h⟩ :=
    judge_cases t candidateIds baselineIds verdict
  · rw [h]
    exact ⟨rfl, rfl⟩
  · rw [h]
    exact ⟨rfl, rfl⟩

theorem isAbout_judge (hm : t.deliveryMode = DeliveryMode.normalPr) :
    (judge t candidateIds baselineIds verdict).IsAbout t := by
  obtain ⟨reason, h⟩ | ⟨ra, -, -, -, h⟩ :=
    judge_cases t candidateIds baselineIds verdict
  · rw [h]
    exact ⟨rfl, rfl, DeliveryMode.allows_aborted _⟩
  · rw [h]
    refine ⟨rfl, rfl, ?_⟩
    show t.deliveryMode.allows (mapVerdictToStatus ra).fst = true
    rw [hm]
    unfold mapVerdictToStatus
    cases ra.verdict <;> rfl

/-- **Two measurements are accepted when a verdict in favour passes both
checks.** -/
theorem judge_accepted_iff :
    (judge t candidateIds baselineIds verdict).status = ExperimentStatus.accepted
      ↔ ∃ ra, verdict = some ra ∧ crossCheckAxis ra t = Except.ok ()
        ∧ crossCheckPerInvocation ra baselineIds candidateIds = Except.ok ()
        ∧ (ra.verdict = Verdict.accepted ∨ ra.verdict = Verdict.mixed) := by
  constructor
  · intro h
    obtain ⟨reason, hj⟩ | ⟨ra, hv, hax, hpi, hj⟩ :=
      judge_cases t candidateIds baselineIds verdict
    · rw [hj] at h
      cases h
    · rw [hj] at h
      exact ⟨ra, hv, hax, hpi, mapVerdictToStatus_accepted_iff.mp h⟩
  · rintro ⟨ra, rfl, hax, hpi, hv⟩
    simp only [judge, hax, hpi]
    exact mapVerdictToStatus_accepted_iff.mpr hv

/-- The two measurements of a target, read and put into the order of its
replay. -/
structure Measured (files : SessionFiles) (t : MergedTarget)
    (vr : VerificationReplay) (rawCandidate rawBaseline candidateIds
      baselineIds : InvocationRunIds) : Prop where
  candidateFile : files.candidateRunIds t.id = FileRead.parsed rawCandidate
  candidateNodup : (rawCandidate.entries.map fun e => e.invocationId).Nodup
  candidate : reorderToMatch rawCandidate (vr.invocations.map fun inv => inv.id)
    "candidate" = Except.ok candidateIds
  baselineFile : files.baselineRunIds t.id = FileRead.parsed rawBaseline
  baselineNodup : (rawBaseline.entries.map fun e => e.invocationId).Nodup
  baseline : reorderToMatch rawBaseline (vr.invocations.map fun inv => inv.id)
    "baseline" = Except.ok baselineIds

/-- There is a measurement of the candidate on the invocations of the
replay. -/
def CandidateMeasured (files : SessionFiles) (t : MergedTarget)
    (vr : VerificationReplay) : Prop :=
  ∃ ids, files.candidateRunIds t.id = FileRead.parsed ids
    ∧ ids.Covers (vr.invocations.map fun inv => inv.id)

/-- The row of a target whose candidate run ids were looked for: it is
aborted when they are not those of the replay, and is settled by the judgement
of the two measurements otherwise. -/
theorem evaluateCandidate_cases {vr : VerificationReplay}
    {raw : Option InvocationRunIds}
    (hraw : loadInvocationRunIds s!"optimize/{t.id}/candidate-run-ids.json"
      (files.candidateRunIds t.id) = Except.ok raw)
    (h : evaluateCandidate t files verdicts
      (vr.invocations.map fun inv => inv.id) raw = Except.ok e) :
    (¬ CandidateMeasured files t vr ∧ ∃ runs reason,
        e = experiment t ExperimentStatus.aborted runs none reason)
      ∨ ∃ rawC rawB candidateIds baselineIds,
        Measured files t vr rawC rawB candidateIds baselineIds
          ∧ e = judge t candidateIds baselineIds verdicts[t.id]? := by
  cases raw with
  | none =>
    refine Or.inl ⟨?_, _, _, (Except.ok.inj h).symm⟩
    rintro ⟨ids, hids, -⟩
    rw [FileRead.readOptional_ok_none_iff.mp hraw] at hids
    cases hids
  | some rawC =>
    obtain ⟨hfile, hnd, -⟩ := loadInvocationRunIds_ok_some_iff.mp hraw
    cases hre : reorderToMatch rawC (vr.invocations.map fun inv => inv.id)
        "candidate" with
    | error msgs =>
      refine Or.inl ⟨?_, some rawC.runIds,
        some s!"for target `{t.id}`: {alternate msgs}", ?_⟩
      · rintro ⟨ids, hids, hcov⟩
        obtain rfl : rawC = ids := FileRead.parsed.inj (hfile.symm.trans hids)
        obtain ⟨ids, hok⟩ := exists_reorderToMatch "candidate" hnd hcov
        rw [hre] at hok
        cases hok
      · simp only [evaluateCandidate, hre] at h
        exact (Except.ok.inj h).symm
    | ok candidateIds =>
      simp only [evaluateCandidate, hre, evaluateBenchmarked, bind_ok_iff,
        ofOption_ok_iff, context_ok_iff, pure_ok_iff] at h
      obtain ⟨_, hload, rawB, rfl, baselineIds, hreB, rfl⟩ := h
      obtain ⟨hfileB, hndB, -⟩ := loadInvocationRunIds_ok_some_iff.mp hload
      exact Or.inr ⟨rawC, rawB, candidateIds, baselineIds,
        ⟨hfile, hnd, hre, hfileB, hndB, hreB⟩, rfl⟩

/-- **The row of a normal pull request, by cases**: it is aborted when there
is no implementation or the candidate was not measured on the replay's
invocations, and is settled by the judgement of the two measurements
otherwise. -/
theorem evaluateTarget_cases {vr : VerificationReplay}
    (hm : t.deliveryMode = DeliveryMode.normalPr)
    (hvr : t.verificationReplay = some vr)
    (h : evaluateTarget t files verdicts = Except.ok e) :
    (¬ (HasImplementation files t ∧ CandidateMeasured files t vr)
        ∧ ∃ runs reason, e = experiment t ExperimentStatus.aborted runs none reason)
      ∨ (HasImplementation files t ∧ ∃ rawC rawB candidateIds baselineIds,
        Measured files t vr rawC rawB candidateIds baselineIds
          ∧ e = judge t candidateIds baselineIds verdicts[t.id]?) := by
  have hne : ¬ t.deliveryMode = DeliveryMode.consensusIssue := by simp [hm]
  simp only [evaluateTarget, if_neg hne, bind_ok_iff, context_ok_iff] at h
  obtain ⟨report, hread, h⟩ := h
  cases report with
  | none =>
    refine Or.inl ⟨?_, _, _, (Except.ok.inj h).symm⟩
    rintro ⟨⟨r, hr, -⟩, -⟩
    rw [SessionFiles.readOptimizerReportForTarget_ok_none_iff.mp hread] at hr
    cases hr
  | some report =>
    obtain ⟨hfile, -, hctx⟩ :=
      SessionFiles.readOptimizerReportForTarget_ok_some_iff.mp hread
    cases report with
    | aborted r =>
      refine Or.inl ⟨?_, _, _, (Except.ok.inj h).symm⟩
      rintro ⟨⟨r', hr', -⟩, -⟩
      cases FileRead.parsed.inj (hfile.symm.trans hr')
    | implemented r =>
      have himpl : HasImplementation files t := ⟨r, hfile, hctx⟩
      have hpoc : ¬ t.deliveryMode = DeliveryMode.consensusPocPr := by simp [hm]
      simp only [evaluateReport, if_neg hpoc, evaluateNormalPr,
        expectedInvocationOrder, hvr, bind_ok_iff, ofOption_ok_iff, pure_ok_iff,
        Option.some.injEq, exists_eq_left'] at h
      obtain ⟨raw, hraw, h⟩ := h
      obtain ⟨hnot, habort⟩ | hjudge := evaluateCandidate_cases hraw h
      · exact Or.inl ⟨fun hc => hnot hc.right, habort⟩
      · exact Or.inr ⟨himpl, hjudge⟩

/-- The row of a target is about the target. -/
theorem isAbout_evaluateTarget (hvalid : t.Valid)
    (h : evaluateTarget t files verdicts = Except.ok e) : e.IsAbout t := by
  cases hm : t.deliveryMode with
  | normalPr =>
    obtain ⟨vr, hvr, -⟩ := hvalid.exists_replay hm
    obtain ⟨-, _, _, rfl⟩ | ⟨-, _, _, _, _, -, rfl⟩ :=
      evaluateTarget_cases hm hvr h
    · exact isAbout_experiment (DeliveryMode.allows_aborted _)
    · exact isAbout_judge hm
  | consensusPocPr =>
    have hne : ¬ t.deliveryMode = DeliveryMode.consensusIssue := by simp [hm]
    simp only [evaluateTarget, if_neg hne, bind_ok_iff, context_ok_iff] at h
    obtain ⟨report, -, h⟩ := h
    cases report with
    | none =>
      rw [← Except.ok.inj h]
      exact isAbout_experiment (DeliveryMode.allows_aborted _)
    | some report =>
      cases report with
      | aborted r =>
        rw [← Except.ok.inj h]
        exact isAbout_experiment (DeliveryMode.allows_aborted _)
      | implemented r =>
        simp only [evaluateReport, if_pos hm] at h
        rw [← Except.ok.inj h]
        exact isAbout_experiment (by rw [hm]; rfl)
  | consensusIssue =>
    simp only [evaluateTarget, if_pos hm] at h
    rw [← Except.ok.inj h]
    unfold evaluateConsensusIssue
    split
    case isTrue => exact isAbout_experiment (by rw [hm]; rfl)
    case isFalse => exact isAbout_experiment (DeliveryMode.allows_aborted _)

/-- Reading the results of a verdict as rows of a file that was put into the
order of a replay is reading them invocation by invocation. -/
theorem map_entry_eq_iff {vr : VerificationReplay}
    {raw ids : InvocationRunIds} {side : String}
    {entry : PerInvocationResult → InvocationRunId}
    (hnd : (raw.entries.map fun e => e.invocationId).Nodup)
    (hre : reorderToMatch raw (vr.invocations.map fun inv => inv.id) side
      = Except.ok ids) {rows : List PerInvocationResult} :
    rows.map entry = ids.entries
      ↔ List.Forall₂ (fun inv p => entry p ∈ raw.entries
          ∧ (entry p).invocationId = inv.id) vr.invocations rows := by
  obtain ⟨hcov, hids⟩ := (reorderToMatch_ok_iff hnd).mp hre
  constructor
  · intro h
    rw [← h, List.forall₂_map_left_iff, List.forall₂_map_right_iff] at hids
    exact hids
  · intro h
    have hre' : reorderToMatch raw (vr.invocations.map fun inv => inv.id) side
        = Except.ok ⟨rows.map entry⟩ := by
      refine (reorderToMatch_ok_iff hnd).mpr ⟨hcov, ?_⟩
      rw [List.forall₂_map_left_iff, List.forall₂_map_right_iff]
      exact h
    rw [← Except.ok.inj (hre'.symm.trans hre)]

/-- The run ids of a file that was put into the order of a replay are aligned
with it. -/
theorem alignedBy_of_reorderToMatch {vr : VerificationReplay}
    {raw ids : InvocationRunIds} {side : String}
    (hnd : (raw.entries.map fun e => e.invocationId).Nodup)
    (hre : reorderToMatch raw (vr.invocations.map fun inv => inv.id) side
      = Except.ok ids) : AlignedBy raw vr ids.runIds := by
  obtain ⟨-, hids⟩ := (reorderToMatch_ok_iff hnd).mp hre
  rw [List.forall₂_map_left_iff] at hids
  unfold AlignedBy InvocationRunIds.runIds
  rw [List.forall₂_map_right_iff]
  refine hids.imp fun inv e he => ?_
  rw [← he.right]
  exact he.left

/-- What finalizing promises of a row. -/
structure RowSound (files : SessionFiles) (t : MergedTarget) (e : Experiment) :
    Prop where
  /-- It is about its target, with a status that the target's mode allows. -/
  about : e.IsAbout t
  /-- It is accepted exactly on the evidence of the files. -/
  accepted : t.deliveryMode = DeliveryMode.normalPr →
    (e.status = ExperimentStatus.accepted
      ↔ ∃ vr candidate baseline ra,
        AcceptanceEvidence files t vr candidate baseline ra)
  /-- An accepted row has its run ids in the order of the invocations. -/
  aligned : t.deliveryMode = DeliveryMode.normalPr →
    e.status = ExperimentStatus.accepted → ∀ vr candidate baseline ra,
      AcceptanceEvidence files t vr candidate baseline ra →
        ∃ runs baselineRuns, e.runIds = some runs
          ∧ e.baselineRunIds = some baselineRuns
          ∧ AlignedBy candidate vr runs ∧ AlignedBy baseline vr baselineRuns

/-- What a judgement of two measurements accepts is what the files are
evidence of. -/
theorem judge_accepted_iff_evidence {vr : VerificationReplay}
    {rawC rawB : InvocationRunIds} (hvr : t.verificationReplay = some vr)
    (hvalid : vr.Valid) (himpl : HasImplementation files t)
    (hmeas : Measured files t vr rawC rawB candidateIds baselineIds)
    (hverdict : ∀ ra, verdict = some ra
      ↔ files.readResultsAnalysisForTarget t.id = Except.ok (some ra)) :
    (judge t candidateIds baselineIds verdict).status = ExperimentStatus.accepted
      ↔ ∃ ra, AcceptanceEvidence files t vr rawC rawB ra := by
  have hcovC := ((reorderToMatch_ok_iff hmeas.candidateNodup).mp
    hmeas.candidate).left
  have hcovB := ((reorderToMatch_ok_iff hmeas.baselineNodup).mp
    hmeas.baseline).left
  rw [judge_accepted_iff]
  refine exists_congr fun ra => ?_
  rw [hverdict, SessionFiles.readResultsAnalysisForTarget_ok_some_iff,
    crossCheckAxis_ok_iff hvr hvalid, crossCheckPerInvocation_ok_iff,
    map_entry_eq_iff hmeas.baselineNodup hmeas.baseline,
    map_entry_eq_iff hmeas.candidateNodup hmeas.candidate]
  constructor
  · rintro ⟨⟨hfile, hctx⟩, haxis, ⟨hb, hc⟩, hv⟩
    refine ⟨hvr, himpl, hmeas.candidateFile, hcovC, hmeas.baselineFile, hcovB,
      hfile, hctx, hv, haxis, ?_⟩
    refine List.Forall₂.mp (fun inv p hp hq => ?_) hc hb
    exact ⟨hp.right, hp.left, hq.left⟩
  · intro hev
    refine ⟨⟨hev.verdictFile, hev.context⟩, hev.axis, ⟨?_, ?_⟩, hev.verdict⟩
    · exact hev.rows.imp fun inv p hp => ⟨hp.right.right, hp.left⟩
    · exact hev.rows.imp fun inv p hp => ⟨hp.right.left, hp.left⟩

theorem rowSound_evaluateTarget (hvalid : t.Valid)
    (hverdict : ∀ ra, verdicts[t.id]? = some ra
      ↔ files.readResultsAnalysisForTarget t.id = Except.ok (some ra))
    (h : evaluateTarget t files verdicts = Except.ok e) : RowSound files t e := by
  refine ⟨isAbout_evaluateTarget hvalid h, fun hm => ?_, fun hm hacc => ?_⟩
  · obtain ⟨vr, hvr, hvrv⟩ := hvalid.exists_replay hm
    obtain ⟨hnot, _, _, rfl⟩ | ⟨himpl, rawC, rawB, cand, base, hmeas, rfl⟩ :=
      evaluateTarget_cases hm hvr h
    · refine iff_of_false (fun h => by cases h) ?_
      rintro ⟨vr', candidate, baseline, ra, hev⟩
      obtain rfl : vr = vr' := Option.some.inj (hvr.symm.trans hev.replay)
      exact hnot ⟨hev.report, candidate, hev.candidateFile, hev.candidateIds⟩
    · rw [judge_accepted_iff_evidence hvr hvrv himpl hmeas hverdict]
      constructor
      · rintro ⟨ra, hev⟩
        exact ⟨vr, rawC, rawB, ra, hev⟩
      · rintro ⟨vr', candidate, baseline, ra, hev⟩
        obtain rfl : vr = vr' := Option.some.inj (hvr.symm.trans hev.replay)
        obtain rfl : rawC = candidate :=
          FileRead.parsed.inj (hmeas.candidateFile.symm.trans hev.candidateFile)
        obtain rfl : rawB = baseline :=
          FileRead.parsed.inj (hmeas.baselineFile.symm.trans hev.baselineFile)
        exact ⟨ra, hev⟩
  · intro vr candidate baseline ra hev
    obtain ⟨-, _, _, rfl⟩ | ⟨-, rawC, rawB, cand, base, hmeas, rfl⟩ :=
      evaluateTarget_cases hm hev.replay h
    · cases hacc
    · obtain rfl : rawC = candidate :=
        FileRead.parsed.inj (hmeas.candidateFile.symm.trans hev.candidateFile)
      obtain rfl : rawB = baseline :=
        FileRead.parsed.inj (hmeas.baselineFile.symm.trans hev.baselineFile)
      exact ⟨cand.runIds, base.runIds, judge_runIds.left, judge_runIds.right,
        alignedBy_of_reorderToMatch hmeas.candidateNodup hmeas.candidate,
        alignedBy_of_reorderToMatch hmeas.baselineNodup hmeas.baseline⟩

/-- Threading the shas of the commit into a row changes nothing else. -/
theorem rowSound_experimentRow (hvalid : t.Valid)
    (hverdict : ∀ ra, verdicts[t.id]? = some ra
      ↔ files.readResultsAnalysisForTarget t.id = Except.ok (some ra))
    (h : experimentRow files verdicts t = Except.ok e) : RowSound files t e := by
  simp only [experimentRow, bind_ok_iff, pure_ok_iff] at h
  obtain ⟨exp, hexp, p, -, rfl⟩ := h
  have hsound := rowSound_evaluateTarget hvalid hverdict hexp
  cases p with
  | none => exact hsound
  | some p =>
    exact ⟨⟨hsound.about.id, hsound.about.mode, hsound.about.status⟩,
      hsound.accepted, hsound.aligned⟩

end Row

/-! ## The counters -/

section Counts

/-- The counter of a mode and a status; there is none for an illegal pair. -/
def OutcomeCounts.get (c : OutcomeCounts) :
    DeliveryMode → ExperimentStatus → UInt32
  | DeliveryMode.normalPr, ExperimentStatus.accepted => c.normalPr.accepted
  | DeliveryMode.normalPr, ExperimentStatus.rejected => c.normalPr.rejected
  | DeliveryMode.normalPr, ExperimentStatus.aborted => c.normalPr.aborted
  | DeliveryMode.consensusPocPr, ExperimentStatus.pocLanded =>
    c.consensusPocPr.pocLanded
  | DeliveryMode.consensusPocPr, ExperimentStatus.aborted =>
    c.consensusPocPr.aborted
  | DeliveryMode.consensusIssue, ExperimentStatus.routedToIssue =>
    c.consensusIssue.routedToIssue
  | DeliveryMode.consensusIssue, ExperimentStatus.aborted =>
    c.consensusIssue.aborted
  | _, _ => 0

/-- The number of rows with a mode and a status. -/
def rowsWith (m : DeliveryMode) (st : ExperimentStatus) (l : List Experiment) :
    ℕ :=
  l.countP fun e => e.deliveryMode = m ∧ e.status = st

theorem rowsWith_cons {m : DeliveryMode} {st : ExperimentStatus}
    {e : Experiment} {l : List Experiment} : rowsWith m st (e :: l)
      = rowsWith m st l + if e.deliveryMode = m ∧ e.status = st then 1 else 0 := by
  simp [rowsWith, List.countP_cons]

/-- A row is counted under its own mode and status and nowhere else. -/
theorem get_count {c : OutcomeCounts} {e : Experiment} {m : DeliveryMode}
    {st : ExperimentStatus} (h : m.allows st = true) :
    (c.count e).get m st
      = c.get m st + if e.deliveryMode = m ∧ e.status = st then 1 else 0 := by
  unfold OutcomeCounts.count
  cases m <;> cases st <;> first
    | exact absurd h (by decide)
    | cases e.deliveryMode <;> cases e.status <;> simp [OutcomeCounts.get]

/-- **Each counter counts the rows with its mode and its status.** -/
theorem get_aggregateCounts {m : DeliveryMode} {st : ExperimentStatus}
    (h : m.allows st = true) (l : List Experiment) :
    (aggregateCounts l).get m st = UInt32.ofNat (rowsWith m st l) := by
  have hfold : ∀ (l : List Experiment) (c : OutcomeCounts),
      (l.foldl OutcomeCounts.count c).get m st
        = c.get m st + UInt32.ofNat (rowsWith m st l) := by
    intro l
    induction l with
    | nil => simp [rowsWith]
    | cons e l ih =>
      intro c
      rw [List.foldl_cons, ih, get_count h, rowsWith_cons, UInt32.ofNat_add,
        UInt32.add_assoc]
      refine congrArg (c.get m st + ·) ?_
      rw [UInt32.add_comm]
      refine congrArg (UInt32.ofNat (rowsWith m st l) + ·) ?_
      split <;> rfl
  have hzero : OutcomeCounts.get ⟨⟨0, 0, 0⟩, ⟨0, 0⟩, ⟨0, 0⟩⟩ m st = 0 := by
    cases m <;> cases st <;> rfl
  rw [aggregateCounts, hfold, hzero, UInt32.zero_add]

/-- The rows of a mode are those of its allowed statuses. -/
theorem countP_mode_eq {l : List Experiment}
    (h : ∀ e ∈ l, e.deliveryMode.allows e.status = true) :
    (l.countP fun e => e.deliveryMode = DeliveryMode.normalPr)
        = rowsWith DeliveryMode.normalPr ExperimentStatus.accepted l
          + rowsWith DeliveryMode.normalPr ExperimentStatus.rejected l
          + rowsWith DeliveryMode.normalPr ExperimentStatus.aborted l
      ∧ (l.countP fun e => e.deliveryMode = DeliveryMode.consensusPocPr)
        = rowsWith DeliveryMode.consensusPocPr ExperimentStatus.pocLanded l
          + rowsWith DeliveryMode.consensusPocPr ExperimentStatus.aborted l
      ∧ (l.countP fun e => e.deliveryMode = DeliveryMode.consensusIssue)
        = rowsWith DeliveryMode.consensusIssue ExperimentStatus.routedToIssue l
          + rowsWith DeliveryMode.consensusIssue ExperimentStatus.aborted l := by
  induction l with
  | nil => simp [rowsWith]
  | cons e l ih =>
    obtain ⟨hn, hp, hi⟩ := ih fun e' he' => h e' (List.mem_cons_of_mem _ he')
    have he := h e List.mem_cons_self
    simp only [rowsWith_cons, List.countP_cons, hn, hp, hi]
    revert he
    cases e.deliveryMode <;> cases e.status <;>
      simp [DeliveryMode.allows] <;> omega

/-- What the counters of a summary promise: those of each delivery mode add up
to the number of its targets – as the 32-bit numbers they are, and exactly as
long as that number can be written in 32 bits. -/
structure CountsSound (c : OutcomeCounts) (ts : List MergedTarget) : Prop where
  normalPr : c.normalPr.accepted + c.normalPr.rejected + c.normalPr.aborted
    = UInt32.ofNat (ts.countP fun t => t.deliveryMode = DeliveryMode.normalPr)
  consensusPocPr : c.consensusPocPr.pocLanded + c.consensusPocPr.aborted
    = UInt32.ofNat
        (ts.countP fun t => t.deliveryMode = DeliveryMode.consensusPocPr)
  consensusIssue : c.consensusIssue.routedToIssue + c.consensusIssue.aborted
    = UInt32.ofNat
        (ts.countP fun t => t.deliveryMode = DeliveryMode.consensusIssue)
  asNat : ts.length < 2 ^ 32 →
    c.normalPr.accepted.toNat + c.normalPr.rejected.toNat
        + c.normalPr.aborted.toNat
      = (ts.countP fun t => t.deliveryMode = DeliveryMode.normalPr)
    ∧ c.consensusPocPr.pocLanded.toNat + c.consensusPocPr.aborted.toNat
      = (ts.countP fun t => t.deliveryMode = DeliveryMode.consensusPocPr)
    ∧ c.consensusIssue.routedToIssue.toNat + c.consensusIssue.aborted.toNat
      = (ts.countP fun t => t.deliveryMode = DeliveryMode.consensusIssue)

/-- The rows of a mode are as many as its targets. -/
theorem countP_mode_rows {ts : List MergedTarget} {l : List Experiment}
    (h : List.Forall₂ (fun t e => e.IsAbout t) ts l) (m : DeliveryMode) :
    (l.countP fun e => e.deliveryMode = m)
      = ts.countP fun t => t.deliveryMode = m := by
  induction h with
  | nil => rfl
  | cons hte _ ih => rw [List.countP_cons, List.countP_cons, ih, hte.mode]

theorem allows_of_isAbout {ts : List MergedTarget} {l : List Experiment}
    (h : List.Forall₂ (fun t e => e.IsAbout t) ts l) :
    ∀ e ∈ l, e.deliveryMode.allows e.status = true := by
  induction h with
  | nil => simp
  | cons hte _ ih =>
    refine List.forall_mem_cons.mpr ⟨?_, ih⟩
    rw [hte.mode]
    exact hte.status

/-- **The counters of legal rows add up.** -/
theorem countsSound_aggregateCounts {ts : List MergedTarget}
    {l : List Experiment} (h : List.Forall₂ (fun t e => e.IsAbout t) ts l) :
    CountsSound (aggregateCounts l) ts := by
  obtain ⟨hn, hp, hi⟩ := countP_mode_eq (allows_of_isAbout h)
  rw [countP_mode_rows h] at hn hp hi
  have hna : (aggregateCounts l).normalPr.accepted = UInt32.ofNat _ :=
    @get_aggregateCounts DeliveryMode.normalPr ExperimentStatus.accepted rfl l
  have hnr : (aggregateCounts l).normalPr.rejected = UInt32.ofNat _ :=
    @get_aggregateCounts DeliveryMode.normalPr ExperimentStatus.rejected rfl l
  have hnb : (aggregateCounts l).normalPr.aborted = UInt32.ofNat _ :=
    @get_aggregateCounts DeliveryMode.normalPr ExperimentStatus.aborted rfl l
  have hpl : (aggregateCounts l).consensusPocPr.pocLanded = UInt32.ofNat _ :=
    @get_aggregateCounts DeliveryMode.consensusPocPr ExperimentStatus.pocLanded
      rfl l
  have hpb : (aggregateCounts l).consensusPocPr.aborted = UInt32.ofNat _ :=
    @get_aggregateCounts DeliveryMode.consensusPocPr ExperimentStatus.aborted
      rfl l
  have hir : (aggregateCounts l).consensusIssue.routedToIssue
      = UInt32.ofNat _ :=
    @get_aggregateCounts DeliveryMode.consensusIssue
      ExperimentStatus.routedToIssue rfl l
  have hib : (aggregateCounts l).consensusIssue.aborted = UInt32.ofNat _ :=
    @get_aggregateCounts DeliveryMode.consensusIssue ExperimentStatus.aborted
      rfl l
  refine ⟨?_, ?_, ?_, fun hlen => ?_⟩
  · rw [hna, hnr, hnb, hn, UInt32.ofNat_add, UInt32.ofNat_add]
  · rw [hpl, hpb, hp, UInt32.ofNat_add]
  · rw [hir, hib, hi, UInt32.ofNat_add]
  · have hsmall : ∀ m st, (UInt32.ofNat (rowsWith m st l)).toNat
        = rowsWith m st l := by
      intro m st
      refine UInt32.toNat_ofNat_of_lt' ?_
      calc rowsWith m st l ≤ l.length := List.countP_le_length
        _ = ts.length := h.length_eq.symm
        _ < 2 ^ 32 := hlen
    rw [hna, hnr, hnb, hpl, hpb, hir, hib]
    simp only [hsmall]
    exact ⟨hn.symm, hp.symm, hi.symm⟩

end Counts

/-! ## The whole summary -/

/-- What finalizing promises of a summary. -/
structure FinalizeSound (files : SessionFiles) (targets : OptimizationTargets)
    (summary : Summary) : Prop where
  /-- There is one row per target, in the order of the targets, and it is what
  a row should be. -/
  rows : List.Forall₂ (RowSound files) targets.targets summary.experiments
  /-- Every row passes its own validator. -/
  valid : ∀ e ∈ summary.experiments, e.validateModel = Except.ok ()
  /-- The counters of each delivery mode add up to the number of targets. -/
  counts : CountsSound summary.outcomeCounts targets.targets

/-- The rows of a summary are what rows should be. -/
theorem forall₂_rowSound {files : SessionFiles} {targets : OptimizationTargets}
    {verdicts : VerdictMap} {summary : Summary}
    (htargets : targets.validateModel = Except.ok ())
    (hverdicts : loadVerdicts files targets = Except.ok verdicts)
    (hsummary : computeSummary targets files verdicts = Except.ok summary) :
    List.Forall₂ (fun t e => experimentRow files verdicts t = Except.ok e
      ∧ RowSound files t e) targets.targets summary.experiments := by
  have hvalid := (OptimizationTargets.validateModel_ok_iff.mp htargets).left
  simp only [computeSummary, bind_ok_iff, pure_ok_iff] at hsummary
  obtain ⟨experiments, hrows, _, -, rfl⟩ := hsummary
  have hall := (List.forall₂_and_left _ _).mpr
    ⟨fun t (ht : t ∈ targets.targets) => ht, mapM_ok_iff.mp hrows⟩
  refine hall.imp fun t e hte => ⟨hte.right, ?_⟩
  exact rowSound_experimentRow (hvalid t hte.left)
    (fun ra => getElem?_loadVerdicts hverdicts hte.left) hte.right

/-- The rows that finalizing writes are those of the targets, in their
order. -/
theorem finalize_rows {targetsFile : FileRead OptimizationTargets}
    {files : SessionFiles} {summary : Summary}
    (h : finalize targetsFile files = Except.ok summary) :
    ∃ targets, readOptimizationTargets targetsFile = Except.ok targets
      ∧ List.Forall₂ (RowSound files) targets.targets summary.experiments := by
  simp only [finalize, bind_ok_iff] at h
  obtain ⟨targets, hread, verdicts, hverdicts, hsummary⟩ := h
  have hvalid := (FileRead.parseValidated_ok_iff.mp hread).right
  exact ⟨targets, hread,
    (forall₂_rowSound hvalid hverdicts hsummary).imp fun _ _ hrow => hrow.right⟩

/-- A normal pull request that is accepted has a report that says that it is
implemented, is valid and is its own, and the evidence of its files. -/
theorem finalize_accepted {targetsFile : FileRead OptimizationTargets}
    {files : SessionFiles} {summary : Summary} {e : Experiment}
    (h : finalize targetsFile files = Except.ok summary)
    (he : e ∈ summary.experiments) (hm : e.deliveryMode = DeliveryMode.normalPr)
    (hacc : e.status = ExperimentStatus.accepted) :
    ∃ t r vr candidate baseline ra, t.id = e.targetId
      ∧ files.readOptimizerReportForTarget t.id DeliveryMode.normalPr
        = Except.ok (some (OptimizerReport.implemented r))
      ∧ AcceptanceEvidence files t vr candidate baseline ra := by
  simp only [finalize, readOptimizationTargets, bind_ok_iff,
    FileRead.parseValidated_ok_iff] at h
  obtain ⟨targets, ⟨-, hvalid⟩, verdicts, hverdicts, hsummary⟩ := h
  have hrows := forall₂_rowSound hvalid hverdicts hsummary
  obtain ⟨t, -, hrow, hsound⟩ := exists_of_mem_right hrows he
  have hmode : t.deliveryMode = DeliveryMode.normalPr :=
    hsound.about.mode.symm.trans hm
  obtain ⟨vr, candidate, baseline, ra, hev⟩ := (hsound.accepted hmode).mp hacc
  obtain ⟨r, hr, hctx⟩ := hev.report
  refine ⟨t, r, vr, candidate, baseline, ra, hsound.about.id.symm, ?_, hev⟩
  have hne : ¬ t.deliveryMode = DeliveryMode.consensusIssue := by simp [hmode]
  simp only [experimentRow, evaluateTarget, if_neg hne, bind_ok_iff,
    context_ok_iff] at hrow
  obtain ⟨_, ⟨report, hread, -⟩, -⟩ := hrow
  cases report with
  | none =>
    rw [SessionFiles.readOptimizerReportForTarget_ok_none_iff.mp hread] at hr
    cases hr
  | some report =>
    obtain ⟨hfile, -⟩ := SessionFiles.readOptimizerReportForTarget_ok_some_iff.mp hread
    obtain rfl : report = OptimizerReport.implemented r :=
      FileRead.parsed.inj (hfile.symm.trans hr)
    rwa [hmode] at hread

/-! A session with one target that is measured on two invocations. -/

/-- A replay of ten blocks. -/
def invocationOf (id : String) : BenchInvocation where
  id := id
  label := id
  purpose := "measure"
  samples := BenchSamples.blockRange 100 10
  warmup := 1
  repetitions := 3
  profiler := ProfilerMode.rich
  expectedSignal := ⟨SelectionLens.txLatency, SignalDirection.improves, none, none⟩

/-- A normal pull request, measured on a cold and a warm replay. -/
def benchTarget (id : String) : MergedTarget where
  id := id
  mergedFrom := [⟨"family", 0⟩]
  convergenceCount := 1
  rank := some 1
  targetSpan := "span"
  bucket := Bucket.blockProcessing
  hotspot := ⟨"span", 10, 20, 1, "lib.rs:1"⟩
  files := ["lib.rs"]
  evidence := "trace"
  evidenceQueries := [⟨"rank spans", PathBuf.ofNames ["queries", "run_summary.sql"],
    ∅, "evidence.csv", "the span dominates", ["cold", "warm"]⟩]
  proposedChange := "cache reads"
  expectedImprovement := ⟨F64.ofNat 4, F64.zero, F64.zero⟩
  risk := Risk.low
  verificationPlan := "replay"
  verificationReplay := some ⟨"cold and warm", [invocationOf "cold", invocationOf "warm"],
    none⟩
  mergeNotes := none
  contributorDifferences := none
  consensusBreaking := false
  breakageClass := none
  pocImplementable := none
  pocTestScope := none
  consensusWriteup := none
  deliveryMode := DeliveryMode.normalPr
  benchEligible := true

/-- A report on an implementation of such a target. -/
def implementedReportOf (sessionId targetId : String) : OptimizerReport :=
  OptimizerReport.implemented {
    sessionId := sessionId
    targetId := targetId
    deliveryMode := DeliveryMode.normalPr
    implementationSummary := "cached the reads"
    deviationFromProposedChange := none
    dependencyChanges := none
    testSummary := ⟨120, 0, F64.ofNat 60, "nextest.log"⟩
    clippyClean := some true
    prTitle := "perf: cache reads"
    parity := ⟨false, [], [], none⟩
    hardForkFollowup := none }

/-- A verdict in favour, on the cold run `1` against `11` and the warm run `2`
against `12`. -/
def verdictOf (sessionId targetId : String) : ResultsAnalysis where
  sessionId := sessionId
  targetId := targetId
  axis := SelectionLens.txLatency
  verdict := Verdict.accepted
  confidence := Confidence.high
  headlineRationale := "both replays improve"
  headlineImprovementPct := some (F64.ofNat 4)
  perInvocation := [⟨"cold", "cold", 1, 11, F64.ofNat 3, true, []⟩,
    ⟨"warm", "warm", 2, 12, F64.ofNat 4, true, []⟩]
  caveats := []
  prBodySummary := some "Reads are cached."

/-- The files of a session that measured its candidate in another order than
the replay's. -/
def measuredSession (sessionId targetId : String) : SessionFiles where
  id := sessionId
  optimizerReport := fun _ => FileRead.parsed (implementedReportOf sessionId targetId)
  consensusIssue := fun _ => none
  coordinatorProvenance := fun _ => FileRead.notFound
  candidateRunIds := fun _ => FileRead.parsed ⟨[⟨"warm", 12⟩, ⟨"cold", 11⟩]⟩
  baselineRunIds := fun _ => FileRead.parsed ⟨[⟨"cold", 1⟩, ⟨"warm", 2⟩]⟩
  resultsAnalysis := fun _ => FileRead.parsed (verdictOf sessionId targetId)
  source := FileRead.notFound

/-- **Finalizing is sound.** Whatever the files of a session hold, if the
targets are valid and the verdicts and the summary can be computed at all,
then there is one legal row per target in target order, the counters add up,
and a normal pull request is accepted exactly on the evidence of its files:
an implementation of this very target, measurements of the candidate and of
the baseline on exactly the invocations of its replay, and a verdict in favour
whose results are those measurements – and then the run ids in its row stand
in the order of the replay. -/
theorem computeSummary_sound {files : SessionFiles}
    {targets : OptimizationTargets} {verdicts : VerdictMap} {summary : Summary}
    (htargets : targets.validateModel = Except.ok ())
    (hverdicts : loadVerdicts files targets = Except.ok verdicts)
    (hsummary : computeSummary targets files verdicts = Except.ok summary) :
    FinalizeSound files targets summary := by
  have hsound : List.Forall₂ (RowSound files) targets.targets
      summary.experiments :=
    (forall₂_rowSound htargets hverdicts hsummary).imp fun _ _ h => h.right
  have habout : List.Forall₂ (fun t e => e.IsAbout t) targets.targets
      summary.experiments := hsound.imp fun _ _ h => h.about
  simp only [computeSummary, bind_ok_iff, pure_ok_iff] at hsummary
  obtain ⟨experiments, -, _, -, rfl⟩ := hsummary
  refine ⟨hsound, fun e he => ?_, countsSound_aggregateCounts habout⟩
  show bailIf _ _ = Except.ok ()
  rw [bailIf_ok_iff, allows_of_isAbout habout e he]
  exact Bool.noConfusion

/-- The theorem at a session whose candidate run ids are out of order on disk:
its target is accepted. -/
theorem computeSummary_sound_of_measuredSession :
    ∃ summary, finalize
        (FileRead.parsed (documentOf ["family"] [benchTarget "cache-reads"] []))
        (measuredSession "20260614" "cache-reads") = Except.ok summary
      ∧ summary.experiments.map (fun e => e.status) = [ExperimentStatus.accepted]
      ∧ summary.experiments.map (fun e => e.runIds) = [some [11, 12]]
      ∧ FinalizeSound (measuredSession "20260614" "cache-reads")
          (documentOf ["family"] [benchTarget "cache-reads"] []) summary := by
  obtain ⟨summary, hs⟩ := isOk_iff.mp (show (finalize
      (FileRead.parsed (documentOf ["family"] [benchTarget "cache-reads"] []))
      (measuredSession "20260614" "cache-reads")).isOk = true by decide +kernel)
  have hrow : (finalize
      (FileRead.parsed (documentOf ["family"] [benchTarget "cache-reads"] []))
      (measuredSession "20260614" "cache-reads")).toOption.map (fun s =>
        (s.experiments.map (fun e => e.status), s.experiments.map fun e => e.runIds))
      = some ([ExperimentStatus.accepted], [some [11, 12]]) := by decide +kernel
  rw [hs] at hrow
  have hpair := Prod.mk.inj (Option.some.inj hrow)
  have hparts := hs
  simp only [finalize, readOptimizationTargets, bind_ok_iff,
    FileRead.parseValidated_ok_iff, FileRead.parsed.injEq] at hparts
  obtain ⟨_, ⟨rfl, hvalid⟩, verdicts, hverdicts, hsummary⟩ := hparts
  exact ⟨summary, hs, hpair.left, hpair.right,
    computeSummary_sound hvalid hverdicts hsummary⟩
