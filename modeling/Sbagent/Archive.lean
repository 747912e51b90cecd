import Sbagent.ArchiveSync
import Sbagent.Finalize

/-!
# The record of a session

When a session is over, what became of it is written as one line of
`sessions.jsonl`: the session's status, its source, how long its phases took,
and a row for each target. A row is put together from the roster of targets,
the summary, and what the target was published as. Each of these files may be
missing, since a session may end at any phase.

A file that is there and is not what it should be is another matter, and
archiving is to fail on it rather than to write a record that says less than
happened. That is so of every file but one: an error on a target's
`publish-feedback.json` becomes an empty list of rows. The condition under
which a record tells the truth about the targets is therefore one on these
files (`FeedbackReadable`).
-/

open Fallible

/-! ## The files -/

/-- What the files of a session that archiving reads hold. -/
structure ArchiveFiles where
  /-- The session's id. -/
  id : String
  /-- `summary.json`. -/
  summary : FileRead Summary
  /-- `merge/optimization-targets.json`. -/
  targets : FileRead OptimizationTargets
  /-- `optimize/<target>/publish-feedback.json`. -/
  publishFeedback : String → FileRead PublishFeedback
  /-- `source.json`. -/
  source : FileRead SourceJson
  /-- The durations in `timings.json`. -/
  timings : FileRead (Std.ExtTreeMap String F64)
  baselineRunId : FileRead ℤ
  baselineRerunId : FileRead ℤ
  /-- `verify/<target>/<invocation>/bench-run.json`: its
  `data.summary.total_duration_us`, where that is an integer. -/
  verifyBenchRun : String → String → FileRead (Option ℤ)
  /-- `optimize/<target>/<invocation>/bench-run.json`, likewise. -/
  candidateBenchRun : String → String → FileRead (Option ℤ)
  /-- The latest time at which any of the session's files was written. -/
  latestMtime : Option String

/-- What archiving knows besides the files. -/
structure ArchiveContext where
  now : String
  range : SessionRange
  sbagentVersion : String
  sbagentGitSha : Option String

/-! ## Rows -/

/-- What a row says of a target's outcome: its status, the stage at which it
was settled, and the reason. -/
def deriveTargetStatus (exp : Option Experiment) :
    TargetStatus × Option TargetStatusStage × Option String :=
  match exp with
  | none =>
    (TargetStatus.aborted, some TargetStatusStage.optimizer, some "no summary row")
  | some e =>
    match e.status with
    | ExperimentStatus.accepted => (TargetStatus.accepted, none, e.reason)
    | ExperimentStatus.pocLanded => (TargetStatus.accepted, none, e.reason)
    | ExperimentStatus.routedToIssue => (TargetStatus.accepted, none, e.reason)
    | ExperimentStatus.rejected =>
      (TargetStatus.rejected, some TargetStatusStage.bench,
        e.reason.or (some "noise_floor"))
    | ExperimentStatus.aborted =>
      (TargetStatus.aborted, some TargetStatusStage.optimizer, e.reason)

/-- A bucket as the files spell it. -/
def bucketStr : Bucket → String
  | Bucket.blockProcessing => "block_processing"
  | Bucket.blockCommit => "block_commit"

/-- Addition of 64-bit integers that stops at the bounds. -/
def saturatingAdd (a b : ℤ) : ℤ := max (-2 ^ 63) (min (2 ^ 63 - 1) (a + b))

/-- Add what a `bench-run.json` says, if it says anything: a file that is
missing or cannot be read only makes the total smaller. -/
def addBenchRun (total : ℤ) (f : FileRead (Option ℤ)) : ℤ :=
  match f with
  | FileRead.parsed (some us) => saturatingAdd total us
  | _ => total

/-- The total over all invocations. -/
def sumBenchRunTotalUs (dir : String → FileRead (Option ℤ))
    (invocations : List BenchInvocation) : ℤ :=
  invocations.foldl (fun total inv => addBenchRun total (dir inv.id)) 0

/-- The runs finalizing compared a candidate with: those of its row, or else
the ones of the session. -/
def baselineIds (e : Experiment) (summary : Option Summary) : List ℤ :=
  (e.baselineRunIds.or
    (summary.map fun s => [s.baselineRunId, s.baselineRerunId])).getD []

namespace ArchiveFiles

variable (files : ArchiveFiles)

/-- The measurements of a target, from its row in the summary. -/
def benchOf (t : MergedTarget) (e : Experiment) (candidateRunIds : List ℤ)
    (summary : Option Summary) : TargetBench :=
  let invocations := (t.verificationReplay.map fun vr => vr.invocations).getD []
  let improvement := e.improvementPct.getD F64.zero
  let noiseFloor := (summary.map fun s => s.noiseFloorPct).getD F64.zero
  { baselineRunIds := baselineIds e summary
    candidateRunIds := candidateRunIds
    baselineTotalUs := sumBenchRunTotalUs (files.verifyBenchRun t.id) invocations
    candidateTotalUs := sumBenchRunTotalUs (files.candidateBenchRun t.id) invocations
    improvementPct := improvement
    passesNoiseFloor := noiseFloor.le improvement }

/-- The measurements of a target, if it is one that is measured, and was. -/
def buildTargetBench (t : MergedTarget) (exp : Option Experiment)
    (summary : Option Summary) : Option TargetBench :=
  match exp with
  | none => none
  | some e =>
    if t.deliveryMode ≠ DeliveryMode.normalPr then none
    else if e.runIds.getD [] = [] then none
    else some (files.benchOf t e (e.runIds.getD []) summary)

/-- The row of a target, given what it was published as. -/
def targetRecord (summary : Option Summary) (t : MergedTarget)
    (feedback : Option PublishFeedback) : TargetRecord :=
  let exp := summary.bind fun s => s.experiments.find? fun e => e.targetId = t.id
  let outcome := deriveTargetStatus exp
  { id := t.id
    familyId := (t.mergedFrom.head?.map fun mf => mf.familyId).getD "unknown"
    bucket := bucketStr t.bucket
    deliveryMode := t.deliveryMode
    status := outcome.1
    statusStage := outcome.2.1
    reasonCode := outcome.2.2
    headSha := exp.bind fun e => e.headSha
    prUrl := feedback.bind fun pf => pf.prUrl
    issueUrl := feedback.bind fun pf => pf.issueUrl
    bench := files.buildTargetBench t exp summary }

/-- The row of a target. -/
def buildTargetRecord (summary : Option Summary) (t : MergedTarget) :
    Fallible TargetRecord := do
  let feedback ← (PublishFeedback.readOptional
    s!"optimize/{t.id}/publish-feedback.json"
    (files.publishFeedback t.id)).context
      s!"loading publish-feedback.json for target `{t.id}`"
  return files.targetRecord summary t feedback

/-- The rows of all targets, sorted by their ids. -/
def buildTargetRecords (summary : Option Summary)
    (targets : Option OptimizationTargets) : Fallible (List TargetRecord) :=
  match targets with
  | none => Except.ok []
  | some doc => do
    let rows ← doc.targets.mapM (files.buildTargetRecord summary)
    return rows.mergeSort fun a b => a.id ≤ b.id

/-! ## The record -/

/-- The status of a session, from which of its files are there. -/
def deriveSessionStatus (summary : Option Summary)
    (targets : Option OptimizationTargets) :
    SessionStatus × Option String × Option String :=
  match summary, targets with
  | some _, _ => (SessionStatus.succeeded, none, none)
  | none, some _ => (SessionStatus.failed, some "post-merge",
      some "summary.json absent — finalize did not run to completion")
  | none, none => (SessionStatus.aborted, some "pre-merge",
      some "session did not produce optimization-targets.json")

/-- When a session started, from an id that starts with a date and a time. -/
def deriveStartedAtFromId (id now : String) : String :=
  let chars := id.toList.take 15
  let part := fun i n => String.ofList ((chars.drop i).take n)
  if chars.length ≠ 15 ∨ (chars.take 8).all Text.isAsciiDigit = false
      ∨ chars[8]? ≠ some '-' ∨ (chars.drop 9).all Text.isAsciiDigit = false then
    now
  else
    s!"{part 0 4}-{part 4 2}-{part 6 2}T{part 9 2}:{part 11 2}:{part 13 2}Z"

/-- The ids of the session's own baseline runs, as far as they can be read. -/
def readBaselineRunIds : List ℤ :=
  [files.baselineRunId, files.baselineRerunId].filterMap FileRead.value?

/-- The summary, if there is one. -/
def readSummary : Fallible (Option Summary) :=
  (files.summary.readOptional (fun _ => Except.ok ()) "opening summary.json"
    "parsing summary.json" "").context
    "loading summary.json (treated as required if it exists)"

/-- The roster of targets, if there is one. -/
def readTargets : Fallible (Option OptimizationTargets) :=
  files.targets.readOptional OptimizationTargets.validateModel
    "opening merge/optimization-targets.json"
    "parsing merge/optimization-targets.json"
    "validating merge/optimization-targets.json"

/-- The source, if there is a record of it. -/
def readSource : Fallible (Option SourceJson) :=
  (files.source.readOptional SourceJson.validateModel "reading source.json"
    "parsing/validating source.json"
    "parsing/validating source.json").context "loading source.json at source.json"

/-- The durations of the phases, if there is a record of them. -/
def readTimings : Fallible (Option (Std.ExtTreeMap String F64)) :=
  (files.timings.readOptional (fun _ => Except.ok ())
    "reading timings.json at timings.json" "parsing timings.json at timings.json"
    "").context "loading timings.json at timings.json"

/-- The record, from what was read. -/
def sessionRecord (ctx : ArchiveContext) (summary : Option Summary)
    (targets : Option OptimizationTargets) (source : Option SourceJson)
    (timings : Option (Std.ExtTreeMap String F64)) : SessionRecord :=
  let outcome := deriveSessionStatus summary targets
  { id := files.id
    artifactBranch := "session/" ++ files.id
    artifactSha := ""
    artifactUrl := none
    startedAt := deriveStartedAtFromId files.id ctx.now
    finishedAt := files.latestMtime.getD ctx.now
    status := outcome.1
    failurePhase := outcome.2.1
    failureReason := outcome.2.2
    sbagentVersion := ctx.sbagentVersion
    sbagentGitSha := ctx.sbagentGitSha
    range := ctx.range
    baselineRunIds := files.readBaselineRunIds
    phaseDurationsSecs := timings.getD ∅
    targets := (files.buildTargetRecords summary targets).toOption.getD []
    sourceUrl := source.map fun s => s.url
    sourceBranch := source.map fun s => s.branch
    sourceSha := source.map fun s => s.sha
    sourceFetchedAt := source.map fun s => s.fetchedAt }

/-- Build the record of a session. -/
def buildSessionRecord (ctx : ArchiveContext) : Fallible SessionRecord := do
  let summary ← files.readSummary
  let targets ← files.readTargets
  let source ← files.readSource
  let timings ← files.readTimings
  return files.sessionRecord ctx summary targets source timings

end ArchiveFiles

/-! ## Archiving -/

/-- How the steps of archiving that are git's end. -/
structure ArchiveOps where
  /-- The repository is on a branch of its own, and clean. -/
  checkRepo : Fallible Unit
  /-- The session's files are committed to the archive branch, and pushed. -/
  archiveBranch : Fallible String
  artifactUrl : Option String
  pull : Fallible Unit
  append : Fallible Unit
  commit : Fallible Unit
  push : Fallible Unit

/-- Whether the ledger has a record of a session. A ledger that is not there
has none. -/
def readLedgerContainsId (ledger : FileRead (List LedgerLine)) (id : String) :
    Fallible Bool :=
  match ledger with
  | FileRead.notFound => Except.ok false
  | FileRead.parsed lines => Except.ok (ledgerContainsId lines id)
  | _ => bail "reading sessions.jsonl"

/-- The steps up to the line in the ledger. -/
def appendRecord (files : ArchiveFiles) (ctx : ArchiveContext) (ops : ArchiveOps) :
    Fallible SessionRecord := do
  ops.checkRepo
  let record ← files.buildSessionRecord ctx
  let sha ← ops.archiveBranch
  ops.pull.context "pull --rebase before ledger append"
  ops.append.context "appending sessions.jsonl"
  return { record with artifactSha := sha, artifactUrl := ops.artifactUrl }

/-- The steps after it. -/
def shipRecord (ops : ArchiveOps) : Fallible Unit := do
  ops.commit.context "committing sessions.jsonl append"
  ops.push.context "pushing ledger commit"

/-- Archive a session: whether that succeeds, and the record that was
appended to the ledger, if one was. -/
def archive (ledger : FileRead (List LedgerLine)) (files : ArchiveFiles)
    (ctx : ArchiveContext) (ops : ArchiveOps) :
    Fallible Unit × Option SessionRecord :=
  match readLedgerContainsId ledger files.id with
  | Except.error e => (Except.error e, none)
  | Except.ok true => (Except.ok (), none)
  | Except.ok false =>
    match appendRecord files ctx ops with
    | Except.error e => (Except.error e, none)
    | Except.ok record => (shipRecord ops, some record)

/-! ## What a record says of the targets -/

/-- A file is there, and does not hold what it should. -/
def FileRead.Bad {α : Type} (validate : α → Fallible Unit) (f : FileRead α) : Prop :=
  f ≠ FileRead.notFound ∧ ∀ a, f = FileRead.parsed a → validate a ≠ Except.ok ()

/-- A row has the URLs of what its target was published as: none where there
is no file of it. -/
def HasUrls (f : FileRead PublishFeedback) (row : TargetRecord) : Prop :=
  (f = FileRead.notFound ∧ row.prUrl = none ∧ row.issueUrl = none)
    ∨ ∃ pf, f = FileRead.parsed pf ∧ pf.validateModel = Except.ok ()
      ∧ row.prUrl = pf.prUrl ∧ row.issueUrl = pf.issueUrl

/-- A row is one of a target. -/
structure RowOf (files : ArchiveFiles) (t : MergedTarget) (row : TargetRecord) :
    Prop where
  id : row.id = t.id
  legal : row.validateModel = Except.ok ()
  urls : HasUrls (files.publishFeedback t.id) row

/-- The rows of a record are right: one for each target, sorted by id, and
none when no roster was produced. -/
structure FaithfulRows (files : ArchiveFiles) (rows : List TargetRecord) : Prop where
  missing : files.targets = FileRead.notFound → rows = []
  roster : ∀ doc, files.targets = FileRead.parsed doc →
    ∃ rows', List.Forall₂ (RowOf files) doc.targets rows' ∧ rows.Perm rows'
  sorted : rows.Pairwise fun a b => a.id ≤ b.id

/-- What every target was published as can be read. -/
def FeedbackReadable (files : ArchiveFiles) : Prop :=
  ∀ doc, files.targets = FileRead.parsed doc → ∀ t ∈ doc.targets,
    ¬ (files.publishFeedback t.id).Bad PublishFeedback.validateModel

/-- A file that the rows are put together from is there and malformed. -/
def RowFileBad (files : ArchiveFiles) : Prop :=
  files.summary.Bad (fun _ => Except.ok ())
    ∨ files.targets.Bad OptimizationTargets.validateModel
    ∨ ¬ FeedbackReadable files

/-- Archiving tells the truth about the targets, or fails: a record that is
appended has the right rows, and a malformed file makes it fail before
anything is appended. Where the session is archived already, no row is put
together. -/
def ArchivesFaithfully (ledger : FileRead (List LedgerLine)) (files : ArchiveFiles)
    (ctx : ArchiveContext) (ops : ArchiveOps) : Prop :=
  (∀ r, (archive ledger files ctx ops).2 = some r → FaithfulRows files r.targets)
    ∧ (readLedgerContainsId ledger files.id ≠ Except.ok true → RowFileBad files →
      (archive ledger files ctx ops).1.isOk = false
        ∧ (archive ledger files ctx ops).2 = none)

/-- As far as git and the other files go, a line is appended. -/
structure ReachesAppend (ledger : FileRead (List LedgerLine)) (files : ArchiveFiles)
    (ops : ArchiveOps) : Prop where
  fresh : readLedgerContainsId ledger files.id = Except.ok false
  checkRepo : ops.checkRepo = Except.ok ()
  summary : ¬ files.summary.Bad fun _ => Except.ok ()
  targets : ¬ files.targets.Bad OptimizationTargets.validateModel
  source : ¬ files.source.Bad SourceJson.validateModel
  timings : ¬ files.timings.Bad fun _ => Except.ok ()
  archiveBranch : ∃ sha, ops.archiveBranch = Except.ok sha
  pull : ops.pull = Except.ok ()
  append : ops.append = Except.ok ()

section Reading

variable {α : Type} {validate : α → Fallible Unit} {f : FileRead α}
  {reading parsing validating : String}

theorem not_bad_iff : ¬ f.Bad validate
    ↔ f = FileRead.notFound ∨ ∃ a, f = FileRead.parsed a ∧ validate a = Except.ok () := by
  unfold FileRead.Bad
  cases f with
  | notFound => simp
  | ioError => simp
  | malformed => simp
  | parsed a => simp

/-- **A file that need not be there is read unless it is bad.** -/
theorem exists_readOptional_ok_iff :
    (∃ o, f.readOptional validate reading parsing validating = Except.ok o)
      ↔ ¬ f.Bad validate := by
  rw [not_bad_iff]
  constructor
  · rintro ⟨o, ho⟩
    cases o with
    | none => exact Or.inl (FileRead.readOptional_ok_none_iff.mp ho)
    | some a => exact Or.inr ⟨a, FileRead.readOptional_ok_some_iff.mp ho⟩
  · rintro (h | ⟨a, h⟩)
    · exact ⟨none, FileRead.readOptional_ok_none_iff.mpr h⟩
    · exact ⟨some a, FileRead.readOptional_ok_some_iff.mpr h⟩

end Reading

section Rows

variable {files : ArchiveFiles} {summary : Option Summary}

/-- **A row names the stage at which its target was settled exactly when the
target was not accepted.** -/
theorem deriveTargetStatus_legal (exp : Option Experiment) :
    (deriveTargetStatus exp).1 = TargetStatus.accepted
      ↔ (deriveTargetStatus exp).2.1 = none := by
  unfold deriveTargetStatus
  cases exp with
  | none => simp
  | some e =>
    dsimp only
    cases e.status with
    | accepted => simp
    | rejected => simp
    | aborted => simp
    | pocLanded => simp
    | routedToIssue => simp

theorem rowOf_targetRecord {t : MergedTarget} {feedback : Option PublishFeedback}
    (h : PublishFeedback.readOptional s!"optimize/{t.id}/publish-feedback.json"
      (files.publishFeedback t.id) = Except.ok feedback) :
    RowOf files t (files.targetRecord summary t feedback) where
  id := rfl
  legal := TargetRecord.validateModel_ok_iff.mpr (deriveTargetStatus_legal _)
  urls := by
    cases feedback with
    | none => exact Or.inl ⟨FileRead.readOptional_ok_none_iff.mp h, rfl, rfl⟩
    | some pf =>
      obtain ⟨hf, hvalid⟩ := FileRead.readOptional_ok_some_iff.mp h
      exact Or.inr ⟨pf, hf, hvalid, rfl, rfl⟩

theorem rowOf_buildTargetRecord {t : MergedTarget} {row : TargetRecord}
    (h : files.buildTargetRecord summary t = Except.ok row) : RowOf files t row := by
  simp only [ArchiveFiles.buildTargetRecord, bind_ok_iff, pure_ok_iff,
    context_ok_iff] at h
  obtain ⟨feedback, hf, rfl⟩ := h
  exact rowOf_targetRecord hf

theorem exists_buildTargetRecord_iff {t : MergedTarget} :
    (∃ row, files.buildTargetRecord summary t = Except.ok row)
      ↔ ¬ (files.publishFeedback t.id).Bad PublishFeedback.validateModel := by
  rw [← exists_readOptional_ok_iff]
  simp only [ArchiveFiles.buildTargetRecord, bind_ok_iff, pure_ok_iff, context_ok_iff]
  constructor
  · rintro ⟨row, feedback, hf, -⟩
    exact ⟨feedback, hf⟩
  · rintro ⟨feedback, hf⟩
    exact ⟨files.targetRecord summary t feedback, feedback, hf, rfl⟩

/-- Sorting the rows by their ids sorts them. -/
theorem pairwise_mergeSort_id (rows : List TargetRecord) :
    (rows.mergeSort fun a b => a.id ≤ b.id).Pairwise fun a b => a.id ≤ b.id := by
  have htrans : ∀ a b c : TargetRecord, decide (a.id ≤ b.id) = true →
      decide (b.id ≤ c.id) = true → decide (a.id ≤ c.id) = true := by
    intro a b c hab hbc
    rw [decide_eq_true_eq] at hab hbc ⊢
    exact hab.trans hbc
  have htotal : ∀ a b : TargetRecord,
      (decide (a.id ≤ b.id) || decide (b.id ≤ a.id)) = true := by
    intro a b
    rw [Bool.or_eq_true, decide_eq_true_eq, decide_eq_true_eq]
    exact le_total a.id b.id
  exact (List.pairwise_mergeSort htrans htotal rows).imp of_decide_eq_true

/-- A computation over a list succeeds if it does for every element. -/
theorem exists_forall₂ {α β : Type} {R : α → β → Prop} {as : List α}
    (h : ∀ a ∈ as, ∃ b, R a b) : ∃ bs, List.Forall₂ R as bs := by
  induction as with
  | nil => exact ⟨[], List.Forall₂.nil⟩
  | cons a as ih =>
    obtain ⟨b, hb⟩ := h a List.mem_cons_self
    obtain ⟨bs, hbs⟩ := ih fun a' ha' => h a' (List.mem_cons_of_mem a ha')
    exact ⟨b :: bs, List.Forall₂.cons hb hbs⟩

/-- **Where what the targets were published as can be read, the rows of a
record are right.** -/
theorem faithfulRows_of_readable (hread : FeedbackReadable files)
    {targets : Option OptimizationTargets}
    (htargets : files.readTargets = Except.ok targets) :
    FaithfulRows files
      ((files.buildTargetRecords summary targets).toOption.getD []) := by
  cases targets with
  | none =>
    have hmissing : files.targets = FileRead.notFound :=
      FileRead.readOptional_ok_none_iff.mp htargets
    refine ⟨fun _ => rfl, fun doc hdoc => ?_, List.Pairwise.nil⟩
    rw [hmissing] at hdoc
    cases hdoc
  | some doc =>
    have hdoc : files.targets = FileRead.parsed doc :=
      (FileRead.readOptional_ok_some_iff.mp htargets).left
    obtain ⟨rows, hrows⟩ : ∃ rows, List.Forall₂
        (fun t row => files.buildTargetRecord summary t = Except.ok row)
        doc.targets rows :=
      exists_forall₂ fun t ht => exists_buildTargetRecord_iff.mpr (hread doc hdoc t ht)
    have hbuild : files.buildTargetRecords summary (some doc)
        = Except.ok (rows.mergeSort fun a b => a.id ≤ b.id) := by
      simp only [ArchiveFiles.buildTargetRecords, bind_ok_iff, pure_ok_iff]
      exact ⟨rows, mapM_ok_iff.mpr hrows, rfl⟩
    rw [hbuild]
    refine ⟨fun hmissing => ?_, fun doc' hdoc' => ⟨rows, ?_, ?_⟩, ?_⟩
    · rw [hdoc] at hmissing
      cases hmissing
    · rw [hdoc] at hdoc'
      cases hdoc'
      exact hrows.imp fun t row h => rowOf_buildTargetRecord h
    · exact List.mergeSort_perm rows _
    · exact pairwise_mergeSort_id rows

end Rows

section Archiving

variable {ledger : FileRead (List LedgerLine)} {files : ArchiveFiles}
  {ctx : ArchiveContext} {ops : ArchiveOps}

/-- A record can be built when the files of the session itself are in order,
and its rows are then those of the targets, or none if putting them together
failed. -/
theorem buildSessionRecord_ok_iff {r : SessionRecord} :
    files.buildSessionRecord ctx = Except.ok r
      ↔ ∃ summary targets source timings, files.readSummary = Except.ok summary
        ∧ files.readTargets = Except.ok targets ∧ files.readSource = Except.ok source
        ∧ files.readTimings = Except.ok timings
        ∧ files.sessionRecord ctx summary targets source timings = r := by
  simp only [ArchiveFiles.buildSessionRecord, bind_ok_iff, pure_ok_iff]
  constructor
  · rintro ⟨summary, hs, targets, ht, source, hso, timings, hti, h⟩
    exact ⟨summary, targets, source, timings, hs, ht, hso, hti, h⟩
  · rintro ⟨summary, targets, source, timings, hs, ht, hso, hti, h⟩
    exact ⟨summary, hs, targets, ht, source, hso, timings, hti, h⟩

theorem exists_buildSessionRecord_iff :
    (∃ r, files.buildSessionRecord ctx = Except.ok r)
      ↔ ¬ files.summary.Bad (fun _ => Except.ok ())
        ∧ ¬ files.targets.Bad OptimizationTargets.validateModel
        ∧ ¬ files.source.Bad SourceJson.validateModel
        ∧ ¬ files.timings.Bad fun _ => Except.ok () := by
  rw [← exists_readOptional_ok_iff, ← exists_readOptional_ok_iff,
    ← exists_readOptional_ok_iff, ← exists_readOptional_ok_iff]
  simp only [buildSessionRecord_ok_iff, ArchiveFiles.readSummary,
    ArchiveFiles.readTargets, ArchiveFiles.readSource, ArchiveFiles.readTimings,
    context_ok_iff]
  constructor
  · rintro ⟨r, summary, targets, source, timings, hs, ht, hso, hti, -⟩
    exact ⟨⟨summary, hs⟩, ⟨targets, ht⟩, ⟨source, hso⟩, timings, hti⟩
  · rintro ⟨⟨summary, hs⟩, ⟨targets, ht⟩, ⟨source, hso⟩, timings, hti⟩
    exact ⟨_, summary, targets, source, timings, hs, ht, hso, hti, rfl⟩

theorem appendRecord_ok_iff {r : SessionRecord} :
    appendRecord files ctx ops = Except.ok r
      ↔ ∃ record sha, ops.checkRepo = Except.ok ()
        ∧ files.buildSessionRecord ctx = Except.ok record
        ∧ ops.archiveBranch = Except.ok sha ∧ ops.pull = Except.ok ()
        ∧ ops.append = Except.ok ()
        ∧ r = { record with artifactSha := sha, artifactUrl := ops.artifactUrl } := by
  simp only [appendRecord, bind_ok_iff, pure_ok_iff, context_ok_iff]
  constructor
  · rintro ⟨_, hrepo, record, hr, sha, hsha, _, hpull, _, happ, rfl⟩
    exact ⟨record, sha, hrepo, hr, hsha, hpull, happ, rfl⟩
  · rintro ⟨record, sha, hrepo, hr, hsha, hpull, happ, rfl⟩
    exact ⟨(), hrepo, record, hr, sha, hsha, (), hpull, (), happ, rfl⟩

/-- A line is appended exactly in a session that is not in the ledger yet,
when every step up to the line succeeds. -/
theorem archive_appended_iff {r : SessionRecord} :
    (archive ledger files ctx ops).2 = some r
      ↔ readLedgerContainsId ledger files.id = Except.ok false
        ∧ appendRecord files ctx ops = Except.ok r := by
  unfold archive
  cases readLedgerContainsId ledger files.id with
  | error e => simp
  | ok known =>
    cases known with
    | true => simp
    | false =>
      cases appendRecord files ctx ops with
      | error e => simp
      | ok record => simp

/-- **As far as git and the other files go, a line is appended**, whatever
the targets were published as. -/
theorem exists_appended_iff :
    (∃ r, (archive ledger files ctx ops).2 = some r)
      ↔ ReachesAppend ledger files ops := by
  simp only [archive_appended_iff, appendRecord_ok_iff]
  constructor
  · rintro ⟨r, hfresh, record, sha, hrepo, hrecord, hsha, hpull, happ, -⟩
    obtain ⟨hs, ht, hso, hti⟩ := exists_buildSessionRecord_iff.mp ⟨record, hrecord⟩
    exact ⟨hfresh, hrepo, hs, ht, hso, hti, ⟨sha, hsha⟩, hpull, happ⟩
  · rintro ⟨hfresh, hrepo, hs, ht, hso, hti, ⟨sha, hsha⟩, hpull, happ⟩
    obtain ⟨record, hrecord⟩ : ∃ record,
        files.buildSessionRecord ctx = Except.ok record :=
      exists_buildSessionRecord_iff.mpr ⟨hs, ht, hso, hti⟩
    exact ⟨_, hfresh, record, sha, hrepo, hrecord, hsha, hpull, happ, rfl⟩

/-- Where a record is appended and the feedback can be read, its rows are
right. -/
theorem faithfulRows_of_appended (hread : FeedbackReadable files) {r : SessionRecord}
    (h : (archive ledger files ctx ops).2 = some r) : FaithfulRows files r.targets := by
  obtain ⟨-, happ⟩ := archive_appended_iff.mp h
  obtain ⟨record, sha, -, hrecord, -, -, -, rfl⟩ := appendRecord_ok_iff.mp happ
  obtain ⟨summary, targets, source, timings, -, ht, -, -, rfl⟩ :=
    buildSessionRecord_ok_iff.mp hrecord
  exact faithfulRows_of_readable hread ht

/-- An archiving that appends nothing to a ledger without the session has
failed. -/
theorem isOk_eq_false_of_not_appended
    (hknown : readLedgerContainsId ledger files.id ≠ Except.ok true)
    (h : (archive ledger files ctx ops).2 = none) :
    (archive ledger files ctx ops).1.isOk = false := by
  unfold archive at h ⊢
  cases hl : readLedgerContainsId ledger files.id with
  | error e => rfl
  | ok known =>
    cases known with
    | true => exact absurd hl hknown
    | false =>
      rw [hl] at h
      cases happ : appendRecord files ctx ops with
      | error e => rfl
      | ok record =>
        rw [happ] at h
        cases h

/-- **Archiving tells the truth about the targets exactly where everything
they were published as can be read, or nothing is appended anyway.** -/
theorem archivesFaithfully_iff :
    ArchivesFaithfully ledger files ctx ops
      ↔ (ReachesAppend ledger files ops → FeedbackReadable files) := by
  constructor
  · rintro ⟨-, hbad⟩ hreach
    by_contra hread
    obtain ⟨r, hr⟩ := exists_appended_iff.mpr hreach
    have hknown : readLedgerContainsId ledger files.id ≠ Except.ok true := by
      rw [hreach.fresh]
      simp
    have hnone : (archive ledger files ctx ops).2 = none :=
      (hbad hknown (Or.inr (Or.inr hread))).right
    rw [hr] at hnone
    cases hnone
  · intro hok
    refine ⟨fun r hr => ?_, fun hknown hbad => ?_⟩
    · exact faithfulRows_of_appended (hok (exists_appended_iff.mp ⟨r, hr⟩)) hr
    · have hnone : (archive ledger files ctx ops).2 = none := by
        -- a line that is appended anyway is one that no file speaks against
        by_contra hsome
        obtain ⟨r, hr⟩ := Option.ne_none_iff_exists'.mp hsome
        have hreach := exists_appended_iff.mp ⟨r, hr⟩
        rcases hbad with hsummary | htargets | hfeedback
        · exact hreach.summary hsummary
        · exact hreach.targets htargets
        · exact hfeedback (hok hreach)
      exact ⟨isOk_eq_false_of_not_appended hknown hnone, hnone⟩

end Archiving

/-- A session with one target, which was published. What it was published as
cannot be parsed. -/
def unreadableSession : ArchiveFiles where
  id := "20260614-120000"
  summary := FileRead.notFound
  targets := FileRead.parsed {
    sessionId := "20260614-120000"
    baselineRunId := 1
    baselineRerunId := 2
    noiseFloorPct := F64.ofNat 1
    mergeModel := "model"
    targets := [benchTarget "cache-reads"]
    rejectedByMerge := []
    lensDispositions := [] }
  publishFeedback := fun _ => FileRead.malformed
  source := FileRead.notFound
  timings := FileRead.notFound
  baselineRunId := FileRead.parsed 1
  baselineRerunId := FileRead.parsed 2
  verifyBenchRun := fun _ _ => FileRead.notFound
  candidateBenchRun := fun _ _ => FileRead.notFound
  latestMtime := some "2026-06-14T13:00:00Z"

/-- Nothing that git does fails. -/
def smoothOps : ArchiveOps :=
  ⟨Except.ok (), Except.ok "0123456", none, Except.ok (), Except.ok (), Except.ok (),
    Except.ok ()⟩

/-- **An error on what a target was published as is an empty list of rows.**
The session is archived as one that had no targets. -/
theorem not_archivesFaithfully_of_malformed :
    ¬ ArchivesFaithfully (FileRead.parsed []) unreadableSession
      ⟨"2026-06-14T14:00:00Z", ⟨none, none, none, none, "mainnet"⟩, "0.1.0", none⟩
      smoothOps := by
  intro h
  obtain ⟨r, hr, hrows⟩ : ∃ r, (archive (FileRead.parsed []) unreadableSession
      ⟨"2026-06-14T14:00:00Z", ⟨none, none, none, none, "mainnet"⟩, "0.1.0", none⟩
      smoothOps).2 = some r ∧ r.targets = [] :=
    Option.map_eq_some_iff.mp (by decide +kernel)
  obtain ⟨rows, hforall, hperm⟩ := (h.left r hr).roster _ rfl
  have hlength : rows.length = 1 := hforall.length_eq.symm
  rw [hrows] at hperm
  rw [← hperm.length_eq] at hlength
  cases hlength
