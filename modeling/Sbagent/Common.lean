import Sbagent.Fallible
import Sbagent.Path
import Sbagent.Text

/-!
# The vocabulary of the artifacts

Every phase of a session reads and writes files, and a handful of types occur
in more than one of them: the lens and bucket a target is filed under, the
delivery mode that routes it, the replay that says how it is to be measured,
the evidence behind it, the run ids a measurement left behind. They are the
vocabulary of this development.

Each type that a phase validates on reading has its validator here, written
check by check as the phases run it, followed by one lemma that says what the
validator accepts. The lemmas are what the rest of the development uses: a
file that was read has the property, and no later proof opens a validator
again.
-/

/-! ## Enumerations -/

/-- Selection lens: the value axis triage promoted a candidate on. -/
inductive SelectionLens where
  /-- Wall-time savings under execution-bucket spans. -/
  | txLatency
  /-- Clarity-budget headroom freed. -/
  | tenureThroughput
  /-- Wall-time savings under commit-bucket spans. -/
  | commitTime
  deriving DecidableEq

/-- A lens in a message. -/
def SelectionLens.debug : SelectionLens → String
  | txLatency => "TxLatency"
  | tenureThroughput => "TenureThroughput"
  | commitTime => "CommitTime"

/-- Work-bucket classification of a target. -/
inductive Bucket where
  /-- Under the transaction-execution segment. -/
  | blockProcessing
  /-- Under one of the commit segments. -/
  | blockCommit
  deriving DecidableEq

/-- A bucket in a message. -/
def Bucket.debug : Bucket → String
  | blockProcessing => "BlockProcessing"
  | blockCommit => "BlockCommit"

/-- Subjective risk level of a proposed fix. -/
inductive Risk where
  | low
  | medium
  | high
  deriving DecidableEq

/-- Classification of a consensus-breaking change. -/
inductive BreakageClass where
  | clarityCostWeight
  | clarityVmBehavior
  | miningFlow
  /-- Block acceptance: not exercised by the benchmark, so never
  implementable as a proof of concept. -/
  | blockValidation
  | marfLayout
  | onChainFormat
  deriving DecidableEq

/-- A class in a message. -/
def BreakageClass.debug : BreakageClass → String
  | clarityCostWeight => "ClarityCostWeight"
  | clarityVmBehavior => "ClarityVmBehavior"
  | miningFlow => "MiningFlow"
  | blockValidation => "BlockValidation"
  | marfLayout => "MarfLayout"
  | onChainFormat => "OnChainFormat"

/-- How a target is delivered. -/
inductive DeliveryMode where
  /-- Performance fix: full benchmark, normal pull request. -/
  | normalPr
  /-- Deliberate consensus change, shipped as a proof of concept. -/
  | consensusPocPr
  /-- Consensus change too large for that: an issue only. -/
  | consensusIssue
  deriving DecidableEq

namespace DeliveryMode

/-- A delivery mode in a message. -/
def debug : DeliveryMode → String
  | normalPr => "NormalPr"
  | consensusPocPr => "ConsensusPocPr"
  | consensusIssue => "ConsensusIssue"

/-- The delivery mode that the two routing fields determine. -/
def derive (consensusBreaking : Bool) (pocImplementable : Option Bool) :
    DeliveryMode :=
  match consensusBreaking, pocImplementable with
  | false, _ => normalPr
  | true, some true => consensusPocPr
  | true, _ => consensusIssue

/-- Only normal pull requests are benchmarked. -/
def benchEligible : DeliveryMode → Bool
  | normalPr => true
  | consensusPocPr => false
  | consensusIssue => false

theorem benchEligible_iff {m : DeliveryMode} :
    m.benchEligible = true ↔ m = normalPr := by
  cases m <;> simp [benchEligible]

/-- A change is benchmarked exactly when it does not break consensus. -/
theorem derive_eq_normalPr_iff {b : Bool} {p : Option Bool} :
    derive b p = normalPr ↔ b = false := by
  match b, p with
  | false, _ => simp [derive]
  | true, some true => simp [derive]
  | true, some false => simp [derive]
  | true, none => simp [derive]

end DeliveryMode

/-- Whether an analysis acted on its lens. -/
inductive LensDispositionStatus where
  /-- At least one target claims an impact on the lens. -/
  | addressed
  /-- The signal is real and has no structural handle. -/
  | notActionable
  deriving DecidableEq

/-- Direction of an expected signal. -/
inductive SignalDirection where
  | improves
  | neutral
  | regresses
  deriving DecidableEq

/-- Profiler mode of an invocation; there is one so far. -/
inductive ProfilerMode where
  | rich
  deriving DecidableEq

/-! ## Records -/

/-- Per-axis estimate of the percent reduction of a fix. -/
structure ImprovementVector where
  txLatency : F64
  tenureThroughput : F64
  commitTime : F64
  deriving DecidableEq

/-- Hotspot record carried on every analyzer target and merged target. -/
structure Hotspot where
  span : String
  selfWallUs : ℤ
  totalWallUs : ℤ
  calls : ℤ
  location : String
  deriving DecidableEq

/-- Per-family lens disposition, as the merge phase carries it. -/
structure LensDispositionEntry where
  familyId : String
  lens : SelectionLens
  status : LensDispositionStatus
  reason : Option String
  deriving DecidableEq

/-- What the analyzer expects a measurement to show. -/
structure ExpectedSignal where
  axis : SelectionLens
  direction : SignalDirection
  /-- Optional signed percent, positive for faster. -/
  estimatePct : Option F64
  /-- Optional band around the estimate. -/
  tolerancePct : Option F64
  deriving DecidableEq

/-- What an invocation replays. -/
inductive BenchSamples where
  /-- Transactions, by hash. -/
  | txids (txids : List String)
  /-- Blocks, by hash. -/
  | blocks (blocks : List String)
  /-- A range of block heights. -/
  | blockRange (startAt count : ℕ)
  deriving DecidableEq

/-- One benchmark command of a replay. -/
structure BenchInvocation where
  /-- The pairing key between baseline, candidate and verdict. -/
  id : String
  label : String
  purpose : String
  samples : BenchSamples
  warmup : ℕ
  repetitions : ℕ
  profiler : ProfilerMode
  expectedSignal : ExpectedSignal
  deriving DecidableEq

/-- How a target is to be measured: the same commands for the baseline and
the candidate. -/
structure VerificationReplay where
  rationale : String
  invocations : List BenchInvocation
  suspectedSpans : Option (List String)
  deriving DecidableEq

/-- Database evidence behind a target's mechanism. -/
structure EvidenceQuery where
  purpose : String
  /-- `queries/<name>.sql`, compared by components. -/
  sqlPath : PathBuf
  params : Std.ExtTreeMap String String
  outputPath : String
  keyObservation : String
  supportsInvocations : List String
  deriving DecidableEq

/-- An invocation and the benchmark run it left in the database. -/
structure InvocationRunId where
  invocationId : String
  runId : ℤ
  deriving DecidableEq

/-- The contents of a baseline or candidate run-id file. -/
structure InvocationRunIds where
  entries : List InvocationRunId
  deriving DecidableEq

/-- The run ids, in the order of the file. -/
def InvocationRunIds.runIds (ids : InvocationRunIds) : List ℤ :=
  ids.entries.map fun e => e.runId

/-! ## Identifiers -/

/-- `^[a-z0-9][a-z0-9-]*$`: the pattern that the exported schemas put on
family ids, target ids and fix signatures. -/
def matchesKebabPattern (s : String) : Bool :=
  match s.toList with
  | [] => false
  | c :: cs => (Text.isAsciiLower c || Text.isAsciiDigit c)
      && cs.all fun c => Text.isAsciiLower c || Text.isAsciiDigit c || c == '-'

/-- `^[a-z](?:[a-z0-9-]{0,38}[a-z0-9])?$`, checked by hand: at most 40 bytes,
a lower-case letter first, no trailing hyphen. -/
def isValidInvocationId (id : String) : Bool :=
  match id.toList with
  | [] => false
  | c :: cs => Text.byteLen id ≤ 40 && Text.isAsciiLower c
      && (let last := (c :: cs).getLast (by simp)
          Text.isAsciiLower last || Text.isAsciiDigit last)
      && (c :: cs).all fun c =>
          Text.isAsciiLower c || Text.isAsciiDigit c || c == '-'

/-- `0x` and 64 hexadecimal digits. -/
def isHexHash (s : String) : Bool :=
  Text.byteLen s == 66 && Text.startsWith s "0x"
    && (s.toList.drop 2).all Text.isAsciiHexDigit

/-- The bundled files under `queries/`. -/
def bundledQueries : List String :=
  ["README.md", "baseline_empty_block_breakdown.sql",
    "block_timing_breakdown.sql", "compare_block_timing_between_runs.sql",
    "compare_run_summary.sql", "compare_spans_between_runs.sql",
    "profiler_trace_block.sql", "profiler_trace_tx.sql", "run_summary.sql",
    "span_per_block_distribution.sql", "span_per_sample_distribution.sql",
    "span_recurrence.sql", "span_run_drift.sql", "top_blocks_for_span.sql",
    "top_clarity_consumers_by_contract.sql", "top_contract_calls.sql",
    "top_spans_by_call_count.sql", "top_spans_by_self_wall.sql",
    "top_txs_by_duration.sql", "tx_type_distribution.sql",
    "txs_for_contract.sql"]

/-- Whether a path names a bundled query as `queries/<name>.sql`. -/
def isBundledQueryLogicalPath (path : PathBuf) : Bool :=
  match path with
  | [Component.normal dir, Component.normal file] => dir == "queries"
      && bundledQueries.any fun name => Text.endsWith name ".sql" && file == name
  | _ => false

/-- **A kebab-case identifier is a single path name**: the pattern leaves out
the separator, both dot names and the empty string. -/
theorem isName_of_matchesKebabPattern {s : String}
    (h : matchesKebabPattern s = true) : PathBuf.IsName s := by
  unfold matchesKebabPattern at h
  have hchar : ∀ c ∈ s.toList, c ≠ '/' ∧ c ≠ '.' := by
    intro c hc
    cases hs : s.toList with
    | nil => simp [hs] at hc
    | cons d ds =>
      simp only [hs, Bool.and_eq_true, List.all_eq_true] at h
      have hd : Text.isAsciiLower c || Text.isAsciiDigit c || c == '-' := by
        rcases List.mem_cons.mp (hs ▸ hc) with rfl | hc
        · simp [h.left]
        · exact h.right c hc
      constructor <;> (rintro rfl; revert hd; decide)
  refine ⟨?_, fun hc => (hchar _ hc).left rfl, ?_, ?_⟩
  · rintro rfl
    simp at h
  · rintro rfl
    exact (hchar '.' (by decide)).right rfl
  · rintro rfl
    exact (hchar '.' (by decide)).right rfl

/-! ## Validators -/

open Fallible

/-- The optional band is finite and non-negative, the optional estimate
finite. -/
def ExpectedSignal.validateModel (s : ExpectedSignal) : Fallible Unit := do
  onSome s.tolerancePct fun t =>
    bailIf (t.isFinite = false ∨ t.lt F64.zero = true)
      s!"expected_signal.tolerance_pct = {t.display} must be finite and >= 0"
  onSome s.estimatePct fun e =>
    bailIf (e.isFinite = false)
      s!"expected_signal.estimate_pct = {e.display} must be finite"

/-- The two hash lists of a replay are checked alike: 1 to 16 entries, each a
hash. `column` is where the analyzer was to pick them. -/
def BenchSamples.validateHashes (field column : String) (hs : List String) :
    Fallible Unit := do
  bailIf (hs = []) s!"bench_samples.{field} must be non-empty"
  bailIf (16 < hs.length)
    s!"bench_samples.{field} has {hs.length} entries; max 16"
  forEach (fun i h => bailIf (isHexHash h = false)
    (s!"bench_samples.{field}[{i}] = " ++ Text.debug h
      ++ " is not a 0x-prefixed 64-hex-char hash (analyzers must pick "
      ++ s!"{field} from the `{column}` column, not synthetic DB ids)")) hs

/-- What an invocation replays is within bounds. -/
def BenchSamples.validateModel : BenchSamples → Fallible Unit
  | txids hs => validateHashes "txids" "tx_hash" hs
  | blocks hs => validateHashes "blocks" "stacks_block_hash" hs
  | blockRange startAt count => do
    bailIf (startAt = 0) "bench_samples.block_range.start_at must be >= 1"
    bailIf (count = 0) "bench_samples.block_range.count must be >= 1"
    bailIf (50000 < count)
      s!"bench_samples.block_range.count = {count} exceeds the 50_000 ceiling"

/-- One benchmark command is well formed. -/
def BenchInvocation.validateModel (inv : BenchInvocation) : Fallible Unit := do
  bailIf (isValidInvocationId inv.id = false)
    ("bench_invocation.id = " ++ Text.debug inv.id ++ " must match "
      ++ "^[a-z](?:[a-z0-9-]\x7b0,38\x7d[a-z0-9])?$"
      ++ " (lowercase kebab-case, max 40 chars, no trailing hyphen)")
  bailIf (Text.isBlank inv.label = true)
    s!"bench_invocation `{inv.id}`: label must be non-blank"
  bailIf (Text.isBlank inv.purpose = true)
    s!"bench_invocation `{inv.id}`: purpose must be non-blank"
  inv.samples.validateModel.context s!"bench_invocation `{inv.id}`"
  bailIf (200 < inv.warmup)
    (s!"bench_invocation `{inv.id}`: warmup = {inv.warmup} is out of range "
      ++ "[0, 200]")
  bailIf (inv.repetitions < 1 ∨ 200 < inv.repetitions)
    (s!"bench_invocation `{inv.id}`: repetitions = {inv.repetitions} is out of "
      ++ "range [1, 200]")
  inv.expectedSignal.validateModel.context s!"bench_invocation `{inv.id}`"

/-- Hard ceiling on the invocations of one replay. -/
def benchInvocationHardMax : ℕ := 16

/-- Every invocation after the first expects its signal on the first one's
axis. -/
def VerificationReplay.checkSharedAxis : List BenchInvocation → Fallible Unit
  | [] => Except.ok ()
  | first :: rest =>
    forEachFrom (fun i inv =>
      bailIf (inv.expectedSignal.axis ≠ first.expectedSignal.axis)
        (s!"verification_replay.invocations[{i}].expected_signal.axis = "
          ++ inv.expectedSignal.axis.debug
          ++ " differs from invocations[0].expected_signal.axis = "
          ++ first.expectedSignal.axis.debug
          ++ "; v1 requires every invocation on a target to share an axis "
          ++ "(the results-analyzer commits to one lens per target)")) 1 rest

/-- A replay has between one and sixteen well-formed invocations with
distinct ids that all expect a signal on the same axis. -/
def VerificationReplay.validateModel (vr : VerificationReplay) :
    Fallible Unit := do
  bailIf (Text.isBlank vr.rationale = true)
    "verification_replay.rationale must be non-blank"
  bailIf (vr.invocations = [])
    ("verification_replay.invocations must contain at least one entry (omit "
      ++ "the field entirely if the target needs no targeted replay)")
  bailIf (benchInvocationHardMax < vr.invocations.length)
    (s!"verification_replay.invocations = {vr.invocations.length} exceeds "
      ++ s!"hard max of {benchInvocationHardMax}")
  -- the duplicate is noticed before the invocation itself is looked at
  scanDistinct (fun inv => inv.id)
    (fun i inv => s!"verification_replay.invocations[{i}]: duplicate id "
      ++ Text.debug inv.id ++ " (invocation ids must be unique within a target)")
    (fun _ _ => Except.ok ())
    (fun i inv =>
      inv.validateModel.context s!"verification_replay.invocations[{i}]")
    vr.invocations
  checkSharedAxis vr.invocations
  onSome vr.suspectedSpans fun spans =>
    forEach (fun i s => bailIf (Text.isBlank s = true)
      s!"verification_replay.suspected_spans[{i}] must be non-blank") spans

/-- One evidence query is well formed. -/
def EvidenceQuery.validateModel (q : EvidenceQuery) : Fallible Unit := do
  bailIf (Text.isBlank q.purpose = true)
    "evidence_query.purpose must be non-blank"
  bailIf (isBundledQueryLogicalPath q.sqlPath = false)
    (s!"evidence_query.sql_path = {q.sqlPath.display} must name a bundled SQL query as "
      ++ "`queries/<name>.sql`")
  bailIf (Text.isBlank q.outputPath = true)
    "evidence_query.output_path must be non-blank"
  bailIf (Text.isBlank q.keyObservation = true)
    "evidence_query.key_observation must be non-blank"
  bailIf (q.supportsInvocations = [])
    "evidence_query.supports_invocations must be non-empty"

/-- The evidence of a target is well formed and refers only to the target's
own invocations; it may be absent only where it is not required. -/
def validateEvidenceQueriesForReplay (evidenceQueries : List EvidenceQuery)
    (verificationReplay : Option VerificationReplay) (required : Bool) :
    Fallible Unit := do
  bailIf (required = true ∧ evidenceQueries = [])
    "bench-eligible target must carry at least one evidence_query"
  forEach (fun i q => do
    q.validateModel.context s!"evidence_queries[{i}]"
    match verificationReplay with
    | some vr =>
      forEach (fun _ id => bailIf (id ∉ vr.invocations.map fun inv => inv.id)
        (s!"evidence_queries[{i}].supports_invocations references unknown "
          ++ "invocation id " ++ Text.debug id)) q.supportsInvocations
    | none =>
      bailIf (q.supportsInvocations ≠ [])
        (s!"evidence_queries[{i}] cannot reference invocations when "
          ++ "verification_replay is absent")) evidenceQueries

/-- The rows of a run-id file name distinct invocations and real runs. -/
def InvocationRunIds.validateModel (ids : InvocationRunIds) : Fallible Unit :=
  scanDistinct (fun e => e.invocationId)
    (fun i e => s!"invocation_run_ids.entries[{i}]: duplicate invocation_id "
      ++ Text.debug e.invocationId)
    (fun i e => do
      bailIf (isValidInvocationId e.invocationId = false)
        (s!"invocation_run_ids.entries[{i}]: invocation_id = "
          ++ Text.debug e.invocationId
          ++ " does not match ^[a-z](?:[a-z0-9-]\x7b0,38\x7d[a-z0-9])?$")
      bailIf (e.runId ≤ 0)
        (s!"invocation_run_ids.entries[{i}]: run_id = {e.runId} must be > 0 "
          ++ "(stacks-bench DB primary keys are 1-indexed)"))
    (fun _ _ => Except.ok ())
    ids.entries

/-! ## What the validators accept -/

/-- What a replay must be for the validator to accept it. -/
structure VerificationReplay.Valid (vr : VerificationReplay) : Prop where
  /-- The measurement strategy is explained. -/
  rationale : Text.isBlank vr.rationale = false
  /-- There is something to run. -/
  nonempty : vr.invocations ≠ []
  /-- There is not too much to run. -/
  bounded : vr.invocations.length ≤ benchInvocationHardMax
  /-- An id names one invocation. -/
  nodup : (vr.invocations.map fun inv => inv.id).Nodup
  /-- Each invocation is well formed. -/
  each : ∀ inv ∈ vr.invocations, inv.validateModel = Except.ok ()
  /-- All invocations expect their signal on one axis. -/
  axis : ∀ inv ∈ vr.invocations, ∀ inv' ∈ vr.invocations,
    inv.expectedSignal.axis = inv'.expectedSignal.axis
  /-- Span hints say something. -/
  spans : ∀ spans ∈ vr.suspectedSpans, ∀ s ∈ spans, Text.isBlank s = false

theorem VerificationReplay.checkSharedAxis_ok_iff
    {invs : List BenchInvocation} {u : Unit} :
    checkSharedAxis invs = Except.ok u
      ↔ ∀ inv ∈ invs, ∀ inv' ∈ invs,
          inv.expectedSignal.axis = inv'.expectedSignal.axis := by
  cases invs with
  | nil => simp [checkSharedAxis]
  | cons first rest =>
    have hrest : checkSharedAxis (first :: rest) = Except.ok u
        ↔ ∀ inv ∈ rest, inv.expectedSignal.axis = first.expectedSignal.axis := by
      simp only [checkSharedAxis, forEachFrom_ok_iff, bailIf_ok_iff, not_not]
      constructor
      · intro h inv hinv
        obtain ⟨i, hi⟩ := List.mem_iff_getElem?.mp hinv
        exact h i inv hi
      · intro h i inv hi
        exact h inv (List.mem_of_getElem? hi)
    rw [hrest]
    constructor
    · intro h
      have hfirst : ∀ inv ∈ first :: rest,
          inv.expectedSignal.axis = first.expectedSignal.axis := by
        simpa using h
      intro inv hinv inv' hinv'
      rw [hfirst inv hinv, hfirst inv' hinv']
    · intro h inv hinv
      exact h inv (List.mem_cons_of_mem _ hinv) first List.mem_cons_self

/-- **The replay validator accepts exactly the valid replays.** -/
theorem VerificationReplay.validateModel_ok_iff {vr : VerificationReplay}
    {u : Unit} : vr.validateModel = Except.ok u ↔ vr.Valid := by
  have hspans : ∀ spans : List String, (forEach (fun i s =>
      bailIf (Text.isBlank s = true)
        s!"verification_replay.suspected_spans[{i}] must be non-blank") spans
          = Except.ok ()) ↔ ∀ s ∈ spans, Text.isBlank s = false := fun spans =>
    forEach_ok_iff_forall (by simp)
  unfold VerificationReplay.validateModel
  simp only [seq_ok_iff, bailIf_ok_iff, onSome_ok_iff, hspans,
    scanDistinct_ok_iff, context_ok_iff, checkSharedAxis_ok_iff, true_and,
    Bool.not_eq_true, not_lt]
  constructor
  · rintro ⟨hrat, hne, hmax, ⟨hnd, heach⟩, haxis, hsp⟩
    refine ⟨hrat, hne, hmax, hnd, fun inv hinv => ?_, haxis, hsp⟩
    obtain ⟨i, hi⟩ := List.mem_iff_getElem?.mp hinv
    exact heach i inv hi
  · rintro ⟨hrat, hne, hmax, hnd, heach, haxis, hsp⟩
    exact ⟨hrat, hne, hmax,
      ⟨hnd, fun i inv hi => heach inv (List.mem_of_getElem? hi)⟩, haxis, hsp⟩

/-- **The run-id validator accepts exactly the files whose invocation ids are
distinct and well formed and whose run ids are positive.** -/
theorem InvocationRunIds.validateModel_ok_iff {ids : InvocationRunIds}
    {u : Unit} : ids.validateModel = Except.ok u
      ↔ (ids.entries.map fun e => e.invocationId).Nodup
        ∧ ∀ e ∈ ids.entries,
            isValidInvocationId e.invocationId = true ∧ 0 < e.runId := by
  unfold InvocationRunIds.validateModel
  simp only [scanDistinct_ok_iff, seq_ok_iff, bailIf_ok_iff, and_true,
    Bool.not_eq_false, not_le]
  refine and_congr_right fun _ => ⟨fun h e he => ?_, fun h i e hi => ?_⟩
  · obtain ⟨i, hi⟩ := List.mem_iff_getElem?.mp he
    exact h i e hi
  · exact h e (List.mem_of_getElem? hi)

/-- **The evidence validator accepts exactly the well-formed evidence that
refers to the target's own invocations** – or to none, where no replay is
given – and an empty list only where it is not required. -/
theorem validateEvidenceQueriesForReplay_ok_iff {qs : List EvidenceQuery}
    {vr : Option VerificationReplay} {required : Bool} {u : Unit} :
    validateEvidenceQueriesForReplay qs vr required = Except.ok u
      ↔ (required = true → qs ≠ []) ∧ ∀ q ∈ qs,
          q.validateModel = Except.ok () ∧ match vr with
            | some vr => ∀ id ∈ q.supportsInvocations,
                id ∈ vr.invocations.map fun inv => inv.id
            | none => q.supportsInvocations = [] := by
  unfold validateEvidenceQueriesForReplay
  simp only [seq_ok_iff, bailIf_ok_iff, not_and]
  refine and_congr_right fun _ => forEach_ok_iff_forall fun i q => ?_
  cases vr with
  | none => simp
  | some vr =>
    simp only [seq_ok_iff, context_ok_iff]
    refine and_congr_right fun _ => forEach_ok_iff_forall fun _ id => ?_
    simp
