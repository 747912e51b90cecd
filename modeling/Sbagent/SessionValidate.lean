import Sbagent.Finalize
import Sbagent.JsonValue
import Sbagent.PhaseOutputs

/-!
# Validating a session's directory

`session validate` walks over what a session has left and reports what is missing.
Two of its checks are also made by the merge phase when it writes its document: that
every target of the accepted analyses is accounted for once, and that every accepted
family has its lens disposition once. They are written a second time here, over the map
that the analyses are read into rather than over the list of the accepted ones.

The two agree on every document (`checkTargetCoverage_eq_nil_iff` and
`checkLensDispositionCoverage_eq_nil_iff`). The command makes the checks only when the
document and the analyses can be read, and a document that is refused on reading is not
looked at any further: nothing is said of its coverage then, and that it cannot be read
is reported instead.
-/

open Fallible Keyed

namespace SessionValidate

/-! ## The report -/

/-- What is missing, and what is merely of another version. -/
structure ValidationReport where
  missing : List String
  schemaWarnings : List String
  deriving DecidableEq

/-- Nothing is missing. -/
def ValidationReport.ok (r : ValidationReport) : Bool := r.missing.isEmpty

/-- The JSON in a file, if the file can be read and holds any. -/
abbrev RawJson := Option Json

/-- What the command looks at. -/
structure Site where
  /-- Whether the files of the baseline are there, with something in them. -/
  baselineBenchRun : Bool
  baselineRerun : Bool
  benchList : Bool
  baselineHotspots : Bool
  baselineRunId : Bool
  baselineRerunId : Bool
  candidates : Option (OutputFile Candidates)
  candidatesJson : RawJson
  merge : MergeFiles
  targetsJson : RawJson
  summary : Bool
  summaryJson : RawJson
  /-- Whether a family has an analysis, with something in it. -/
  analysisJson : String → Bool
  analysisDirs : List AnalysisDir
  files : SessionFiles

/-! ## The checks

Each check of the source adds its messages to the report; here it returns them. -/

/-- A file has to be there, with something in it. -/
def requireNonEmpty (there : Bool) (label : String) : List String :=
  if there then [] else [label]

/-- A file that is there has the expected version. -/
def checkSchemaVersion (there : Bool) (v : RawJson) (label : String) (expected : ℕ) :
    List String :=
  match there, v with
  | true, some v =>
    let n := (v.get "schema_version").bind Json.asU64
    let found := (n.map toString).getD "<unset>"
    if n ≠ some expected then
      [s!"{label} schema_version={found} (expected {expected})"]
    else []
  | _, _ => []

/-- What a check has to say about a failure. -/
def failures {α : Type} (describe : String → String) : Fallible α → List String
  | Except.ok _ => []
  | Except.error e => [describe (alternate e)]

/-- The family and the index of every target of the accepted analyses. -/
def expectedTargets (analyses : Std.ExtTreeMap String Analysis) : Finset (String × ℕ) :=
  (analyses.toList.flatMap fun p =>
    match p.snd with
    | Analysis.accepted a => a.targets.zipIdx.map fun t => (p.fst, t.snd)
    | Analysis.rejected _ => []).toFinset

/-- The message about targets that are not accounted for once. -/
def targetCoverageMessage : String :=
  "optimization-targets.json target coverage invariant (every (family_id, target_index) "
    ++ "from accepted analyses must appear once across merged_from / rejected_by_merge)"

/-- Every accepted target is in one `merged_from` or in `rejected_by_merge`, once. -/
def checkTargetCoverage (analyses : Std.ExtTreeMap String Analysis)
    (o : OptimizationTargets) : List String :=
  let merged := o.targets.foldl
    (fun acc t => account acc (t.mergedFrom.map MergedFrom.pair)) (∅, false)
  let accounted := account merged (o.rejectedByMerge.map RejectedByMerge.pair)
  if accounted.fst ≠ expectedTargets analyses ∨ accounted.snd = true then
    [targetCoverageMessage]
  else []

/-- The families of the accepted analyses. -/
def expectedFamilies (analyses : Std.ExtTreeMap String Analysis) : Finset String :=
  (analyses.toList.filterMap fun p =>
    match p.snd with
    | Analysis.accepted _ => some p.fst
    | Analysis.rejected _ => none).toFinset

/-- The message about families without their lens disposition. -/
def lensCoverageMessage : String :=
  "optimization-targets.json lens_dispositions coverage (every accepted family_id must "
    ++ "appear once in lens_dispositions[])"

/-- Every accepted family is in `lens_dispositions`, once. -/
def checkLensDispositionCoverage (analyses : Std.ExtTreeMap String Analysis)
    (o : OptimizationTargets) : List String :=
  let present := account (∅, false) (o.lensDispositions.map fun d => d.familyId)
  if present.fst ≠ expectedFamilies analyses ∨ present.snd = true then
    [lensCoverageMessage]
  else []

namespace Site

variable (s : Site)

/-- Every candidate has its analysis. -/
def checkCandidates : List String :=
  if OutputFile.isNonEmptyFile s.candidates then
    match (contentsOf s.candidates).parseJson "triage/candidates.json" with
    | Except.ok cs =>
      failures (fun e => s!"candidates.json failed validation: {e}") cs.validateModel
        ++ cs.candidates.flatMap fun c =>
          requireNonEmpty (s.analysisJson c.id) s!"analysis/{c.id}/analysis.json"
    | Except.error e => [s!"candidates.json failed to parse: {alternate e}"]
  else []

/-- A target has the file that says how it ended. -/
def checkTarget (t : MergedTarget) : List String :=
  match t.deliveryMode with
  | DeliveryMode.consensusIssue =>
    requireNonEmpty ((s.files.consensusIssue t.id).any fun n => decide (0 < n))
      s!"optimize/{t.id}/consensus-issue.md (consensus_issue routing marker)"
  | DeliveryMode.normalPr | DeliveryMode.consensusPocPr =>
    match s.files.readOptimizerReportForTarget t.id t.deliveryMode with
    | Except.ok (some _) => []
    | Except.ok none =>
      [s!"optimize/{t.id}/optimizer-report.json (agent never wrote it; Phase 2 crashed or "
        ++ "didn't run)"]
    | Except.error e =>
      [s!"optimize/{t.id}/optimizer-report.json failed validation: {alternate e}"]

/-- The document against the analyses. -/
def checkCoverage (o : OptimizationTargets) : List String :=
  match readAllAnalyses s.analysisDirs with
  | Except.ok analyses =>
    analyses.toList.flatMap (fun p => failures
        (fun e => s!"analysis/{p.fst}/analysis.json failed validation: {e}")
        p.snd.validateModel)
      ++ checkTargetCoverage analyses o ++ checkLensDispositionCoverage analyses o
  | Except.error e => [s!"analysis/*/analysis.json failed to parse: {alternate e}"]

/-- The document, its targets and its coverage. -/
def checkTargets : List String :=
  if OutputFile.isNonEmptyFile s.merge.targets then
    match readOptimizationTargets (contentsOf s.merge.targets) with
    | Except.ok o =>
      failures (fun e => s!"optimization-targets.json failed validation: {e}") o.validateModel
        ++ o.targets.flatMap s.checkTarget ++ s.checkCoverage o
    | Except.error e => [s!"optimization-targets.json failed to parse: {alternate e}"]
  else []

/-- The files that have to be there. -/
def required : List String :=
  requireNonEmpty s.baselineBenchRun "baseline/bench-run.json"
    ++ requireNonEmpty s.baselineRerun "baseline/rerun.json"
    ++ requireNonEmpty s.benchList "baseline/bench-list.json"
    ++ requireNonEmpty s.baselineHotspots "baseline/profiler-hotspots.json"
    ++ requireNonEmpty s.baselineRunId "baseline/run-id"
    ++ requireNonEmpty s.baselineRerunId "baseline/rerun-id"
    ++ requireNonEmpty (OutputFile.isNonEmptyFile s.candidates) "triage/candidates.json"
    ++ requireNonEmpty (OutputFile.isNonEmptyFile s.merge.targets)
      "merge/optimization-targets.json"
    ++ requireNonEmpty (OutputFile.isNonEmptyFile s.merge.message) "merge/final-message.md"
    ++ requireNonEmpty s.summary "finalize/summary.json"

/-- The command. -/
def validate : ValidationReport where
  missing := s.required ++ s.checkCandidates ++ s.checkTargets
  schemaWarnings :=
    checkSchemaVersion (OutputFile.isNonEmptyFile s.candidates) s.candidatesJson
        "triage/candidates.json" 2
      ++ checkSchemaVersion (OutputFile.isNonEmptyFile s.merge.targets) s.targetsJson
        "merge/optimization-targets.json" 4
      ++ checkSchemaVersion s.summary s.summaryJson "finalize/summary.json" 4

/-- No failure of either coverage is reported. -/
def CoverageClean : Prop :=
  targetCoverageMessage ∉ s.validate.missing ∧ lensCoverageMessage ∉ s.validate.missing

end Site

/-- The accepted ones among the analyses that were read, each under its family. -/
def Holds (analyses : Std.ExtTreeMap String Analysis) (accepted : List AcceptedAnalysis) :
    Prop :=
  ∀ k a, analyses[k]? = some (Analysis.accepted a) ↔ a ∈ accepted ∧ a.familyId = k

/-! ## What the checks say -/

section Checks

variable {analyses : Std.ExtTreeMap String Analysis} {o : OptimizationTargets}
  {accepted : List AcceptedAnalysis}

/-- What was read from the directories is held. -/
theorem holds_acceptedAnalyses {dirs : List AnalysisDir}
    (h : readAllAnalyses dirs = Except.ok analyses) :
    Holds analyses (acceptedAnalyses analyses) := fun k a => by
  rw [mem_acceptedAnalyses]
  constructor
  · intro hk
    exact ⟨⟨k, hk⟩, (readAllAnalyses_ok h hk).left⟩
  · rintro ⟨⟨k', hk'⟩, rfl⟩
    obtain rfl : a.familyId = k' := (readAllAnalyses_ok h hk').left
    exact hk'

/-- Analyses of different families can always be held. -/
theorem holds_insertAll (hnd : (accepted.map fun a => a.familyId).Nodup) :
    Holds (insertAll compare (accepted.map fun a => (a.familyId, Analysis.accepted a)))
      accepted := fun k a => by
  rw [getElem?_insertAll_eq_some_iff (by rwa [List.map_map]), List.mem_map]
  constructor
  · rintro ⟨b, hb, heq⟩
    obtain ⟨rfl, hab⟩ := Prod.mk.inj heq
    obtain rfl := Analysis.accepted.inj hab
    exact ⟨hb, rfl⟩
  · rintro ⟨ha, rfl⟩
    exact ⟨a, ha, rfl⟩

theorem mem_expectedTargets {k : String × ℕ} : k ∈ expectedTargets analyses
    ↔ ∃ a c, analyses[k.fst]? = some (Analysis.accepted a) ∧ a.targets[k.snd]? = some c := by
  obtain ⟨family, index⟩ := k
  unfold expectedTargets
  rw [List.mem_toFinset, List.mem_flatMap]
  constructor
  · rintro ⟨⟨f, b⟩, hmem, hk⟩
    cases b with
    | rejected r => cases hk
    | accepted a =>
      obtain ⟨⟨c, i⟩, hc, heq⟩ := List.mem_map.mp hk
      obtain ⟨rfl, rfl⟩ := Prod.mk.inj heq
      exact ⟨a, c, Std.ExtTreeMap.mem_toList_iff_getElem?_eq_some.mp hmem,
        List.mk_mem_zipIdx_iff_getElem?.mp hc⟩
  · rintro ⟨a, c, ha, hc⟩
    exact ⟨(family, Analysis.accepted a),
      Std.ExtTreeMap.mem_toList_iff_getElem?_eq_some.mpr ha,
      List.mem_map.mpr ⟨(c, index), List.mk_mem_zipIdx_iff_getElem?.mpr hc, rfl⟩⟩

theorem mem_expectedFamilies {family : String} : family ∈ expectedFamilies analyses
    ↔ ∃ a, analyses[family]? = some (Analysis.accepted a) := by
  unfold expectedFamilies
  rw [List.mem_toFinset, List.mem_filterMap]
  constructor
  · rintro ⟨⟨f, b⟩, hmem, hf⟩
    cases b with
    | rejected r => cases hf
    | accepted a =>
      obtain rfl := Option.some.inj hf
      exact ⟨a, Std.ExtTreeMap.mem_toList_iff_getElem?_eq_some.mp hmem⟩
  · rintro ⟨a, ha⟩
    exact ⟨(family, Analysis.accepted a),
      Std.ExtTreeMap.mem_toList_iff_getElem?_eq_some.mpr ha, rfl⟩

/-- The two sets of expected targets are the same. -/
theorem expectedTargets_eq (h : Holds analyses accepted) :
    expectedTargets analyses = expectedPairs accepted := by
  ext k
  rw [mem_expectedTargets, mem_expectedPairs]
  constructor
  · rintro ⟨a, c, ha, hc⟩
    obtain ⟨hmem, hfamily⟩ := (h k.fst a).mp ha
    exact ⟨c, a, hmem, hfamily, hc⟩
  · rintro ⟨c, a, hmem, hfamily, hc⟩
    exact ⟨a, c, (h k.fst a).mpr ⟨hmem, hfamily⟩, hc⟩

/-- The two sets of expected families are the same. -/
theorem expectedFamilies_eq (h : Holds analyses accepted) :
    expectedFamilies analyses = acceptedFamilyIds accepted := by
  ext family
  rw [mem_expectedFamilies, acceptedFamilyIds, List.mem_toFinset, List.mem_map]
  exact exists_congr fun a => h family a

/-- Counting target by target is counting all of them at once. -/
theorem foldl_account {start : Finset (String × ℕ) × Bool} {ts : List MergedTarget} :
    ts.foldl (fun acc t => account acc (t.mergedFrom.map MergedFrom.pair)) start
      = account start (ts.flatMap fun t => t.mergedFrom.map MergedFrom.pair) := by
  induction ts generalizing start with
  | nil => rfl
  | cons t ts ih =>
    rw [List.foldl_cons, ih, List.flatMap_cons, account, account, account, List.foldl_append]

theorem checkTargetCoverage_eq_nil_iff : checkTargetCoverage analyses o = []
    ↔ ListsExactly (accountedPairs o) (expectedTargets analyses) := by
  have hall : account (o.targets.foldl (fun acc t =>
        account acc (t.mergedFrom.map MergedFrom.pair)) (∅, false))
        (o.rejectedByMerge.map RejectedByMerge.pair)
      = account (∅, false) (accountedPairs o) := by
    rw [foldl_account, accountedPairs, account, account, account, List.foldl_append]
  unfold checkTargetCoverage
  simp only [hall]
  rw [← account_ok_iff, ite_eq_right_iff, or_comm]
  simp

theorem checkLensDispositionCoverage_eq_nil_iff :
    checkLensDispositionCoverage analyses o = []
      ↔ ListsExactly (o.lensDispositions.map fun d => d.familyId)
        (expectedFamilies analyses) := by
  unfold checkLensDispositionCoverage
  rw [← account_ok_iff, ite_eq_right_iff, or_comm]
  simp

end Checks

/-! ## What the report says -/

/-- A message about something else than coverage. -/
def Unlike (m : String) : Prop := m ≠ targetCoverageMessage ∧ m ≠ lensCoverageMessage

instance (m : String) : Decidable (Unlike m) :=
  inferInstanceAs (Decidable (m ≠ targetCoverageMessage ∧ m ≠ lensCoverageMessage))

/-- A message that starts as neither of the two does is about something else. -/
theorem unlike_of_start {m p : String} (hm : Text.startsWith m p = true)
    (ht : Text.startsWith targetCoverageMessage p = false)
    (hl : Text.startsWith lensCoverageMessage p = false) : Unlike m := by
  constructor
  · rintro rfl
    exact Bool.false_ne_true (ht.symm.trans hm)
  · rintro rfl
    exact Bool.false_ne_true (hl.symm.trans hm)

theorem startsWith_append (p x : String) : Text.startsWith (p ++ x) p = true :=
  Text.startsWith_iff.mpr ⟨x.toList, by rw [String.toList_append]⟩

theorem startsWith_append_append (p x y : String) :
    Text.startsWith (p ++ x ++ y) p = true := by
  rw [String.append_assoc]
  exact startsWith_append p (x ++ y)

/-- A required file is missed under its label. -/
theorem mem_requireNonEmpty {there : Bool} {label m : String}
    (h : m ∈ requireNonEmpty there label) : m = label := by
  unfold requireNonEmpty at h
  split at h
  · cases h
  · exact List.mem_singleton.mp h

theorem mem_failures {α : Type} {describe : String → String} {x : Fallible α} {m : String}
    (h : m ∈ failures describe x) : ∃ e, m = describe e := by
  cases x with
  | ok a => cases h
  | error e => exact ⟨alternate e, List.mem_singleton.mp h⟩

namespace Site

variable {s : Site} {m : String}

theorem unlike_of_mem_required (h : m ∈ s.required) : Unlike m := by
  simp only [required, List.mem_append, or_assoc] at h
  obtain h | h | h | h | h | h | h | h | h | h := h <;>
  · obtain rfl := mem_requireNonEmpty h
    decide +kernel

theorem unlike_of_mem_checkCandidates (h : m ∈ s.checkCandidates) : Unlike m := by
  unfold checkCandidates at h
  split at h
  case isFalse => cases h
  case isTrue =>
    split at h
    case h_1 cs =>
      obtain hfailed | hmissing := List.mem_append.mp h
      · obtain ⟨e, rfl⟩ := mem_failures hfailed
        exact unlike_of_start (startsWith_append "candidates.json failed validation: " e)
          (by decide +kernel) (by decide +kernel)
      · obtain ⟨c, -, hc⟩ := List.mem_flatMap.mp hmissing
        obtain rfl := mem_requireNonEmpty hc
        exact unlike_of_start (startsWith_append_append "analysis/" c.id "/analysis.json")
          (by decide +kernel) (by decide +kernel)
    case h_2 e =>
      obtain rfl := List.mem_singleton.mp h
      exact unlike_of_start (startsWith_append "candidates.json failed to parse: " _)
        (by decide +kernel) (by decide +kernel)

theorem unlike_of_mem_checkTarget {t : MergedTarget} (h : m ∈ s.checkTarget t) :
    Unlike m := by
  -- every message about a target names a file in its directory
  have hunlike (x y : String) : Unlike ("optimize/" ++ x ++ y) :=
    unlike_of_start (startsWith_append_append "optimize/" x y) (by decide +kernel)
      (by decide +kernel)
  unfold checkTarget at h
  split at h
  case h_1 =>
    obtain rfl := mem_requireNonEmpty h
    exact hunlike _ _
  all_goals
    split at h
    · cases h
    · obtain rfl := List.mem_singleton.mp h
      rw [String.append_assoc]
      exact hunlike _ _
    · obtain rfl := List.mem_singleton.mp h
      rw [String.append_assoc]
      exact hunlike _ _

/-- **The coverage checks speak for themselves**: where the document and the analyses are
read, the report has their messages exactly if they return them. -/
theorem mem_validate_iff {o : OptimizationTargets}
    {analyses : Std.ExtTreeMap String Analysis} (hm : ¬ Unlike m)
    (hfile : OutputFile.isNonEmptyFile s.merge.targets = true)
    (ho : readOptimizationTargets (contentsOf s.merge.targets) = Except.ok o)
    (hanalyses : readAllAnalyses s.analysisDirs = Except.ok analyses) :
    m ∈ s.validate.missing
      ↔ m ∈ checkTargetCoverage analyses o ∨ m ∈ checkLensDispositionCoverage analyses o := by
  simp only [validate, checkTargets, hfile, if_true, ho, checkCoverage, hanalyses,
    List.mem_append]
  constructor
  · rintro ((hrequired | hcandidates) | (hvalid | htarget) | (hanalysis | htargets) | hlens)
    · exact absurd (unlike_of_mem_required hrequired) hm
    · exact absurd (unlike_of_mem_checkCandidates hcandidates) hm
    · obtain ⟨e, rfl⟩ := mem_failures hvalid
      exact absurd (unlike_of_start (startsWith_append
        "optimization-targets.json failed validation: " e) (by decide +kernel)
        (by decide +kernel)) hm
    · obtain ⟨t, -, ht⟩ := List.mem_flatMap.mp htarget
      exact absurd (unlike_of_mem_checkTarget ht) hm
    · obtain ⟨p, -, hp⟩ := List.mem_flatMap.mp hanalysis
      obtain ⟨e, rfl⟩ := mem_failures hp
      have hstart := startsWith_append_append "analysis/" p.fst
        ("/analysis.json failed validation: " ++ e)
      rw [← String.append_assoc] at hstart
      exact absurd (unlike_of_start hstart (by decide +kernel) (by decide +kernel)) hm
    · exact Or.inl htargets
    · exact Or.inr hlens
  · rintro (htargets | hlens)
    · exact Or.inr (Or.inr (Or.inl (Or.inr htargets)))
    · exact Or.inr (Or.inr (Or.inr hlens))

end Site

end SessionValidate

/-! ## The two checkers agree -/

open SessionValidate (Site Holds)

/-- The rules of the merge phase on coverage accept a document. -/
def CoverageAccepted (o : OptimizationTargets) (accepted : List AcceptedAnalysis) : Prop :=
  checkTargetCoverage o accepted = Except.ok ()
    ∧ checkLensDispositionCoverage o accepted = Except.ok ()

section Agreement

variable {analyses : Std.ExtTreeMap String Analysis} {o : OptimizationTargets}
  {accepted : List AcceptedAnalysis} {s : Site}

/-- Target by target and family by family, the checks return nothing where the merge phase
accepts. -/
theorem checks_eq_nil_iff (h : Holds analyses accepted) :
    SessionValidate.checkTargetCoverage analyses o = []
        ∧ SessionValidate.checkLensDispositionCoverage analyses o = []
      ↔ CoverageAccepted o accepted := by
  have hlens : checkLensDispositionCoverage o accepted = Except.ok ()
      ↔ ListsExactly (o.lensDispositions.map fun d => d.familyId)
        (acceptedFamilyIds accepted) := by
    unfold checkLensDispositionCoverage
    rw [bailIf_ok_iff, account_ok_iff]
  unfold CoverageAccepted
  rw [checkTargetCoverage_ok_iff, hlens, SessionValidate.checkTargetCoverage_eq_nil_iff,
    SessionValidate.checkLensDispositionCoverage_eq_nil_iff,
    SessionValidate.expectedTargets_eq h, SessionValidate.expectedFamilies_eq h]

/-- Either check has but its own message. -/
theorem mem_checkTargetCoverage {m : String} :
    m ∈ SessionValidate.checkTargetCoverage analyses o
      ↔ m = SessionValidate.targetCoverageMessage
        ∧ SessionValidate.checkTargetCoverage analyses o ≠ [] := by
  unfold SessionValidate.checkTargetCoverage
  dsimp only
  split <;> simp

theorem mem_checkLensDispositionCoverage {m : String} :
    m ∈ SessionValidate.checkLensDispositionCoverage analyses o
      ↔ m = SessionValidate.lensCoverageMessage
        ∧ SessionValidate.checkLensDispositionCoverage analyses o ≠ [] := by
  unfold SessionValidate.checkLensDispositionCoverage
  dsimp only
  split <;> simp

/-- **The command agrees with the merge phase** on what it can read. -/
theorem coverageClean_iff (hfile : OutputFile.isNonEmptyFile s.merge.targets = true)
    (ho : readOptimizationTargets (contentsOf s.merge.targets) = Except.ok o)
    (hanalyses : readAllAnalyses s.analysisDirs = Except.ok analyses) :
    s.CoverageClean ↔ CoverageAccepted o (acceptedAnalyses analyses) := by
  have hmessages : SessionValidate.targetCoverageMessage
      ≠ SessionValidate.lensCoverageMessage := by decide +kernel
  rw [← checks_eq_nil_iff (SessionValidate.holds_acceptedAnalyses hanalyses)]
  unfold Site.CoverageClean
  rw [Site.mem_validate_iff (by decide +kernel) hfile ho hanalyses,
    Site.mem_validate_iff (by decide +kernel) hfile ho hanalyses]
  simp only [mem_checkTargetCoverage, mem_checkLensDispositionCoverage, true_and,
    hmessages, hmessages.symm, false_and, or_false, false_or, ne_eq, not_not]

/-- What the merge phase returned with is accepted, and can be read. -/
theorem accepted_of_returned {i : MergeInputs} {before files : MergeFiles}
    {outputs : MergeOutputs} (h : i.run before = (MergeEnd.returned outputs, files)) :
    ∃ o analyses, files.targets = some ⟨true, FileRead.parsed o, i.now⟩
      ∧ o.validateModel = Except.ok () ∧ readAllAnalyses i.analysisDirs = Except.ok analyses
      ∧ CoverageAccepted o (acceptedAnalyses analyses) := by
  -- every way of returning goes through the validator, with what the plan has read
  have hgate {o accepted decisions}
      (hvalid : validateMergeOutputWithDedup o accepted decisions = Except.ok ()) :
      o.validateModel = Except.ok () ∧ CoverageAccepted o accepted := by
    unfold validateMergeOutputWithDedup at hvalid
    simp only [seq_ok_iff, context_ok_iff] at hvalid
    exact ⟨hvalid.left, hvalid.right.left, hvalid.right.right.right.right.left⟩
  obtain ⟨o, hfiles, ⟨c, -, hplan, rfl⟩ | ⟨c, accepted, decisions, -, hplan, rfl⟩
    | ⟨accepted, decisions, o', hplan, -, rfl, hvalid⟩⟩ := MergeInputs.run_cases h
  · obtain ⟨c', analyses, -, hread, ⟨hnone, -⟩ | ⟨p, -, ⟨-, heq⟩ | heq⟩⟩ := plan_ok hplan
    · refine ⟨_, analyses, hfiles, ?_, hread, ?_⟩
      · exact (hgate (validate_of_empty c)).left
      · rw [hnone]
        exact (hgate (validate_of_empty c)).right
    · cases heq
    · cases heq
  · obtain ⟨c', analyses, -, hread, ⟨-, heq⟩ | ⟨p, -, ⟨-, heq⟩ | heq⟩⟩ := plan_ok hplan
    · cases heq
    · obtain ⟨rfl, rfl, rfl⟩ := MergePlan.dedupOnly.inj heq
      obtain ⟨hmodel, hcoverage⟩ := hgate (validate_of_dedupOnly hplan)
      exact ⟨_, analyses, hfiles, hmodel, hread, hcoverage⟩
    · cases heq
  · obtain ⟨c', analyses, -, hread, ⟨-, heq⟩ | ⟨p, -, ⟨-, heq⟩ | heq⟩⟩ := plan_ok hplan
    · cases heq
    · cases heq
    · obtain ⟨rfl, rfl⟩ := MergePlan.ask.inj heq
      obtain ⟨hmodel, hcoverage⟩ := hgate hvalid
      exact ⟨_, analyses, hfiles, hmodel, hread, hcoverage⟩

end Agreement

/-- **Two checkers, one rule.** On every document and every map of analyses the two checks
of the command return nothing exactly if the rules of the merge phase accept. So the
command reports neither failure of what it can read exactly if they do; a document that it
cannot read it reports as such; and of what the merge phase returned with it reports
neither. -/
theorem coverage_checks_agree (s : Site) :
    (∀ analyses accepted o, Holds analyses accepted →
      (SessionValidate.checkTargetCoverage analyses o = []
          ∧ SessionValidate.checkLensDispositionCoverage analyses o = []
        ↔ CoverageAccepted o accepted))
    ∧ (OutputFile.isNonEmptyFile s.merge.targets = true → ∀ o analyses,
      readOptimizationTargets (contentsOf s.merge.targets) = Except.ok o →
      readAllAnalyses s.analysisDirs = Except.ok analyses →
        (s.CoverageClean ↔ CoverageAccepted o (acceptedAnalyses analyses)))
    ∧ (OutputFile.isNonEmptyFile s.merge.targets = true → ∀ e,
      readOptimizationTargets (contentsOf s.merge.targets) = Except.error e →
        s!"optimization-targets.json failed to parse: {alternate e}" ∈ s.validate.missing)
    ∧ ∀ (i : MergeInputs) (before : MergeFiles) (outputs : MergeOutputs),
      i.run before = (MergeEnd.returned outputs, s.merge) →
      i.analysisDirs = s.analysisDirs → s.CoverageClean := by
  refine ⟨fun _ _ _ hholds => checks_eq_nil_iff hholds,
    fun hfile _ _ ho hanalyses => coverageClean_iff hfile ho hanalyses,
    fun hfile e he => ?_, fun i before outputs hrun hdirs => ?_⟩
  · unfold Site.validate Site.checkTargets
    rw [if_pos hfile, he]
    exact List.mem_append_right _ (List.mem_singleton.mpr rfl)
  · obtain ⟨o, analyses, hfiles, hmodel, hanalyses, haccepted⟩ := accepted_of_returned hrun
    have hfile : OutputFile.isNonEmptyFile s.merge.targets = true := by
      rw [hfiles]
      rfl
    have ho : readOptimizationTargets (contentsOf s.merge.targets) = Except.ok o := by
      rw [hfiles]
      exact FileRead.parseValidated_ok_iff.mpr ⟨rfl, hmodel⟩
    rw [hdirs] at hanalyses
    exact (coverageClean_iff hfile ho hanalyses).mpr haccepted

/-- A session of which only the document, and an analysis with one target, is left. -/
def siteOf (merge : MergeFiles) : Site where
  baselineBenchRun := false
  baselineRerun := false
  benchList := false
  baselineHotspots := false
  baselineRunId := false
  baselineRerunId := false
  candidates := none
  candidatesJson := none
  merge := merge
  targetsJson := none
  summary := false
  summaryJson := none
  analysisJson := fun _ => false
  analysisDirs := [⟨"fam-a", FileRead.parsed (Analysis.accepted
    (analysisOf "fam-a" ["fix-a"]))⟩]
  files := {
    id := "20260614"
    optimizerReport := fun _ => FileRead.notFound
    consensusIssue := fun _ => none
    coordinatorProvenance := fun _ => FileRead.notFound
    candidateRunIds := fun _ => FileRead.notFound
    baselineRunIds := fun _ => FileRead.notFound
    resultsAnalysis := fun _ => FileRead.notFound
    source := FileRead.notFound }

/-- The merge of one analysis, whose agent accounts for its target. -/
def coveringMerge : MergeInputs :=
  oneTargetMerge (documentOf ["fam-a"] [issueTarget "fix-a" [⟨"fam-a", 0⟩]] [])

/-- A document that forgets a target, and cannot be read: a lens is said not to be
actionable and no reason is given. -/
def unreadableDocument : OptimizationTargets :=
  { documentOf [] [] [] with
    lensDispositions :=
      [⟨"fam-a", SelectionLens.txLatency, LensDispositionStatus.notActionable, none⟩] }

/-- The map that holds that analysis. -/
def heldAnalyses : Std.ExtTreeMap String Analysis :=
  insertAll compare ([analysisOf "fam-a" ["fix-a"]].map fun a =>
    (a.familyId, Analysis.accepted a))

theorem coverage_checks_agree_coveringMerge :
    (siteOf (coveringMerge.run ⟨none, none⟩).snd).CoverageClean
    ∧ (SessionValidate.checkTargetCoverage heldAnalyses unreadableDocument = []
        ∧ SessionValidate.checkLensDispositionCoverage heldAnalyses unreadableDocument = []
      ↔ CoverageAccepted unreadableDocument [analysisOf "fam-a" ["fix-a"]]) :=
  let agree := coverage_checks_agree (siteOf (coveringMerge.run ⟨none, none⟩).snd)
  ⟨agree.right.right.right coveringMerge ⟨none, none⟩ ⟨1, 1, false, 0, true, none⟩
      (Prod.ext (by decide +kernel) rfl) rfl,
    agree.left heldAnalyses [analysisOf "fam-a" ["fix-a"]] unreadableDocument
      (SessionValidate.holds_insertAll (List.nodup_singleton "fam-a"))⟩

/-- **Nothing is said of the coverage of a document that is refused on reading.** -/
theorem not_coverage_checks_agree_of_unreadable :
    ¬ ∀ (s : Site) (o : OptimizationTargets) (analyses : Std.ExtTreeMap String Analysis),
      OutputFile.isNonEmptyFile s.merge.targets = true →
      contentsOf s.merge.targets = FileRead.parsed o →
      readAllAnalyses s.analysisDirs = Except.ok analyses →
        (s.CoverageClean ↔ CoverageAccepted o (acceptedAnalyses analyses)) := by
  intro h
  let s := siteOf ⟨some ⟨true, FileRead.parsed unreadableDocument, 1⟩, none⟩
  obtain ⟨analyses, hanalyses⟩ := isOk_iff.mp
    (by decide +kernel : (readAllAnalyses s.analysisDirs).isOk = true)
  have hclean : s.CoverageClean := by
    unfold Site.CoverageClean
    decide +kernel
  have hrefused : (readAllAnalyses s.analysisDirs >>= fun analyses =>
      checkTargetCoverage unreadableDocument (acceptedAnalyses analyses)).isOk = false := by
    decide +kernel
  have haccepted := ((h s unreadableDocument analyses rfl rfl hanalyses).mp hclean).left
  rw [bind_ok_iff.mpr ⟨analyses, hanalyses, haccepted⟩] at hrefused
  cases hrefused
