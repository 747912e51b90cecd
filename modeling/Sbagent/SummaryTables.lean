import Sbagent.Finalize
import Sbagent.HistoryTables

/-!
# The tables of a summary

The summary of a session has tables of what was found, of the verdict on each target, of
the outcomes, of the targets by bucket and lens, of the experiments and of what is not
actionable, and the catalog of its targets has tables of what the merge has rejected and of
what became of the lenses. The rows are put together by hand, from the ids and reasons that
agents have written. Only the tables are modelled, not the text between them.
-/

open MarkdownTable HistoryReport
open Std (ExtTreeMap)

namespace SummaryTables

/-! ## Words for what the documents say -/

/-- A delivery mode as it is shown. -/
def humanizeDeliveryMode : DeliveryMode → String
  | DeliveryMode.normalPr => "Normal PR"
  | DeliveryMode.consensusPocPr => "Consensus PoC PR"
  | DeliveryMode.consensusIssue => "Consensus issue"

/-- A bucket as it is shown. -/
def humanizeBucket : Bucket → String
  | Bucket.blockProcessing => "Block processing"
  | Bucket.blockCommit => "Block commit"

/-- A lens as it is shown. -/
def humanizeLens : SelectionLens → String
  | SelectionLens.txLatency => "Tx latency"
  | SelectionLens.tenureThroughput => "Tenure throughput"
  | SelectionLens.commitTime => "Commit time"

/-- The outcome of an experiment as it is shown. -/
def humanizeStatus : ExperimentStatus → String
  | ExperimentStatus.accepted => "Accepted"
  | ExperimentStatus.rejected => "Rejected"
  | ExperimentStatus.aborted => "Aborted"
  | ExperimentStatus.pocLanded => "PoC landed"
  | ExperimentStatus.routedToIssue => "Routed to issue"

/-- The outcome of a lens as it is shown. -/
def humanizeLensDispositionStatus : LensDispositionStatus → String
  | LensDispositionStatus.addressed => "Addressed"
  | LensDispositionStatus.notActionable => "Not actionable"

/-- The class of a consensus change as it is shown. -/
def humanizeBreakageClass : BreakageClass → String
  | BreakageClass.clarityCostWeight => "Clarity cost weight"
  | BreakageClass.clarityVmBehavior => "Clarity VM behavior"
  | BreakageClass.miningFlow => "Mining flow"
  | BreakageClass.blockValidation => "Block validation"
  | BreakageClass.marfLayout => "MARF layout"
  | BreakageClass.onChainFormat => "On-chain format"

/-! ## Excerpts -/

/-- A text up to its first empty line. -/
def firstParagraph : List Char → List Char
  | [] => []
  | c :: cs => if c = '\n' ∧ cs.head? = some '\n' then [] else c :: firstParagraph cs

/-- The words of the first paragraph, cut to a number of characters. -/
def excerptParagraph (text : String) (maxChars : ℕ) : String :=
  let firstPara := Text.trim (String.ofList (firstParagraph text.toList))
  let normalized := [' '].intercalate ((Text.splitWhitespace firstPara).map String.toList)
  if normalized = [] then ""
  else if normalized.length ≤ maxChars then String.ofList normalized
  else String.ofList (normalized.take (maxChars - 1)) ++ "…"

/-! ## Links -/

/-- The link to the analysis of a family. -/
def familyLink (fid : String) : String :=
  "[" ++ fid ++ "](../analysis/" ++ fid ++ "/analysis.json)"

/-- The link to the directory of a target. -/
def targetLink (tid : String) : String := "[" ++ tid ++ "](../optimize/" ++ tid ++ "/)"

/-- A target id is its own anchor. -/
def anchorFromTargetId (id : String) : String := id

/-- The outcome of an experiment, with a link to the file that tells of it. -/
def renderStatusLink (targetId : String) (status : ExperimentStatus) : String :=
  let file := match status with
    | ExperimentStatus.accepted => "implementation.md"
    | ExperimentStatus.rejected => "implementation.md"
    | ExperimentStatus.pocLanded => "implementation.md"
    | ExperimentStatus.routedToIssue => "consensus-issue.md"
    | ExperimentStatus.aborted => "abort.md"
  "[" ++ humanizeStatus status ++ "](../optimize/" ++ targetId ++ "/" ++ file ++ ")"

/-- The link of a run, if the invocation it is of is known. -/
def runLink (targetId : String) (id : ℤ) : Option String → String
  | some label => "[" ++ toString id ++ "](../optimize/" ++ targetId ++ "/" ++ label
      ++ "/bench-run.json)"
  | none => toString id

/-- Texts with commas between them. -/
def commaList (parts : List String) : String :=
  String.ofList ([',', ' '].intercalate (parts.map String.toList))

/-- The runs of an experiment, or a dash where there are none. -/
def renderRunIds (targetId : String) (runIds : Option (List ℤ))
    (invocationIds : Option (List String)) : String :=
  match runIds with
  | none => "—"
  | some ids =>
    if ids = [] then "—"
    else commaList (ids.mapIdx fun idx id =>
      runLink targetId id (invocationIds.bind fun labels => labels[idx]?))

/-! ## The tables of the summary -/

/-- The first target that a family went into. -/
def familyToTarget (targets : OptimizationTargets) : ExtTreeMap String String :=
  targets.targets.foldl (fun m t =>
    t.mergedFrom.foldl (fun m mf => m.insertIfNew mf.familyId t.id) m) ∅

/-- What became of a family. -/
def disposition (targets : OptimizationTargets) (fid : String) : Analysis → String
  | Analysis.accepted acc =>
    match acc.lensDisposition.status with
    | LensDispositionStatus.addressed =>
      match (familyToTarget targets)[fid]? with
      | some tid => "→ contributed to **[" ++ tid ++ "](#" ++ anchorFromTargetId tid ++ ")** ("
          ++ toString acc.targets.length ++ " target(s) proposed)"
      | none => "→ analyzer proposed " ++ toString acc.targets.length
          ++ " target(s) but none merged — see [rejected-by-merge](targets.md#rejected-by-merge)"
    | LensDispositionStatus.notActionable => "not_actionable — "
        ++ (acc.lensDisposition.reason.map fun r => excerptParagraph r 200).getD
          "no reason recorded"
  | Analysis.rejected rej => "rejected by analyzer — " ++ excerptParagraph rej.reason 200

/-- The lens of an analysis, if it was accepted. -/
def lensCell : Analysis → String
  | Analysis.accepted acc => humanizeLens acc.selectionLens
  | Analysis.rejected _ => "—"

/-- What each family came to. -/
def renderWhatWasFound (targets : OptimizationTargets) (analyses : ExtTreeMap String Analysis) :
    Table where
  header := ["Family", "Lens", "Disposition"]
  delimiter := ["------", "----", "-----------"]
  rows := analyses.toList.map fun p =>
    [familyLink p.1, lensCell p.2, disposition targets p.1 p.2]
  clean := by decide
  delimited := rfl
  width := List.forall_mem_map.mpr fun _ _ => rfl

/-- The table of a verdict, with a row for each invocation. -/
def renderVerdictBlock (t : MergedTarget) (v : ResultsAnalysis) : Table where
  header := ["Invocation", "Baseline", "Candidate", "Measured", "Matches expected?"]
  delimiter := ["----------", "--------", "---------", "--------", "-----------------"]
  rows := v.perInvocation.map fun row =>
    [row.label,
      "[" ++ toString row.baselineRunId ++ "](../verify/" ++ t.id ++ "/" ++ row.invocationId
        ++ "/bench-run.json)",
      "[" ++ toString row.candidateRunId ++ "](../optimize/" ++ t.id ++ "/" ++ row.invocationId
        ++ "/bench-run.json)",
      String.ofList (row.measuredPct.fixedSigned 2) ++ "%",
      if row.matchesExpectedSignal then "yes" else "no"]
  clean := by decide
  delimited := rfl
  width := List.forall_mem_map.mpr fun _ _ => rfl

/-- How many experiments ended in which way. -/
def outcomes (counts : OutcomeCounts) : Table where
  header := ["Delivery mode   ", "Counts                                      "]
  delimiter := ["----------------", "--------------------------------------------"]
  rows :=
    [["Normal PR       ", "Accepted " ++ toString counts.normalPr.accepted.toNat
        ++ " · Rejected " ++ toString counts.normalPr.rejected.toNat
        ++ " · Aborted " ++ toString counts.normalPr.aborted.toNat],
      ["Consensus PoC PR", "PoC landed " ++ toString counts.consensusPocPr.pocLanded.toNat
        ++ " · Aborted " ++ toString counts.consensusPocPr.aborted.toNat],
      ["Consensus issue ", "Routed to issue "
        ++ toString counts.consensusIssue.routedToIssue.toNat
        ++ " · Aborted " ++ toString counts.consensusIssue.aborted.toNat]]
  clean := by decide
  delimited := rfl
  width := by simp

/-- The lens of the first analysis that a target was merged from. -/
def primaryLens (analyses : ExtTreeMap String Analysis) (t : MergedTarget) :
    Option SelectionLens :=
  t.mergedFrom.head?.bind fun mf =>
    match analyses[mf.familyId]? with
    | some (Analysis.accepted acc) => some acc.selectionLens
    | _ => none

/-- The number of targets of a bucket and a lens. -/
def coverageCell (targets : OptimizationTargets) (analyses : ExtTreeMap String Analysis)
    (bucket : Bucket) (lens : SelectionLens) : String :=
  let n := targets.targets.countP fun t =>
    t.bucket = bucket ∧ primaryLens analyses t = some lens
  if n = 0 then "-" else toString n

/-- How many targets there are of each bucket and lens. -/
def renderCoverageMatrix (targets : OptimizationTargets)
    (analyses : ExtTreeMap String Analysis) : Table where
  header := ["                ", "Tx latency", "Tenure throughput", "Commit time"]
  delimiter := ["----------------", "----------", "-----------------", "-----------"]
  rows := [Bucket.blockProcessing, Bucket.blockCommit].map fun bucket =>
    [humanizeBucket bucket, coverageCell targets analyses bucket SelectionLens.txLatency,
      coverageCell targets analyses bucket SelectionLens.tenureThroughput,
      coverageCell targets analyses bucket SelectionLens.commitTime]
  clean := by decide
  delimited := rfl
  width := List.forall_mem_map.mpr fun _ _ => rfl

/-- The invocations of the target that an experiment is about. -/
def invocationIds (targets : OptimizationTargets) (e : Experiment) : Option (List String) :=
  ((targets.targets.find? fun t => t.id = e.targetId).bind fun t => t.verificationReplay).map
    fun vr => vr.invocations.map fun i => i.id

/-- The reason of an experiment, and what it would break. -/
def experimentNotes (e : Experiment) : String :=
  let reason := e.reason.getD ""
  match e.breakageClass with
  | none => reason
  | some bc => (if reason = "" then reason else reason ++ "; ") ++ "breakage class: "
      ++ humanizeBreakageClass bc

/-- The experiments, one row each. -/
def atAGlance (summary : Summary) (targets : OptimizationTargets) : Table where
  header := ["Target", "Delivery mode", "Status", "Improvement", "Run ids", "Notes"]
  delimiter := ["------", "-------------", "------", "-----------", "-------", "-----"]
  rows := summary.experiments.map fun e =>
    [targetLink e.targetId, humanizeDeliveryMode e.deliveryMode,
      renderStatusLink e.targetId e.status,
      (e.improvementPct.map fun v => String.ofList (v.fixed 2) ++ "%").getD "—",
      renderRunIds e.targetId e.runIds (invocationIds targets e), experimentNotes e]
  clean := by decide
  delimited := rfl
  width := List.forall_mem_map.mpr fun _ _ => rfl

/-- The families that left nothing to do. -/
def notActionable (dispositions : List LensDispositionEntry) : Table where
  header := ["Family", "Lens", "Reason"]
  delimiter := ["------", "----", "------"]
  rows := dispositions.map fun d =>
    [familyLink d.familyId, humanizeLens d.lens, d.reason.getD "(no reason)"]
  clean := by decide
  delimited := rfl
  width := List.forall_mem_map.mpr fun _ _ => rfl

/-- The tables of the summary, in order. -/
def renderSummaryMd (summary : Summary) (targets : OptimizationTargets)
    (analyses : ExtTreeMap String Analysis) (verdicts : VerdictMap) : List Table :=
  let n := summary.lensDispositions.filter fun d => d.status = LensDispositionStatus.notActionable
  (if analyses.toList.isEmpty then [] else [renderWhatWasFound targets analyses])
    ++ (targets.targets.flatMap fun t =>
      match verdicts[t.id]? with
      | none => []
      | some v => if v.perInvocation.isEmpty then [] else [renderVerdictBlock t v])
    ++ [outcomes summary.outcomeCounts, renderCoverageMatrix targets analyses,
      atAGlance summary targets]
    ++ if n.isEmpty then [] else [notActionable n]

/-! ## The tables of the catalog -/

/-- What the merge has rejected, and why. -/
def rejectedByMerge (rejected : List RejectedByMerge) : Table where
  header := ["Family", "Target index", "Reason"]
  delimiter := ["------", "------------", "------"]
  rows := rejected.map fun r => [familyLink r.familyId, toString r.targetIndex, r.reason]
  clean := by decide
  delimited := rfl
  width := List.forall_mem_map.mpr fun _ _ => rfl

/-- What became of the lens of each family. -/
def lensDispositions (dispositions : List LensDispositionEntry) : Table where
  header := ["Family", "Lens", "Status", "Reason"]
  delimiter := ["------", "----", "------", "------"]
  rows := dispositions.map fun d =>
    [familyLink d.familyId, humanizeLens d.lens, humanizeLensDispositionStatus d.status,
      d.reason.getD "—"]
  clean := by decide
  delimited := rfl
  width := List.forall_mem_map.mpr fun _ _ => rfl

/-- The tables of the catalog, in order. -/
def renderTargetsMd (targets : OptimizationTargets) : List Table :=
  (if targets.rejectedByMerge.isEmpty then [] else [rejectedByMerge targets.rejectedByMerge])
    ++ if targets.lensDispositions.isEmpty then []
      else [lensDispositions targets.lensDispositions]

/-! ## What is put into the cells -/

/-- No text has a line break or a bar. -/
def AllClean (texts : List String) : Prop := ∀ text ∈ texts, Clean text.toList

/-- The texts of others in the row of a family. -/
def dispositionTexts (targets : OptimizationTargets) (fid : String) : Analysis → List String
  | Analysis.accepted acc =>
    match acc.lensDisposition.status with
    | LensDispositionStatus.addressed => (familyToTarget targets)[fid]?.toList
    | LensDispositionStatus.notActionable =>
      (acc.lensDisposition.reason.map fun r => excerptParagraph r 200).toList
  | Analysis.rejected rej => [excerptParagraph rej.reason 200]

/-- The ids of invocations that runs are linked to. -/
def linkedIds (runIds : Option (List ℤ)) (invocationIds : Option (List String)) :
    List String :=
  (invocationIds.getD []).take (runIds.getD []).length

/-- The texts of others in the row of an experiment. -/
def experimentTexts (targets : OptimizationTargets) (e : Experiment) : List String :=
  e.targetId :: (linkedIds e.runIds (invocationIds targets e) ++ e.reason.toList)

/-- The texts of others in the row of a disposition. -/
def entryTexts (d : LensDispositionEntry) : List String := d.familyId :: d.reason.toList

/-- The texts in the cells of the summary: ids of families, targets and invocations,
labels, reasons and excerpts of reasons. -/
def summaryTexts (summary : Summary) (targets : OptimizationTargets)
    (analyses : ExtTreeMap String Analysis) (verdicts : VerdictMap) : List String :=
  (analyses.toList.flatMap fun p => p.1 :: dispositionTexts targets p.1 p.2)
    ++ (targets.targets.flatMap fun t =>
      (verdicts[t.id]?.toList.flatMap fun v => v.perInvocation).flatMap fun row =>
        [row.label, t.id, row.invocationId])
    ++ summary.experiments.flatMap (experimentTexts targets)
    ++ (summary.lensDispositions.filter fun d =>
      d.status = LensDispositionStatus.notActionable).flatMap entryTexts

/-- The texts in the cells of the catalog. -/
def catalogTexts (targets : OptimizationTargets) : List String :=
  (targets.rejectedByMerge.flatMap fun r => [r.familyId, r.reason])
    ++ targets.lensDispositions.flatMap entryTexts

section Cells

variable {texts more : List String} {a b f g : String}

/-- One text after the other. -/
theorem allClean_cons : AllClean (a :: texts) ↔ Clean a.toList ∧ AllClean texts :=
  List.forall_mem_cons

/-- The texts of two lists. -/
theorem allClean_append : AllClean (texts ++ more) ↔ AllClean texts ∧ AllClean more :=
  List.forall_mem_append

@[simp] theorem allClean_nil : AllClean [] := fun _ h => absurd h List.not_mem_nil

/-- Characters that leave a cell as it is. -/
def Plain (s : String) : Prop := s.toList.all isPlain = true

instance : DecidablePred Plain := fun s =>
  inferInstanceAs (Decidable (s.toList.all isPlain = true))

theorem Plain.forall (h : Plain f) : ∀ d ∈ f.toList, isPlain d = true := List.all_eq_true.mp h

/-- A plain text has neither bar nor line break. -/
theorem Plain.clean (h : Plain f) : Clean f.toList := clean_of_isPlain h.forall

/-- Plain texts are plain together. -/
theorem Plain.append (hf : Plain f) (hg : Plain g) : Plain (f ++ g) := by
  unfold Plain at *
  rw [String.toList_append, List.all_append, hf, hg]
  rfl

/-- A number is plain. -/
theorem plain_toString (n : ℕ) : Plain (toString n) :=
  List.all_eq_true.mpr fun _ h => isPlain_of_mem_toString h

/-- An integer is plain, with its sign. -/
theorem plain_toString_int (n : ℤ) : Plain (toString n) := by
  cases n with
  | ofNat n => exact plain_toString n
  | negSucc n => exact Plain.append (by decide) (plain_toString (n + 1))

/-- What is written of a float is plain. -/
theorem plain_of_isNumeral {cs : List Char} (h : ∀ c ∈ cs, F64.isNumeral c = true) :
    Plain (String.ofList cs) := by
  unfold Plain
  rw [String.toList_ofList]
  exact List.all_eq_true.mpr fun d hd => isPlain_of_isNumeral (h d hd)

/-- A text between two plain ones. -/
theorem clean_between (hf : Plain f) (hg : Plain g) :
    Clean (f ++ a ++ g).toList ↔ Clean a.toList := by
  rw [String.toList_append, String.toList_append, clean_append_plain hg.forall,
    clean_plain_append hf.forall]

/-- Two texts with plain ones around and between them. -/
theorem clean_between_two {m : String} (hf : Plain f) (hm : Plain m) (hne : m.toList ≠ [])
    (hg : Plain g) : Clean (f ++ a ++ m ++ b ++ g).toList ↔ Clean a.toList ∧ Clean b.toList := by
  rw [String.toList_append, clean_append_plain hg.forall]
  simp only [String.toList_append, List.append_assoc]
  rw [clean_plain_append hf.forall, clean_append_plain_append hne hm.forall]

/-- A link to a family is as clean as the id. -/
theorem clean_familyLink_iff {fid : String} :
    Clean (familyLink fid).toList ↔ Clean fid.toList :=
  (clean_between_two (by decide) (by decide) (by decide) (by decide)).trans and_self_iff

/-- A link to a target is as clean as the id. -/
theorem clean_targetLink_iff {tid : String} :
    Clean (targetLink tid).toList ↔ Clean tid.toList :=
  (clean_between_two (by decide) (by decide) (by decide) (by decide)).trans and_self_iff

/-- So is the link to the file of an outcome. -/
theorem clean_renderStatusLink_iff {tid : String} {status : ExperimentStatus} :
    Clean (renderStatusLink tid status).toList ↔ Clean tid.toList := by
  unfold renderStatusLink
  have hfile (file : String) (h : Plain file) : Clean ("[" ++ humanizeStatus status
      ++ "](../optimize/" ++ tid ++ "/" ++ file ++ ")").toList ↔ Clean tid.toList := by
    have hlabel : Plain (humanizeStatus status) := by cases status <;> decide
    have hfront : Plain ("[" ++ humanizeStatus status ++ "](../optimize/") :=
      (Plain.append (by decide) hlabel).append (by decide)
    have hback : Plain ("/" ++ file ++ ")") :=
      (Plain.append (by decide) h).append (by decide)
    have hlink := clean_between (a := tid) hfront hback
    simp only [String.append_assoc] at hlink ⊢
    exact hlink
  cases status <;> exact hfile _ (by decide)

/-- A link to a run is as clean as its label. -/
theorem clean_runLink_iff {tid : String} {id : ℤ} {label : Option String}
    (htid : Clean tid.toList) :
    Clean (runLink tid id label).toList ↔ AllClean label.toList := by
  cases label with
  | none => exact iff_of_true (plain_toString_int id).clean allClean_nil
  | some label =>
    have hfront : Plain ("[" ++ toString id ++ "](../optimize/") :=
      (Plain.append (by decide) (plain_toString_int id)).append (by decide)
    have hlink : Clean (runLink tid id (some label)).toList
        ↔ Clean tid.toList ∧ Clean label.toList :=
      clean_between_two hfront (by decide) (by decide) (by decide)
    rw [hlink, and_iff_right htid, Option.toList_some, allClean_cons]
    exact (and_iff_left allClean_nil).symm

/-- Parts between commas are as clean as each of them. -/
theorem clean_commaList_iff {parts : List String} :
    Clean (commaList parts).toList ↔ AllClean parts := by
  unfold commaList
  rw [String.toList_ofList]
  induction parts with
  | nil => exact iff_of_true (by decide) allClean_nil
  | cons a parts ih =>
    cases parts with
    | nil =>
      rw [allClean_cons, List.map_singleton, List.intercalate_singleton]
      exact (and_iff_left allClean_nil).symm
    | cons b parts =>
      rw [List.map_cons] at ih
      rw [allClean_cons, ← ih, List.map_cons, List.map_cons, List.intercalate_cons_cons,
        List.append_assoc, clean_append_plain_append (List.cons_ne_nil _ _) (List.all_eq_true.mp (by decide))]

theorem clean_dash : Clean "—".toList := Plain.clean (by decide)

/-- The labels that stand in a list of runs are those of invocations that ran. -/
theorem mem_linkedIds_iff {ids : List ℤ} {invocations : Option (List String)} {label : String} :
    label ∈ linkedIds (some ids) invocations
      ↔ ∃ i < ids.length, (invocations.bind fun labels => labels[i]?) = some label := by
  unfold linkedIds
  cases invocations with
  | none => simp
  | some labels =>
    simp only [Option.getD_some, Option.bind_some, List.mem_take_iff_getElem, lt_min_iff]
    constructor
    · rintro ⟨i, hi, rfl⟩
      exact ⟨i, hi.left, List.getElem?_eq_getElem hi.right⟩
    · rintro ⟨i, hi, hlabel⟩
      obtain ⟨hlt, rfl⟩ := List.getElem?_eq_some_iff.mp hlabel
      exact ⟨i, ⟨hi, hlt⟩, rfl⟩

/-- The links of the runs of a target whose id is clean. -/
theorem clean_renderRunIds_iff {tid : String} {runIds : Option (List ℤ)}
    {invocations : Option (List String)} (htid : Clean tid.toList) :
    Clean (renderRunIds tid runIds invocations).toList
      ↔ AllClean (linkedIds runIds invocations) := by
  unfold renderRunIds
  cases runIds with
  | none => exact iff_of_true clean_dash fun text htext => absurd htext (by simp [linkedIds])
  | some ids =>
    by_cases hids : ids = []
    · rw [hids]
      exact iff_of_true clean_dash fun text htext => absurd htext (by simp [linkedIds])
    · simp only [if_neg hids]
      rw [clean_commaList_iff]
      constructor
      · intro h label hlabel
        obtain ⟨i, hi, hsome⟩ := mem_linkedIds_iff.mp hlabel
        have hlink := h _ (List.mem_mapIdx.mpr ⟨i, hi, rfl⟩)
        rw [clean_runLink_iff htid, hsome] at hlink
        exact hlink label (List.mem_singleton_self label)
      · intro h text htext
        obtain ⟨i, hi, rfl⟩ := List.mem_mapIdx.mp htext
        rw [clean_runLink_iff htid]
        exact fun label hlabel =>
          h label (mem_linkedIds_iff.mpr ⟨i, hi, Option.mem_toList.mp hlabel⟩)

/-- The notes of an experiment are as clean as its reason. -/
theorem clean_experimentNotes_iff {e : Experiment} :
    Clean (experimentNotes e).toList ↔ AllClean e.reason.toList := by
  have hreason : Clean (e.reason.getD "").toList ↔ AllClean e.reason.toList := by
    cases e.reason with
    | none => exact iff_of_true (by decide) allClean_nil
    | some reason =>
      rw [Option.toList_some, allClean_cons]
      exact (and_iff_left allClean_nil).symm
  rw [← hreason]
  unfold experimentNotes
  dsimp only
  cases e.breakageClass with
  | none => exact Iff.rfl
  | some bc =>
    have hclass : Plain (humanizeBreakageClass bc) := by cases bc <;> decide
    have hnote : Plain ("breakage class: " ++ humanizeBreakageClass bc) :=
      Plain.append (by decide) hclass
    dsimp only
    rw [String.append_assoc, String.toList_append, clean_append_plain hnote.forall]
    split_ifs
    · exact Iff.rfl
    · rw [String.toList_append, clean_append_plain (Plain.forall (by decide))]

/-- What became of a family. -/
theorem clean_disposition_iff {targets : OptimizationTargets} {fid : String} {a : Analysis} :
    Clean (disposition targets fid a).toList ↔ AllClean (dispositionTexts targets fid a) := by
  have hsingle (f text : String) (hf : Plain f) :
      Clean (f ++ text).toList ↔ AllClean [text] := by
    rw [String.toList_append, clean_plain_append hf.forall, allClean_cons]
    exact (and_iff_left allClean_nil).symm
  cases a with
  | rejected rej => exact hsingle _ _ (by decide)
  | accepted acc =>
    unfold disposition dispositionTexts
    dsimp only
    cases acc.lensDisposition.status with
    | notActionable =>
      dsimp only
      cases acc.lensDisposition.reason with
      | none => exact iff_of_true (Plain.clean (by decide)) allClean_nil
      | some reason =>
        rw [Option.map_some, Option.getD_some, Option.toList_some]
        exact hsingle _ _ (by decide)
    | addressed =>
      dsimp only
      cases (familyToTarget targets)[fid]? with
      | none =>
        refine iff_of_true (Plain.clean ?_) allClean_nil
        exact Plain.append (Plain.append (by decide) (plain_toString _)) (by decide)
      | some tid =>
        have hback : Plain (")** (" ++ (toString acc.targets.length ++ " target(s) proposed)")) :=
          Plain.append (by decide) (Plain.append (plain_toString _) (by decide))
        have hlink := clean_between_two (f := "→ contributed to **[") (m := "](#") (a := tid)
          (b := tid) (by decide) (by decide) (by decide) hback
        rw [and_self_iff] at hlink
        rw [Option.toList_some, allClean_cons, and_iff_left allClean_nil, ← hlink]
        unfold anchorFromTargetId
        simp only [String.append_assoc]

end Cells

/-! ## The tables -/

section Tables

variable {summary : Summary} {targets : OptimizationTargets}
  {analyses : ExtTreeMap String Analysis} {verdicts : VerdictMap}

/-- A table with a row for each element of a list. -/
theorem sound_map_iff {α : Type} {l : List α} {row texts : α → List String} {t : Table}
    (ht : t.rows = l.map row)
    (h : ∀ a ∈ l, (∀ c ∈ row a, Clean c.toList) ↔ AllClean (texts a)) :
    t.Sound ↔ AllClean (l.flatMap texts) := by
  rw [Table.sound_iff, ht, List.forall_mem_map, forall₂_congr h]
  constructor
  · intro hall text htext
    obtain ⟨a, ha, hmem⟩ := List.mem_flatMap.mp htext
    exact hall a ha text hmem
  · exact fun hall a ha text htext => hall text (List.mem_flatMap.mpr ⟨a, ha, htext⟩)

/-- What is shown of a lens is clean. -/
theorem clean_humanizeLens (lens : SelectionLens) : Clean (humanizeLens lens).toList := by
  cases lens <;> exact Plain.clean (by decide)

/-- What is shown of a delivery mode is clean. -/
theorem clean_humanizeDeliveryMode (mode : DeliveryMode) :
    Clean (humanizeDeliveryMode mode).toList := by
  cases mode <;> exact Plain.clean (by decide)

/-- A percentage is clean. -/
theorem clean_percent {cs : List Char} (h : ∀ c ∈ cs, F64.isNumeral c = true) :
    Clean (String.ofList cs ++ "%").toList :=
  (Plain.append (plain_of_isNumeral h) (by decide)).clean

/-- The table of the families is one when their ids, reasons and targets are clean. -/
theorem sound_renderWhatWasFound_iff : (renderWhatWasFound targets analyses).Sound
    ↔ AllClean (analyses.toList.flatMap fun p => p.1 :: dispositionTexts targets p.1 p.2) := by
  refine sound_map_iff rfl fun p _ => ?_
  have hlens : Clean (lensCell p.2).toList := by
    cases p.2 with
    | accepted acc => exact clean_humanizeLens _
    | rejected rej => exact clean_dash
  simp only [List.forall_mem_cons, allClean_cons, clean_familyLink_iff, clean_disposition_iff]
  refine and_congr_right fun _ => ?_
  rw [and_iff_right hlens]
  exact and_iff_left fun _ h => absurd h List.not_mem_nil

/-- The table of a verdict is one when the labels and ids of its invocations are clean. -/
theorem sound_renderVerdictBlock_iff {t : MergedTarget} {v : ResultsAnalysis} :
    (renderVerdictBlock t v).Sound ↔ AllClean (v.perInvocation.flatMap fun row =>
      [row.label, t.id, row.invocationId]) := by
  refine sound_map_iff rfl fun row _ => ?_
  have hlink (f : String) (n : ℤ) (hf : Plain f) :
      Clean ("[" ++ toString n ++ f ++ t.id ++ "/" ++ row.invocationId
        ++ "/bench-run.json)").toList ↔ Clean t.id.toList ∧ Clean row.invocationId.toList := by
    refine clean_between_two ?_ (by decide) (by decide) (by decide)
    exact Plain.append (Plain.append (by decide) (plain_toString_int n)) hf
  have hmatches : Clean (if row.matchesExpectedSignal then "yes" else "no").toList := by
    cases row.matchesExpectedSignal <;> exact Plain.clean (by decide)
  simp only [List.forall_mem_cons, allClean_cons]
  rw [hlink _ _ (by decide), hlink _ _ (by decide)]
  constructor
  · rintro ⟨hlabel, hids, -⟩
    exact ⟨hlabel, hids.left, hids.right, allClean_nil⟩
  · rintro ⟨hlabel, htid, hiid, -⟩
    exact ⟨hlabel, ⟨htid, hiid⟩, ⟨htid, hiid⟩, clean_percent fun _ h => F64.mem_fixedSigned h,
      hmatches, fun _ h => absurd h List.not_mem_nil⟩

/-- The counts are always a table. -/
theorem sound_outcomes (counts : OutcomeCounts) : (outcomes counts).Sound := by
  rw [Table.sound_iff]
  unfold outcomes
  have hcount (f : String) (n : ℕ) (hf : Plain f) : Plain (f ++ toString n) :=
    hf.append (plain_toString n)
  simp only [List.forall_mem_cons]
  refine ⟨⟨Plain.clean (by decide), ?_, fun _ h => absurd h List.not_mem_nil⟩,
    ⟨Plain.clean (by decide), ?_, fun _ h => absurd h List.not_mem_nil⟩,
    ⟨Plain.clean (by decide), ?_, fun _ h => absurd h List.not_mem_nil⟩,
    fun _ h => absurd h List.not_mem_nil⟩
  · exact (hcount _ _ ((hcount _ _ ((hcount _ _ (by decide)).append (by decide))).append
      (by decide))).clean
  · exact (hcount _ _ ((hcount _ _ (by decide)).append (by decide))).clean
  · exact (hcount _ _ ((hcount _ _ (by decide)).append (by decide))).clean

/-- So is the coverage. -/
theorem sound_renderCoverageMatrix : (renderCoverageMatrix targets analyses).Sound := by
  have hcell (bucket : Bucket) (lens : SelectionLens) :
      Clean (coverageCell targets analyses bucket lens).toList := by
    unfold coverageCell
    dsimp only
    split_ifs
    · exact Plain.clean (by decide)
    · exact clean_toString _
  rw [Table.sound_iff]
  show ∀ row ∈ List.map _ _, _
  rw [List.forall_mem_map]
  intro bucket _
  simp only [List.forall_mem_cons]
  refine ⟨?_, hcell _ _, hcell _ _, hcell _ _, fun _ h => absurd h List.not_mem_nil⟩
  cases bucket <;> exact Plain.clean (by decide)

/-- The table of the experiments is one when their ids, labels and reasons are clean. -/
theorem sound_atAGlance_iff : (atAGlance summary targets).Sound
    ↔ AllClean (summary.experiments.flatMap (experimentTexts targets)) := by
  refine sound_map_iff rfl fun e _ => ?_
  have himprovement : Clean
      ((e.improvementPct.map fun v => String.ofList (v.fixed 2) ++ "%").getD "—").toList := by
    cases e.improvementPct with
    | none => exact clean_dash
    | some v => exact clean_percent fun _ h => F64.mem_fixed h
  unfold experimentTexts
  simp only [List.forall_mem_cons, allClean_cons, allClean_append, clean_targetLink_iff,
    clean_renderStatusLink_iff, clean_experimentNotes_iff]
  refine and_congr_right fun htid => ?_
  rw [clean_renderRunIds_iff htid]
  constructor
  · rintro ⟨-, -, -, hruns, hnotes, -⟩
    exact ⟨hruns, hnotes⟩
  · rintro ⟨hruns, hnotes⟩
    exact ⟨clean_humanizeDeliveryMode _, htid, himprovement, hruns, hnotes,
      fun _ h => absurd h List.not_mem_nil⟩

/-- The row of a disposition, with a text for a reason that is not given. -/
theorem clean_reason_iff {reason : Option String} {missing : String} (h : Plain missing) :
    Clean (reason.getD missing).toList ↔ AllClean reason.toList := by
  cases reason with
  | none => exact iff_of_true h.clean allClean_nil
  | some reason =>
    rw [Option.getD_some, Option.toList_some, allClean_cons]
    exact (and_iff_left allClean_nil).symm

/-- The table of what was left is one when the families and reasons are clean. -/
theorem sound_notActionable_iff {dispositions : List LensDispositionEntry} :
    (notActionable dispositions).Sound ↔ AllClean (dispositions.flatMap entryTexts) := by
  refine sound_map_iff rfl fun d _ => ?_
  unfold entryTexts
  simp only [List.forall_mem_cons, allClean_cons, clean_familyLink_iff]
  rw [clean_reason_iff (by decide), and_iff_right (clean_humanizeLens _)]
  exact and_congr_right fun _ => and_iff_left fun _ h => absurd h List.not_mem_nil

/-- So is the table of the lenses. -/
theorem sound_lensDispositions_iff {dispositions : List LensDispositionEntry} :
    (lensDispositions dispositions).Sound ↔ AllClean (dispositions.flatMap entryTexts) := by
  refine sound_map_iff rfl fun d _ => ?_
  have hstatus : Clean (humanizeLensDispositionStatus d.status).toList := by
    cases d.status <;> exact Plain.clean (by decide)
  unfold entryTexts
  simp only [List.forall_mem_cons, allClean_cons, clean_familyLink_iff]
  rw [clean_reason_iff (by decide), and_iff_right (clean_humanizeLens _),
    and_iff_right hstatus]
  exact and_congr_right fun _ => and_iff_left fun _ h => absurd h List.not_mem_nil

/-- The table of the rejections is one when the families and reasons are clean. -/
theorem sound_rejectedByMerge_iff {rejected : List RejectedByMerge} :
    (rejectedByMerge rejected).Sound
      ↔ AllClean (rejected.flatMap fun r => [r.familyId, r.reason]) := by
  refine sound_map_iff rfl fun r _ => ?_
  simp only [List.forall_mem_cons, allClean_cons, clean_familyLink_iff]
  refine and_congr_right fun _ => ?_
  rw [and_iff_right (clean_toString _)]
  exact and_congr_right fun _ =>
    iff_of_true (fun _ h => absurd h List.not_mem_nil) allClean_nil

/-- The tables of all verdicts together. -/
theorem sound_verdicts_iff : (∀ t ∈ (targets.targets.flatMap fun t =>
      match verdicts[t.id]? with
      | none => []
      | some v => if v.perInvocation.isEmpty then [] else [renderVerdictBlock t v]), t.Sound)
    ↔ AllClean (targets.targets.flatMap fun t =>
      (verdicts[t.id]?.toList.flatMap fun v => v.perInvocation).flatMap fun row =>
        [row.label, t.id, row.invocationId]) := by
  induction targets.targets with
  | nil => exact iff_of_true (fun _ h => absurd h List.not_mem_nil) allClean_nil
  | cons t ts ih =>
    rw [List.flatMap_cons, List.flatMap_cons, List.forall_mem_append, allClean_append, ih]
    refine and_congr_left fun _ => ?_
    cases verdicts[t.id]? with
    | none => exact iff_of_true (fun _ h => absurd h List.not_mem_nil) allClean_nil
    | some v =>
      rw [Option.toList_some, List.flatMap_singleton, ← sound_renderVerdictBlock_iff]
      refine forall_mem_ite_isEmpty fun hnil => ?_
      rw [sound_renderVerdictBlock_iff, hnil]
      exact allClean_nil

/-- **The tables of the summary are tables exactly if what is put into them is clean.** -/
theorem sound_renderSummaryMd_iff :
    (∀ t ∈ renderSummaryMd summary targets analyses verdicts, t.Sound)
      ↔ AllClean (summaryTexts summary targets analyses verdicts) := by
  unfold renderSummaryMd summaryTexts
  dsimp only
  rw [List.forall_mem_append, List.forall_mem_append, List.forall_mem_append,
    forall_mem_ite_isEmpty, forall_mem_ite_isEmpty, sound_verdicts_iff,
    sound_renderWhatWasFound_iff, sound_notActionable_iff, allClean_append, allClean_append,
    allClean_append]
  · simp only [List.forall_mem_cons, sound_atAGlance_iff]
    refine and_congr_left fun _ => and_congr_right fun _ => ?_
    constructor
    · exact fun h => h.right.right.left
    · exact fun h => ⟨sound_outcomes _, sound_renderCoverageMatrix, h,
        fun _ ht => absurd ht List.not_mem_nil⟩
  · intro hnil
    rw [sound_notActionable_iff, hnil]
    exact allClean_nil
  · intro hnil
    rw [sound_renderWhatWasFound_iff, hnil]
    exact allClean_nil

/-- **So are those of the catalog.** -/
theorem sound_renderTargetsMd_iff :
    (∀ t ∈ renderTargetsMd targets, t.Sound) ↔ AllClean (catalogTexts targets) := by
  unfold renderTargetsMd catalogTexts
  rw [List.forall_mem_append, forall_mem_ite_isEmpty, forall_mem_ite_isEmpty,
    sound_rejectedByMerge_iff, sound_lensDispositions_iff, allClean_append]
  · intro hnil
    rw [sound_lensDispositions_iff, hnil]
    exact allClean_nil
  · intro hnil
    rw [sound_rejectedByMerge_iff, hnil]
    exact allClean_nil

end Tables

/-! ## Excerpts are lines -/

/-- A word has no white space in it. -/
theorem not_isWhiteSpace_of_mem_wordsFrom {acc cs : List Char} {w : String} {d : Char}
    (hacc : ∀ d ∈ acc, Text.isWhiteSpace d = false) (hw : w ∈ Text.wordsFrom acc cs)
    (hd : d ∈ w.toList) : Text.isWhiteSpace d = false := by
  induction cs generalizing acc with
  | nil =>
    rw [Text.wordsFrom] at hw
    split_ifs at hw
    · cases hw
    · rw [List.mem_singleton.mp hw, String.toList_ofList, List.mem_reverse] at hd
      exact hacc d hd
  | cons c cs ih =>
    have hnil : ∀ d ∈ ([] : List Char), Text.isWhiteSpace d = false :=
      fun _ h => absurd h List.not_mem_nil
    rw [Text.wordsFrom] at hw
    split at hw
    case isTrue =>
      split at hw
      · exact ih hnil hw
      · obtain rfl | hw := List.mem_cons.mp hw
        · rw [String.toList_ofList, List.mem_reverse] at hd
          exact hacc d hd
        · exact ih hnil hw
    case isFalse hc =>
      exact ih (List.forall_mem_cons.mpr ⟨eq_false_of_ne_true hc, hacc⟩) hw

/-- **An excerpt has no line break**, so that it is clean if it has no bar. -/
theorem clean_excerptParagraph_iff {text : String} {maxChars : ℕ} :
    Clean (excerptParagraph text maxChars).toList
      ↔ bars (excerptParagraph text maxChars).toList = 0 := by
  refine ⟨fun h => h.bars, fun h => ⟨fun d hd => ?_, h⟩⟩
  clear h
  have hwords (parts : List String) (hparts : ∀ w ∈ parts, ∀ e ∈ w.toList, isBreak e = false) :
      ∀ e ∈ [' '].intercalate (parts.map String.toList), isBreak e = false := by
    induction parts with
    | nil => exact fun _ h => absurd h List.not_mem_nil
    | cons w parts ih =>
      have hw := hparts w List.mem_cons_self
      have hrest := ih fun v hv => hparts v (List.mem_cons_of_mem _ hv)
      cases parts with
      | nil => simpa using hw
      | cons v parts =>
        rw [List.map_cons, List.map_cons, List.intercalate_cons_cons]
        rw [List.map_cons] at hrest
        refine List.forall_mem_append.mpr ⟨List.forall_mem_append.mpr
          ⟨hw, List.forall_mem_singleton.mpr rfl⟩, hrest⟩
  have hbreak {e : Char} (he : Text.isWhiteSpace e = false) : isBreak e = false := by
    by_contra hne
    rw [Bool.not_eq_false, isBreak, Bool.or_eq_true, decide_eq_true_eq,
      decide_eq_true_eq] at hne
    obtain rfl | rfl := hne
    · exact absurd he (by decide)
    · exact absurd he (by decide)
  have hnormalized := hwords (Text.splitWhitespace
    (Text.trim (String.ofList (firstParagraph text.toList)))) fun w hw e he =>
      hbreak (not_isWhiteSpace_of_mem_wordsFrom (fun _ h => absurd h List.not_mem_nil) hw he)
  unfold excerptParagraph at hd
  dsimp only at hd
  split_ifs at hd
  · cases hd
  · rw [String.toList_ofList] at hd
    exact hnormalized d hd
  · rw [String.toList_append, String.toList_ofList] at hd
    obtain hd | hd := List.mem_append.mp hd
    · exact hnormalized d (List.mem_of_mem_take hd)
    · obtain rfl := List.mem_singleton.mp hd
      rfl

/-! ## All documents -/

/-- Each row of the report, the summary and the catalog is one line with as many cells as
the header of its table, exactly if no text that is put into a cell has a line break or a
bar without a backslash before it. -/
theorem tables_stay_tables_iff (summary : Summary) (targets : OptimizationTargets)
    (analyses : ExtTreeMap String Analysis) (verdicts : VerdictMap) {view : ReportView}
    {tables : List Table} (h : renderMarkdown view = Except.ok tables) :
    (∀ t ∈ tables ++ renderSummaryMd summary targets analyses verdicts
        ++ renderTargetsMd targets, t.Sound)
      ↔ (view.sessions ≠ [] → view.Clean)
        ∧ AllClean (summaryTexts summary targets analyses verdicts)
        ∧ AllClean (catalogTexts targets) := by
  rw [List.forall_mem_append, List.forall_mem_append, sound_renderSummaryMd_iff,
    sound_renderTargetsMd_iff, and_assoc]
  refine and_congr_left fun _ => ?_
  by_cases hnil : view.sessions = []
  · have hnone : tables = [] := by
      unfold renderMarkdown at h
      rw [hnil] at h
      exact (Except.ok.inj h).symm
    rw [hnone]
    exact iff_of_true (fun _ ht => absurd ht List.not_mem_nil) fun hne => absurd hnil hne
  · rw [sound_renderMarkdown_iff h hnil]
    exact ⟨fun hclean _ => hclean, fun hclean => hclean hnil⟩

/-- A view with a session and a verdict that has a caveat. -/
def mixedView (reason : String) : ReportView where
  sessions := [⟨"20260614", "2026-06-14T10:00:00Z", SessionStatus.succeeded, ⟨1, 0, 0, 1⟩,
    F64.ofNat 125, 0, 0⟩]
  prLifecycle := []
  issueLifecycle := []
  mixedVerdicts := [⟨"20260614", "cache-clarity", reason⟩]

/-- A summary of nothing. -/
def emptySummary : Summary where
  sessionId := "20260614"
  baselineRunId := 1
  baselineRerunId := 2
  noiseFloorPct := F64.ofNat 1
  experiments := []
  outcomeCounts := ⟨⟨0, 0, 0⟩, ⟨0, 0⟩, ⟨0, 0⟩⟩
  lensDispositions := []
  nextTargetsHint := none
  sourceUrl := none
  sourceBranch := none
  sourceSha := none
  sourceFetchedAt := none

theorem tables_stay_tables_iff_mixed : ∃ tables,
    renderMarkdown (mixedView "mixed: commit time up") = Except.ok tables
      ∧ ∀ t ∈ tables
        ++ renderSummaryMd emptySummary (documentOf [] [] [⟨"fam-a", 0, "a \\| b"⟩]) ∅ ∅
        ++ renderTargetsMd (documentOf [] [] [⟨"fam-a", 0, "a \\| b"⟩]), t.Sound := by
  have hview : (mixedView "mixed: commit time up").Clean := by
    refine ⟨List.forall_mem_singleton.mpr ⟨by decide, fun started h => ?_⟩,
      fun _ h => absurd h List.not_mem_nil, List.forall_mem_singleton.mpr ?_⟩
    · obtain rfl : "2026-06-14".toList = started := Except.ok.inj h
      decide
    · show ∀ text ∈ ["20260614", "cache-clarity", "mixed: commit time up"], Clean text.toList
      decide
  have hsummary : summaryTexts emptySummary (documentOf [] [] [⟨"fam-a", 0, "a \\| b"⟩]) ∅ ∅
      = [] := by simp [summaryTexts, emptySummary, documentOf]
  have hcatalog : AllClean (catalogTexts (documentOf [] [] [⟨"fam-a", 0, "a \\| b"⟩])) := by
    show ∀ text ∈ ["fam-a", "a \\| b"], Clean text.toList
    decide
  refine ⟨_, rfl, (tables_stay_tables_iff _ _ _ _ rfl).mpr ⟨fun _ => hview, ?_, hcatalog⟩⟩
  rw [hsummary]
  exact allClean_nil

/-- A reason with a bar makes one cell two, and one with a line break one row two. -/
theorem not_tables_stay_tables : ¬ ∀ (view : ReportView) (tables : List Table)
    (summary : Summary) (targets : OptimizationTargets) (analyses : ExtTreeMap String Analysis)
    (verdicts : VerdictMap), renderMarkdown view = Except.ok tables →
    ∀ t ∈ tables ++ renderSummaryMd summary targets analyses verdicts
      ++ renderTargetsMd targets, t.Sound := by
  intro h
  have hsound := h ⟨[], [], [], []⟩ [] emptySummary
    (documentOf [] [] [⟨"fam-a", 0, "slow | cached"⟩]) ∅ ∅ rfl
    (rejectedByMerge [⟨"fam-a", 0, "slow | cached"⟩])
    (List.mem_append_right _ (List.mem_append_left _ List.mem_cons_self))
  rw [sound_rejectedByMerge_iff] at hsound
  exact absurd (hsound "slow | cached" (by decide)) (by decide)

end SummaryTables
