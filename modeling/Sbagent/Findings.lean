import Sbagent.Archive
import Sbagent.PhaseOutputs

/-!
# What becomes of a finding

What an analyst finds passes through three phases before it is a line of the
ledger. The merge puts findings together into targets, or rejects them;
finalizing judges every target; archiving writes a row for each. Each phase
checks what the one before has left, and none of them looks back further than
that: a row of the ledger does not say which findings it is about.

It can be told, all the same. The roster of targets is read by both of the later
phases, and it is what the rows have in common: a row is one of a target
(`RowTells`), and the findings are in the targets, or among the rejections, once
(`FindingsTold`). So whatever is accepted in the ledger has been found by
somebody, has the bucket and the class of what was found, and has been earned by
the files that the phases in between have left (`Earned`).

The rows are looked up by the ids of targets, and nothing keeps two targets from
having one id. Both of their rows are then judged by the files of the id, read as
those of the first.
-/

open Fallible Keyed

/-! ## The first of a kind -/

section First

variable {α β : Type} {R : α → β → Prop} {p : α → Bool} {q : β → Bool}

/-- **The first on the left is related to the first on the right**, where a pair
is of the kind on both sides or on neither. -/
theorem exists_find?_of_forall₂ {as : List α} {bs : List β} (h : List.Forall₂ R as bs)
    (hpq : ∀ a b, R a b → p a = q b) {a : α} (ha : a ∈ as) (hp : p a = true) :
    ∃ a' b, as.find? p = some a' ∧ bs.find? q = some b ∧ R a' b := by
  induction h with
  | nil => cases ha
  | @cons a₁ b₁ as bs hab _ ih =>
    by_cases h₁ : p a₁ = true
    · exact ⟨a₁, b₁, List.find?_cons_of_pos h₁,
        List.find?_cons_of_pos (hpq a₁ b₁ hab ▸ h₁), hab⟩
    · have hmem : a ∈ as := by
        obtain rfl | hmem := List.mem_cons.mp ha
        · exact absurd hp h₁
        · exact hmem
      rw [List.find?_cons_of_neg h₁, List.find?_cons_of_neg (hpq a₁ b₁ hab ▸ h₁)]
      exact ih hmem

end First

/-! ## The merge -/

/-- The accepted analyses that a plan is for. -/
def MergePlan.accepted : MergePlan → List AcceptedAnalysis
  | empty _ => []
  | dedupOnly _ accepted _ => accepted
  | ask accepted _ => accepted

/-- What history forces under a plan. -/
def MergePlan.decisions : MergePlan → List DedupDecision
  | empty _ => []
  | dedupOnly _ _ decisions => decisions
  | ask _ decisions => decisions

section Merged

variable {i : MergeInputs} {before after : MergeFiles} {outputs : MergeOutputs}

/-- A plan is for the accepted analyses, and for what history says of them. -/
theorem plan_reads {plan : MergePlan} (h : i.plan = Except.ok plan) :
    ∃ analyses, readAllAnalyses i.analysisDirs = Except.ok analyses
      ∧ plan.accepted = acceptedAnalyses analyses
      ∧ ∀ p, i.projection = Except.ok p →
        plan.decisions = (filterAcceptedForDedup (acceptedAnalyses analyses) p).snd := by
  obtain ⟨c, analyses, -, hread, ⟨hempty, rfl⟩ | ⟨p, hp, hplan⟩⟩ := plan_ok h
  · refine ⟨analyses, hread, hempty.symm, fun p _ => ?_⟩
    rw [hempty]
    rfl
  · refine ⟨analyses, hread, ?_, fun p' hp' => ?_⟩
    · obtain ⟨-, rfl⟩ | rfl := hplan <;> rfl
    · obtain rfl := Except.ok.inj (hp.symm.trans hp')
      obtain ⟨-, rfl⟩ | rfl := hplan <;> rfl

/-- **What the merge leaves is a document that its rules accept**, whoever wrote
it, for the accepted analyses and what history says of them. -/
theorem MergeInputs.run_validated (h : i.run before = (MergeEnd.returned outputs, after)) :
    ∃ analyses o decisions, readAllAnalyses i.analysisDirs = Except.ok analyses
      ∧ contentsOf after.targets = FileRead.parsed o
      ∧ validateMergeOutputWithDedup o (acceptedAnalyses analyses) decisions = Except.ok ()
      ∧ ∀ p, i.projection = Except.ok p →
        decisions = (filterAcceptedForDedup (acceptedAnalyses analyses) p).snd := by
  obtain ⟨o, hfiles, hcases⟩ := MergeInputs.run_cases h
  obtain ⟨plan, hplan, hvalidate⟩ : ∃ plan, i.plan = Except.ok plan
      ∧ validateMergeOutputWithDedup o plan.accepted plan.decisions = Except.ok () := by
    obtain ⟨c, -, hplan, rfl⟩ | ⟨c, accepted, decisions, -, hplan, rfl⟩
      | ⟨accepted, decisions, o', hplan, -, -, hvalidate⟩ := hcases
    · exact ⟨_, hplan, validate_of_empty c⟩
    · exact ⟨_, hplan, validate_of_dedupOnly hplan⟩
    · exact ⟨_, hplan, hvalidate⟩
  obtain ⟨analyses, hread, haccepted, hdecisions⟩ := plan_reads hplan
  rw [haccepted] at hvalidate
  refine ⟨analyses, o, plan.decisions, hread, ?_, hvalidate, hdecisions⟩
  rw [hfiles]
  rfl

end Merged

section Rules

variable {accepted : List AcceptedAnalysis} {o : OptimizationTargets}
  {decisions : List DedupDecision}

/-- Under a family and an index there is one finding. -/
theorem IsTargetAt.unique (hnd : (accepted.map fun a => a.familyId).Nodup) {k : String × ℕ}
    {c c' : AnalyzerTarget} (h : IsTargetAt accepted k c) (h' : IsTargetAt accepted k c') :
    c = c' :=
  Option.some.inj (((targetByPair_eq_some_iff hnd).mpr h).symm.trans
    ((targetByPair_eq_some_iff hnd).mpr h'))

/-- The rules that the way of a finding rests on. -/
theorem rules_of_validate
    (h : validateMergeOutputWithDedup o accepted decisions = Except.ok ()) :
    o.validateModel = Except.ok ()
      ∧ ListsExactly (accountedPairs o) (expectedPairs accepted)
      ∧ checkDedupRejections o decisions = Except.ok ()
      ∧ (∀ t ∈ o.targets, ∀ c ∈ contributors accepted t, c.bucket = t.bucket)
      ∧ ∀ t ∈ o.targets, ∀ c ∈ contributors accepted t,
        (c.consensusBreaking, c.breakageClass) = (t.consensusBreaking, t.breakageClass) := by
  unfold validateMergeOutputWithDedup at h
  simp only [seq_ok_iff, context_ok_iff] at h
  obtain ⟨hmodel, hcoverage, hdedup, -, -, hbuckets, -, hconsensus, -⟩ := h
  exact ⟨hmodel, checkTargetCoverage_ok_iff.mp hcoverage, hdedup,
    checkBuckets_ok_iff.mp hbuckets, checkConsensus_ok_iff.mp hconsensus⟩

/-- **History rejects a finding exactly when it blocks its fix.** -/
theorem rejected_iff_blocks (hnd : (accepted.map fun a => a.familyId).Nodup)
    {p : DedupProjection}
    (h : checkDedupRejections o (filterAcceptedForDedup accepted p).snd = Except.ok ())
    {k : String × ℕ} {c : AnalyzerTarget} (hc : IsTargetAt accepted k c) :
    (∃ r ∈ o.rejectedByMerge, r.pair = k ∧ Text.startsWith r.reason "dedup:" = true)
      ↔ p.blocks c.fixSignature = true := by
  have hdedup := checkDedupRejections_ok_iff.mp h
  constructor
  · rintro ⟨⟨family, index, reason⟩, hr, rfl, hpre⟩
    obtain ⟨d, hd, rfl, rfl, -⟩ := (hdedup family index reason).mp ⟨_, hr, hpre, rfl⟩
    obtain ⟨a, ha, hda⟩ := List.mem_flatMap.mp hd
    obtain ⟨⟨c', n⟩, hn, hdec⟩ := List.mem_filterMap.mp hda
    obtain ⟨hfamily, hindex, -, -⟩ := DedupProjection.decisionFor_spec hdec
    -- the decision is about the finding that the rejection names
    have hat : IsTargetAt accepted (d.familyId, d.targetIndex) c' :=
      ⟨a, ha, hfamily.symm, hindex ▸ List.mk_mem_zipIdx_iff_getElem?.mp hn⟩
    obtain rfl := IsTargetAt.unique hnd hc hat
    rw [← DedupProjection.isSome_decisionFor p a.familyId n, hdec]
    rfl
  · intro hblocks
    obtain ⟨a, ha, hfamily, hget⟩ := hc
    rw [← DedupProjection.isSome_decisionFor p a.familyId k.2] at hblocks
    obtain ⟨d, hd⟩ := Option.isSome_iff_exists.mp hblocks
    obtain ⟨hdf, hdi, -, hreason⟩ := DedupProjection.decisionFor_spec hd
    have hmem : d ∈ (filterAcceptedForDedup accepted p).snd :=
      List.mem_flatMap.mpr ⟨a, ha, List.mem_filterMap.mpr
        ⟨(c, k.2), List.mk_mem_zipIdx_iff_getElem?.mpr hget, hd⟩⟩
    obtain ⟨r, hr, hpre, rfl⟩ := (hdedup k.1 k.2 d.reason).mpr
      ⟨d, hmem, hdf.trans hfamily, hdi, rfl⟩
    exact ⟨_, hr, rfl, hpre⟩

end Rules

/-! ## The judgement -/

/-- The status of a row that a delivery mode aims at. -/
def DeliveryMode.landed : DeliveryMode → ExperimentStatus
  | normalPr => ExperimentStatus.accepted
  | consensusPocPr => ExperimentStatus.pocLanded
  | consensusIssue => ExperimentStatus.routedToIssue

/-- What the files of a session must hold for a target to be accepted: the evidence
of its measurements, its implementation, or the marker that its issue was written,
by the mode in which it is delivered. -/
def Earned (files : SessionFiles) (t : MergedTarget) : Prop :=
  match t.deliveryMode with
  | DeliveryMode.normalPr =>
    ∃ vr candidate baseline ra, AcceptanceEvidence files t vr candidate baseline ra
  | DeliveryMode.consensusPocPr => HasImplementation files t
  | DeliveryMode.consensusIssue => 0 < (files.consensusIssue t.id).getD 0

section Judged

variable {files : SessionFiles} {verdicts : VerdictMap} {t : MergedTarget} {e : Experiment}

/-- A row of the ledger is accepted when the row of the summary has the status that
its mode aims at. -/
theorem deriveTargetStatus_accepted_iff {m : DeliveryMode} (h : m.allows e.status = true) :
    (deriveTargetStatus (some e)).1 = TargetStatus.accepted ↔ e.status = m.landed := by
  unfold deriveTargetStatus
  dsimp only
  generalize e.status = status at h ⊢
  cases m with
  | normalPr => cases status <;> simp_all [DeliveryMode.allows, DeliveryMode.landed]
  | consensusPocPr => cases status <;> simp_all [DeliveryMode.allows, DeliveryMode.landed]
  | consensusIssue => cases status <;> simp_all [DeliveryMode.allows, DeliveryMode.landed]

/-- A proof of concept has landed when there is an implementation. -/
theorem pocLanded_iff (hm : t.deliveryMode = DeliveryMode.consensusPocPr)
    (h : evaluateTarget t files verdicts = Except.ok e) :
    e.status = ExperimentStatus.pocLanded ↔ HasImplementation files t := by
  have hne : ¬ t.deliveryMode = DeliveryMode.consensusIssue := by simp [hm]
  simp only [evaluateTarget, if_neg hne, bind_ok_iff, context_ok_iff] at h
  obtain ⟨report, hread, h⟩ := h
  cases report with
  | none =>
    rw [← Except.ok.inj h]
    refine iff_of_false ExperimentStatus.noConfusion ?_
    rintro ⟨r, hr, -⟩
    rw [SessionFiles.readOptimizerReportForTarget_ok_none_iff.mp hread] at hr
    cases hr
  | some report =>
    obtain ⟨hfile, -, hctx⟩ :=
      SessionFiles.readOptimizerReportForTarget_ok_some_iff.mp hread
    cases report with
    | aborted r =>
      rw [← Except.ok.inj h]
      refine iff_of_false ExperimentStatus.noConfusion ?_
      rintro ⟨r', hr', -⟩
      cases FileRead.parsed.inj (hfile.symm.trans hr')
    | implemented r =>
      simp only [evaluateReport, if_pos hm] at h
      rw [← Except.ok.inj h]
      exact iff_of_true rfl ⟨r, hfile, hctx⟩

/-- An issue is routed when its marker is there. -/
theorem routedToIssue_iff (hm : t.deliveryMode = DeliveryMode.consensusIssue)
    (h : evaluateTarget t files verdicts = Except.ok e) :
    e.status = ExperimentStatus.routedToIssue
      ↔ 0 < (files.consensusIssue t.id).getD 0 := by
  simp only [evaluateTarget, if_pos hm] at h
  rw [← Except.ok.inj h]
  unfold evaluateConsensusIssue
  split
  case isTrue hmark => exact iff_of_true rfl hmark
  case isFalse hmark => exact iff_of_false ExperimentStatus.noConfusion hmark

/-- The shas of a commit do not change the status. -/
theorem exists_evaluateTarget (h : experimentRow files verdicts t = Except.ok e) :
    ∃ exp, evaluateTarget t files verdicts = Except.ok exp ∧ exp.status = e.status := by
  simp only [experimentRow, bind_ok_iff, pure_ok_iff] at h
  obtain ⟨exp, hexp, p, -, rfl⟩ := h
  refine ⟨exp, hexp, ?_⟩
  cases p with
  | none => rfl
  | some p => rfl

/-- **A target is accepted exactly when it has earned that**, in every mode of
delivery. -/
theorem accepted_iff_earned (hsound : RowSound files t e)
    (h : experimentRow files verdicts t = Except.ok e) :
    (deriveTargetStatus (some e)).1 = TargetStatus.accepted ↔ Earned files t := by
  rw [deriveTargetStatus_accepted_iff hsound.about.status]
  obtain ⟨exp, hexp, hstatus⟩ := exists_evaluateTarget h
  unfold Earned
  cases hm : t.deliveryMode with
  | normalPr => exact hsound.accepted hm
  | consensusPocPr =>
    rw [← hstatus]
    exact pocLanded_iff hm hexp
  | consensusIssue =>
    rw [← hstatus]
    exact routedToIssue_iff hm hexp

end Judged

/-! ## The record -/

section Archived

variable {ledger : FileRead (List LedgerLine)} {af : ArchiveFiles} {ctx : ArchiveContext}
  {ops : ArchiveOps} {r : SessionRecord} {doc : OptimizationTargets} {summary : Summary}

/-- A file that is there is read. -/
theorem eq_some_of_readOptional {α : Type} {validate : α → Fallible Unit} {f : FileRead α}
    {reading parsing validating : String} {a : α} {o : Option α}
    (hf : f = FileRead.parsed a)
    (h : f.readOptional validate reading parsing validating = Except.ok o) : o = some a := by
  cases o with
  | none =>
    rw [FileRead.readOptional_ok_none_iff.mp h] at hf
    cases hf
  | some a' =>
    obtain ⟨hf', -⟩ := FileRead.readOptional_ok_some_iff.mp h
    rw [FileRead.parsed.inj (hf'.symm.trans hf)]

/-- **A record has a row for each target**, put together from the summary. -/
theorem archive_rows (hread : FeedbackReadable af) (htargets : af.targets = FileRead.parsed doc)
    (hsummary : af.summary = FileRead.parsed summary)
    (h : (archive ledger af ctx ops).2 = some r) :
    ∃ rows, List.Forall₂ (fun t row =>
        ∃ feedback, row = af.targetRecord (some summary) t feedback) doc.targets rows
      ∧ r.targets.Perm rows := by
  obtain ⟨-, happ⟩ := archive_appended_iff.mp h
  obtain ⟨record, sha, -, hrecord, -, -, -, rfl⟩ := appendRecord_ok_iff.mp happ
  obtain ⟨summary', targets, source, timings, hs, ht, -, -, rfl⟩ :=
    buildSessionRecord_ok_iff.mp hrecord
  obtain rfl := eq_some_of_readOptional hsummary (context_ok_iff.mp hs)
  obtain rfl := eq_some_of_readOptional htargets ht
  obtain ⟨rows, hrows⟩ : ∃ rows, List.Forall₂
      (fun t row => af.buildTargetRecord (some summary) t = Except.ok row)
      doc.targets rows :=
    exists_forall₂ fun t ht => exists_buildTargetRecord_iff.mpr (hread doc htargets t ht)
  have hbuild : af.buildTargetRecords (some summary) (some doc)
      = Except.ok (rows.mergeSort fun a b => a.id ≤ b.id) := by
    simp only [ArchiveFiles.buildTargetRecords, bind_ok_iff, pure_ok_iff]
    exact ⟨rows, mapM_ok_iff.mpr hrows, rfl⟩
  refine ⟨rows, hrows.imp fun t row hrow => ?_, ?_⟩
  · simp only [ArchiveFiles.buildTargetRecord, bind_ok_iff, pure_ok_iff] at hrow
    obtain ⟨feedback, -, rfl⟩ := hrow
    exact ⟨feedback, rfl⟩
  · show ((af.buildTargetRecords (some summary) (some doc)).toOption.getD []).Perm rows
    rw [hbuild]
    exact List.mergeSort_perm rows _

end Archived

/-! ## From the finding to the row -/

/-- **A row of a record tells of the findings that were merged into a target**, as
`judged` was judged, which is the first target with the id. -/
structure RowTells (accepted : List AcceptedAnalysis) (files : SessionFiles)
    (t judged : MergedTarget) (row : TargetRecord) : Prop where
  id : row.id = t.id
  /-- It has the bucket and the class of each of them. -/
  findings : ∀ mf ∈ t.mergedFrom, ∃ c, IsTargetAt accepted mf.pair c
    ∧ row.bucket = bucketStr c.bucket
    ∧ (row.deliveryMode = DeliveryMode.normalPr ↔ c.consensusBreaking = false)
  /-- It is filed under the family of one of them. -/
  family : ∃ mf ∈ t.mergedFrom, row.familyId = mf.familyId
  /-- It is accepted when that has been earned. -/
  status : row.status = TargetStatus.accepted ↔ Earned files judged
  /-- What was measured stands in it in the order of the replay. -/
  measured : t.deliveryMode = DeliveryMode.normalPr →
    judged.deliveryMode = DeliveryMode.normalPr → ∀ vr candidate baseline ra,
      AcceptanceEvidence files judged vr candidate baseline ra →
        ∃ b, row.bench = some b ∧ AlignedBy candidate vr b.candidateRunIds
          ∧ AlignedBy baseline vr b.baselineRunIds

/-- What became of the findings of the accepted analyses: a list of targets, each with
the row that tells of it. -/
structure FindingsTold (accepted : List AcceptedAnalysis) (projection : Fallible DedupProjection)
    (files : SessionFiles) (doc : OptimizationTargets)
    (told : List (MergedTarget × TargetRecord)) : Prop where
  /-- It is the targets of the roster that the rows tell of. -/
  roster : told.map Prod.fst = doc.targets
  /-- A finding is told of once, or it is one of the rejections, once. -/
  once : ∀ k, (∃ c, IsTargetAt accepted k c) →
    (told.flatMap fun p => p.fst.mergedFrom.map MergedFrom.pair).count k
      + (doc.rejectedByMerge.map RejectedByMerge.pair).count k = 1
  /-- History rejects the findings that it blocks, and no others. -/
  history : ∀ p, projection = Except.ok p → ∀ k c, IsTargetAt accepted k c →
    ((∃ r ∈ doc.rejectedByMerge, r.pair = k ∧ Text.startsWith r.reason "dedup:" = true)
      ↔ p.blocks c.fixSignature = true)
  /-- Every row tells of the findings of its target. -/
  rows : ∀ p ∈ told, ∃ judged, (doc.targets.find? fun t => t.id = p.fst.id) = some judged
    ∧ RowTells accepted files p.fst judged p.snd

section Told

variable {accepted : List AcceptedAnalysis} {files : SessionFiles} {verdicts : VerdictMap}
  {doc : OptimizationTargets} {summary : Summary} {af : ArchiveFiles} {t judged : MergedTarget}
  {e : Experiment} {feedback : Option PublishFeedback}

/-- The measurements that a row quotes are those of its evidence. -/
theorem bench_of_evidence (hvalid : judged.Valid) (hsound : RowSound files judged e)
    (ht : t.deliveryMode = DeliveryMode.normalPr)
    (hm : judged.deliveryMode = DeliveryMode.normalPr) {vr : VerificationReplay}
    {candidate baseline : InvocationRunIds} {ra : ResultsAnalysis}
    (hev : AcceptanceEvidence files judged vr candidate baseline ra) :
    ∃ b, af.buildTargetBench t (some e) (some summary) = some b
      ∧ AlignedBy candidate vr b.candidateRunIds ∧ AlignedBy baseline vr b.baselineRunIds := by
  have hacc := (hsound.accepted hm).mpr ⟨vr, candidate, baseline, ra, hev⟩
  obtain ⟨runs, baselineRuns, hruns, hbase, halign, halignBase⟩ :=
    hsound.aligned hm hacc vr candidate baseline ra hev
  have hne : ¬ e.runIds.getD [] = [] := by
    rw [hruns]
    rintro rfl
    -- a valid replay has an invocation, and it stands next to a run
    exact (hvalid.replay vr hev.replay).nonempty (List.forall₂_nil_right_iff.mp halign)
  refine ⟨af.benchOf t e (e.runIds.getD []) (some summary), ?_, ?_, ?_⟩
  · unfold ArchiveFiles.buildTargetBench
    dsimp only
    rw [if_neg (not_not.mpr ht), if_neg hne]
  · show AlignedBy candidate vr (e.runIds.getD [])
    rw [hruns]
    exact halign
  · show AlignedBy baseline vr (baselineIds e (some summary))
    unfold baselineIds
    rw [hbase]
    exact halignBase

/-- **The row of a target tells of its findings.** -/
theorem rowTells_targetRecord (hnd : (accepted.map fun a => a.familyId).Nodup)
    (hcov : ListsExactly (accountedPairs doc) (expectedPairs accepted))
    (hbuckets : ∀ t ∈ doc.targets, ∀ c ∈ contributors accepted t, c.bucket = t.bucket)
    (hconsensus : ∀ t ∈ doc.targets, ∀ c ∈ contributors accepted t,
      (c.consensusBreaking, c.breakageClass) = (t.consensusBreaking, t.breakageClass))
    (ht : t ∈ doc.targets) (hvalid : t.Valid) (hjudged : judged.Valid)
    (hfind : (summary.experiments.find? fun e => e.targetId = t.id) = some e)
    (hsound : RowSound files judged e)
    (hrow : experimentRow files verdicts judged = Except.ok e) :
    RowTells accepted files t judged (af.targetRecord (some summary) t feedback) where
  id := rfl
  findings := by
    intro mf hmf
    obtain ⟨c, hc⟩ := exists_target_of_coverage hcov ht hmf
    have hmem : c ∈ contributors accepted t := (mem_contributors hnd).mpr ⟨mf, hmf, hc⟩
    refine ⟨c, hc, congrArg bucketStr (hbuckets t ht c hmem).symm, ?_⟩
    show t.deliveryMode = DeliveryMode.normalPr ↔ _
    rw [hvalid.deliveryMode, DeliveryMode.derive_eq_normalPr_iff,
      (Prod.mk.inj (hconsensus t ht c hmem)).left]
  family := by
    obtain ⟨mf, l, hl⟩ := List.exists_cons_of_ne_nil hvalid.contributors
    refine ⟨mf, hl ▸ List.mem_cons_self, ?_⟩
    show (t.mergedFrom.head?.map fun mf => mf.familyId).getD "unknown" = mf.familyId
    rw [hl]
    rfl
  status := by
    show (deriveTargetStatus (summary.experiments.find? fun e => e.targetId = t.id)).1
      = TargetStatus.accepted ↔ _
    rw [hfind]
    exact accepted_iff_earned hsound hrow
  measured := by
    intro hm hm' vr candidate baseline ra hev
    show ∃ b, af.buildTargetBench t (summary.experiments.find? fun e => e.targetId = t.id)
      (some summary) = some b ∧ _
    rw [hfind]
    exact bench_of_evidence hjudged hsound hm hm' hev

end Told

/-- **Every finding is told of once.** A session that was merged, finalized and archived
has a row in the ledger for each of its targets, whatever its agents did: a finding of the
accepted analyses is behind exactly one of the rows or one of the rejections, history
rejects exactly what it blocks, and a row is accepted exactly when that has been earned. -/
theorem findings_told {i : MergeInputs} {before after : MergeFiles} {outputs : MergeOutputs}
    {files : SessionFiles} {summary : Summary} {ledger : FileRead (List LedgerLine)}
    {af : ArchiveFiles} {ctx : ArchiveContext} {ops : ArchiveOps} {r : SessionRecord}
    (hmerge : i.run before = (MergeEnd.returned outputs, after))
    (hfinalize : finalize (contentsOf after.targets) files = Except.ok summary)
    (htargets : af.targets = contentsOf after.targets)
    (hsummary : af.summary = FileRead.parsed summary)
    (hread : FeedbackReadable af)
    (harchive : (archive ledger af ctx ops).2 = some r) :
    ∃ analyses doc told, readAllAnalyses i.analysisDirs = Except.ok analyses
      ∧ contentsOf after.targets = FileRead.parsed doc
      ∧ r.targets.Perm (told.map Prod.snd)
      ∧ FindingsTold (acceptedAnalyses analyses) i.projection files doc told := by
  obtain ⟨analyses, doc, decisions, hanalyses, hdoc, hvalidate, hdecisions⟩ :=
    MergeInputs.run_validated hmerge
  have hnd := nodup_acceptedAnalyses hanalyses
  obtain ⟨hmodel, hcov, hdedup, hbuckets, hconsensus⟩ := rules_of_validate hvalidate
  have hvalid := (OptimizationTargets.validateModel_ok_iff.mp hmodel).left
  -- finalizing reads the roster that the merge has left
  rw [hdoc] at hfinalize htargets
  simp only [finalize, readOptimizationTargets, bind_ok_iff,
    FileRead.parseValidated_ok_iff, FileRead.parsed.injEq] at hfinalize
  obtain ⟨_, ⟨rfl, -⟩, verdicts, hverdicts, hcompute⟩ := hfinalize
  have hjudged := forall₂_rowSound hmodel hverdicts hcompute
  obtain ⟨rows, hrows, hperm⟩ := archive_rows hread htargets hsummary harchive
  have hlength := hrows.length_eq
  have hroster : (doc.targets.zip rows).map Prod.fst = doc.targets :=
    List.map_fst_zip hlength.le
  refine ⟨analyses, doc, doc.targets.zip rows, hanalyses, hdoc, ?_, hroster, ?_, ?_, ?_⟩
  · rwa [List.map_snd_zip hlength.ge]
  · intro k hk
    have hcount := hcov k
    rw [if_pos (mem_expectedPairs.mpr hk), accountedPairs, List.count_append] at hcount
    have hflat : ((doc.targets.zip rows).flatMap fun p => p.fst.mergedFrom.map MergedFrom.pair)
        = doc.targets.flatMap fun t => t.mergedFrom.map MergedFrom.pair := by
      calc ((doc.targets.zip rows).flatMap fun p => p.fst.mergedFrom.map MergedFrom.pair)
          = ((doc.targets.zip rows).map Prod.fst).flatMap fun t =>
              t.mergedFrom.map MergedFrom.pair := by rw [List.flatMap_map]
        _ = doc.targets.flatMap fun t => t.mergedFrom.map MergedFrom.pair := by rw [hroster]
    rw [← hcount, hflat]
  · intro p hp k c hc
    rw [hdecisions p hp] at hdedup
    exact rejected_iff_blocks hnd hdedup hc
  · rintro ⟨t, row⟩ hmem
    obtain ⟨feedback, rfl⟩ := (List.forall₂_iff_zip.mp hrows).right hmem
    have ht : t ∈ doc.targets := (List.of_mem_zip hmem).left
    obtain ⟨judged, e, hfirst, hfind, hrow, hsound⟩ :=
      exists_find?_of_forall₂ (p := fun t' => t'.id = t.id) (q := fun e => e.targetId = t.id)
        hjudged (fun t' e h => by rw [h.right.about.id]) ht (decide_eq_true rfl)
    exact ⟨judged, hfirst, rowTells_targetRecord hnd hcov hbuckets hconsensus ht (hvalid t ht)
      (hvalid judged (List.mem_of_find?_eq_some hfirst)) hfind hsound hrow⟩

/-- An issue for a finding that two analyses made, and one for another finding of the first
analysis. -/
def issueDocument : OptimizationTargets :=
  documentOf ["fam-a", "fam-b"]
    [issueTarget "fix-a" [⟨"fam-a", 0⟩, ⟨"fam-b", 0⟩], issueTarget "fix-c" [⟨"fam-a", 1⟩]] []

/-- The merge that it comes from. History blocks the third finding of the first analysis. -/
def issueMerge : MergeInputs :=
  { oneTargetMerge issueDocument with
    analysisDirs :=
      [⟨"fam-a", FileRead.parsed (Analysis.accepted
        (analysisOf "fam-a" ["fix-a", "fix-c", "fix-b"]))⟩,
      ⟨"fam-b", FileRead.parsed (Analysis.accepted (analysisOf "fam-b" ["fix-a"]))⟩]
    projection := Except.ok
      (DedupProjection.fromLedgers [abortedSession "20260613" "fam-a" "fix-b"] [] 1) }

/-- A session that wrote the first issue, and not the second. -/
def issueSession : SessionFiles :=
  { measuredSession "20260614" "fix-a" with
    consensusIssue := fun id => if id = "fix-a" then some 1 else none
    optimizerReport := fun _ => FileRead.notFound }

/-- What archiving finds of a session that was merged and finalized. -/
def archiveFilesOf (targets : FileRead OptimizationTargets) (summary : Fallible Summary) :
    ArchiveFiles where
  id := "20260614"
  summary := match summary with
    | Except.ok s => FileRead.parsed s
    | Except.error _ => FileRead.notFound
  targets := targets
  publishFeedback := fun _ => FileRead.notFound
  source := FileRead.notFound
  timings := FileRead.notFound
  baselineRunId := FileRead.parsed 1
  baselineRerunId := FileRead.parsed 2
  verifyBenchRun := fun _ _ => FileRead.notFound
  candidateBenchRun := fun _ _ => FileRead.notFound
  latestMtime := none

/-- The status of each row, as the summary has it. -/
def statusesOf (targets : FileRead OptimizationTargets) (summary : Fallible Summary) :
    List TargetStatus :=
  match targets, summary with
  | FileRead.parsed doc, Except.ok s => doc.targets.map fun t =>
      (deriveTargetStatus (s.experiments.find? fun e => e.targetId = t.id)).1
  | _, _ => []

/-- The theorem at two issues, of which one was written: its row is accepted, and the
rows tell of all findings but the one that history blocks. -/
theorem findings_told_issues :
    ∃ r : SessionRecord, (r.targets.map fun row => row.status).Perm
        [TargetStatus.accepted, TargetStatus.aborted]
      ∧ ∃ analyses doc told, readAllAnalyses issueMerge.analysisDirs = Except.ok analyses
        ∧ r.targets.Perm (told.map Prod.snd)
        ∧ FindingsTold (acceptedAnalyses analyses) issueMerge.projection issueSession doc told := by
  let targets := contentsOf (issueMerge.run ⟨none, none⟩).snd.targets
  let af := archiveFilesOf targets (finalize targets issueSession)
  have hend : (match (issueMerge.run ⟨none, none⟩).fst with
    | MergeEnd.returned _ => true
    | _ => false) = true := by decide +kernel
  obtain ⟨outputs, hout⟩ : ∃ outputs,
      (issueMerge.run ⟨none, none⟩).fst = MergeEnd.returned outputs := by
    split at hend
    case h_1 outputs h => exact ⟨outputs, h⟩
    case h_2 => cases hend
  obtain ⟨summary, hsummary⟩ := isOk_iff.mp (show (finalize targets issueSession).isOk = true by
    decide +kernel)
  obtain ⟨r, hr⟩ := Option.isSome_iff_exists.mp (show (archive (FileRead.parsed []) af
      ⟨"2026-06-14T14:00:00Z", ⟨none, none, none, none, "mainnet"⟩, "0.1.0", none⟩
      smoothOps).2.isSome = true by decide +kernel)
  have hread : FeedbackReadable af := fun _ _ _ _ => not_bad_iff.mpr (Or.inl rfl)
  have hparsed : af.summary = FileRead.parsed summary := by
    show (match finalize targets issueSession with
      | Except.ok s => FileRead.parsed s
      | Except.error _ => FileRead.notFound) = FileRead.parsed summary
    rw [hsummary]
  obtain ⟨analyses, doc, told, hanalyses, hdoc, hperm, htold⟩ :=
    findings_told (Prod.ext hout rfl) hsummary rfl hparsed hread hr
  refine ⟨r, ?_, analyses, doc, told, hanalyses, hperm, htold⟩
  have hstatuses : statusesOf (contentsOf (issueMerge.run ⟨none, none⟩).snd.targets)
      (finalize (contentsOf (issueMerge.run ⟨none, none⟩).snd.targets) issueSession)
      = [TargetStatus.accepted, TargetStatus.aborted] := by decide +kernel
  rw [hsummary, hdoc] at hstatuses
  obtain ⟨rows, hrows, hsame⟩ := archive_rows hread hdoc hparsed hr
  have heq : statusesOf (FileRead.parsed doc) (Except.ok summary)
      = rows.map fun row => row.status := by
    refine List.forall₂_eq_eq_eq.le _ _
      (List.forall₂_map_left_iff.mpr (List.forall₂_map_right_iff.mpr ?_))
    refine hrows.imp fun t row hrow => ?_
    obtain ⟨feedback, rfl⟩ := hrow
    rfl
  rw [← hstatuses, heq]
  exact hsame.map _
