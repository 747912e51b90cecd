import Sbagent.Finalize
import Sbagent.PhaseOutputs

/-!
# The session that a summary names

A session has an id and two runs of its baseline, whose ids are in files. Triage tells its
agent about them and the agent copies them to its document; the merge takes them from
there, and its agent copies them once more, with the noise floor and with what the analyses
say about their lenses. The summary is copied from the document of the merge.

On this way nothing is compared. What the validators look at is whether every family has an
entry, not what the entry says. So the summary names the session, the runs and the lenses
that were used exactly when both agents have copied them (`faithful_iff`); the program does
it right itself where it writes the document.
-/

open Fallible

/-- What a session is known by: its id, and what is in the files with the ids of its
baseline's runs. -/
structure SessionIds where
  sessionId : String
  baselineRunId : Fallible ℤ
  baselineRerunId : Fallible ℤ

/-- The triage phase of a session. -/
def Triage.runIn (ids : SessionIds) (io : PhaseIo) (agent : AgentRun Candidates)
    (before : Option (OutputFile Candidates)) : Fallible Candidates := do
  let _ ← ids.baselineRunId.context "reading baseline-run-id"
  let _ ← ids.baselineRerunId.context "reading baseline-rerun-id"
  Triage.run io agent before

namespace SessionContext

/-- A document names the session and its runs. -/
structure Names (ids : SessionIds) (sessionId : String) (runId rerunId : ℤ) : Prop where
  sessionId : sessionId = ids.sessionId
  runId : ids.baselineRunId = Except.ok runId
  rerunId : ids.baselineRerunId = Except.ok rerunId

/-- What an analysis says about its lens. -/
def entryOf (a : AcceptedAnalysis) : LensDispositionEntry where
  familyId := a.familyId
  lens := a.lensDisposition.lens
  status := a.lensDisposition.status
  reason := a.lensDisposition.reason

/-- Both documents, and what they say about the lenses, are of the session. -/
structure Faithful (ids : SessionIds) (accepted : List AcceptedAnalysis) (c : Candidates)
    (o : OptimizationTargets) : Prop where
  candidates : Names ids c.sessionId c.baselineRunId c.baselineRerunId
  targets : Names ids o.sessionId o.baselineRunId o.baselineRerunId
  noiseFloorPct : o.noiseFloorPct = c.noiseFloorPct
  lenses : ∀ d ∈ o.lensDispositions, ∃ a ∈ accepted, a.familyId = d.familyId ∧ entryOf a = d

/-- The agent of the merge has copied what it was given. -/
structure Copies (c : Candidates) (accepted : List AcceptedAnalysis)
    (o : OptimizationTargets) : Prop where
  sessionId : o.sessionId = c.sessionId
  baselineRunId : o.baselineRunId = c.baselineRunId
  baselineRerunId : o.baselineRerunId = c.baselineRerunId
  noiseFloorPct : o.noiseFloorPct = c.noiseFloorPct
  lenses : o.lensDispositions.Perm (accepted.map entryOf)

section Lenses

variable {accepted : List AcceptedAnalysis} {entries : List LensDispositionEntry}

/-- **Entries that cover the families** say what the analyses say, each of them, exactly
when they are what the analyses say. -/
theorem perm_iff (hnodup : (accepted.map fun a => a.familyId).Nodup)
    (hcover : ∀ family, (entries.map fun d => d.familyId).count family
      = if ∃ a ∈ accepted, a.familyId = family then 1 else 0) :
    (∀ d ∈ entries, ∃ a ∈ accepted, a.familyId = d.familyId ∧ entryOf a = d)
      ↔ entries.Perm (accepted.map entryOf) := by
  constructor
  · intro h
    have hentries : (entries.map fun d => d.familyId).Nodup := by
      rw [List.nodup_iff_count_le_one]
      intro family
      rw [hcover family]
      split_ifs <;> decide
    have haccepted : (accepted.map entryOf).Nodup := by
      refine List.Nodup.of_map (fun d => d.familyId) ?_
      rw [List.map_map]
      exact hnodup
    rw [List.perm_ext_iff_of_nodup hentries.of_map haccepted]
    intro d
    constructor
    · intro hd
      obtain ⟨a, ha, -, rfl⟩ := h d hd
      exact List.mem_map_of_mem ha
    · intro hd
      obtain ⟨a, ha, rfl⟩ := List.mem_map.mp hd
      have hone : (entries.map fun d => d.familyId).count a.familyId = 1 := by
        rw [hcover, if_pos ⟨a, ha, rfl⟩]
      obtain ⟨d, hmem, hfamily⟩ := List.mem_map.mp
        (List.count_pos_iff.mp (hone ▸ Nat.one_pos))
      -- the entry is of an analysis, and there is only one of its family
      obtain ⟨a', ha', hsame, rfl⟩ := h d hmem
      obtain rfl := List.inj_on_of_nodup_map hnodup ha' ha (hsame.trans hfamily)
      exact hmem
  · intro h d hd
    obtain ⟨a, ha, rfl⟩ := List.mem_map.mp (h.mem_iff.mp hd)
    exact ⟨a, ha, rfl, rfl⟩

end Lenses

section Documents

variable {ids : SessionIds} {accepted : List AcceptedAnalysis} {c : Candidates}
  {o : OptimizationTargets} {decisions : List DedupDecision}

/-- The documents name the same runs when both name the session's. -/
theorem Names.unique {s s' : String} {m n m' n' : ℤ} (h : Names ids s m n)
    (h' : Names ids s' m' n') : s' = s ∧ m' = m ∧ n' = n :=
  ⟨h'.sessionId.trans h.sessionId.symm, Except.ok.inj (h'.runId.symm.trans h.runId),
    Except.ok.inj (h'.rerunId.symm.trans h.rerunId)⟩

/-- The program copies what it was given. -/
theorem faithful_programTargets
    (h : Names ids c.sessionId c.baselineRunId c.baselineRerunId) :
    Faithful ids accepted c (programTargets c accepted decisions) := by
  refine ⟨h, h, rfl, fun d hd => ?_⟩
  obtain ⟨a, ha, rfl⟩ := List.mem_map.mp hd
  exact ⟨a, ha, rfl, rfl⟩

/-- **A document of the agent that is accepted** is of the session exactly when the agent
has copied what it was given. -/
theorem faithful_withDedup_iff (hnodup : (accepted.map fun a => a.familyId).Nodup)
    (hvalid : validateMergeOutputWithDedup (o.withDedup decisions) accepted decisions
      = Except.ok ()) :
    Faithful ids accepted c (o.withDedup decisions)
      ↔ Names ids c.sessionId c.baselineRunId c.baselineRerunId ∧ Copies c accepted o := by
  have hcover := ((validateMergeOutputWithDedup_ok_iff (o.withDedup decisions) accepted decisions
    hnodup).mp hvalid).lens
  constructor
  · rintro ⟨hcandidates, htargets, hnoise, hlenses⟩
    obtain ⟨hsession, hrun, hrerun⟩ := hcandidates.unique htargets
    exact ⟨hcandidates, hsession, hrun, hrerun, hnoise, (perm_iff hnodup hcover).mp hlenses⟩
  · rintro ⟨hcandidates, hsession, hrun, hrerun, hnoise, hlenses⟩
    have htargets : Names ids o.sessionId o.baselineRunId o.baselineRerunId := by
      rw [hsession, hrun, hrerun]
      exact hcandidates
    exact ⟨hcandidates, htargets, hnoise, (perm_iff hnodup hcover).mpr hlenses⟩

end Documents

/-- Both agents have copied what they were given. -/
def BothCopy (ids : SessionIds) (i : MergeInputs) (before : MergeFiles) (c : Candidates) :
    Prop :=
  Names ids c.sessionId c.baselineRunId c.baselineRerunId
    ∧ ∀ accepted decisions o, i.plan = Except.ok (MergePlan.ask accepted decisions) →
      i.readOutput before = Except.ok o → Copies c accepted o

/-- A summary says what the document says that it is computed from. -/
structure SummaryOf (o : OptimizationTargets) (summary : Summary) : Prop where
  sessionId : summary.sessionId = o.sessionId
  baselineRunId : summary.baselineRunId = o.baselineRunId
  baselineRerunId : summary.baselineRerunId = o.baselineRerunId
  noiseFloorPct : summary.noiseFloorPct = o.noiseFloorPct
  lensDispositions : summary.lensDispositions = o.lensDispositions

theorem summaryOf_computeSummary {o : OptimizationTargets} {files : SessionFiles}
    {verdicts : VerdictMap} {summary : Summary}
    (h : computeSummary o files verdicts = Except.ok summary) : SummaryOf o summary := by
  unfold computeSummary at h
  obtain ⟨experiments, -, h⟩ := bind_ok_iff.mp h
  obtain ⟨source, -, h⟩ := bind_ok_iff.mp h
  obtain rfl := pure_ok_iff.mp h
  exact ⟨rfl, rfl, rfl, rfl, rfl⟩

/-- **The documents are of the session exactly when both agents have copied it**, once
triage and the merge have returned; and a summary says what the document of the merge
says. -/
theorem faithful_iff (ids : SessionIds) (io : PhaseIo) (agent : AgentRun Candidates)
    (slate : Option (OutputFile Candidates)) (c : Candidates) (i : MergeInputs)
    (before files : MergeFiles) (outputs : MergeOutputs)
    (htriage : Triage.runIn ids io agent slate = Except.ok c)
    (hcandidates : i.candidates = contentsOf (agent.leaves slate))
    (hmerge : i.run before = (MergeEnd.returned outputs, files)) :
    ∃ o analyses, contentsOf files.targets = FileRead.parsed o
      ∧ readAllAnalyses i.analysisDirs = Except.ok analyses
      ∧ (Faithful ids (acceptedAnalyses analyses) c o ↔ BothCopy ids i before c)
      ∧ ∀ sessionFiles verdicts summary,
        computeSummary o sessionFiles verdicts = Except.ok summary → SummaryOf o summary := by
  have hc : i.candidates = FileRead.parsed c := by
    unfold Triage.runIn at htriage
    obtain ⟨-, -, htriage⟩ := bind_ok_iff.mp htriage
    obtain ⟨-, -, htriage⟩ := bind_ok_iff.mp htriage
    rw [hcandidates]
    exact ((Triage.run_ok_iff c).mp htriage).right.right.left
  obtain ⟨o, hfiles, hcases⟩ := MergeInputs.run_cases hmerge
  have hcontents : contentsOf files.targets = FileRead.parsed o := by
    rw [hfiles]
    rfl
  have hsummary : ∀ sessionFiles verdicts summary,
      computeSummary o sessionFiles verdicts = Except.ok summary → SummaryOf o summary :=
    fun _ _ _ => summaryOf_computeSummary
  -- the program writes the document itself, unless there is something to merge
  obtain ⟨c', -, hplan, rfl⟩ | ⟨c', accepted, decisions, -, hplan, rfl⟩
    | ⟨accepted, decisions, o', hplan, ho', rfl, hvalid⟩ := hcases
  · obtain ⟨c'', analyses, hparsed, hanalyses, ⟨hempty, hc'⟩ | ⟨p, -, ⟨-, hc'⟩ | hc'⟩⟩ :=
      plan_ok hplan
    · obtain rfl := MergePlan.empty.inj hc'
      obtain rfl := FileRead.parsed.inj (hparsed.symm.trans hc)
      refine ⟨_, analyses, hcontents, hanalyses, ?_, hsummary⟩
      rw [hempty]
      refine ⟨fun h => ⟨h.candidates, fun accepted decisions o hask => ?_⟩,
        fun h => faithful_programTargets h.left⟩
      rw [hplan] at hask
      cases Except.ok.inj hask
    · cases hc'
    · cases hc'
  · obtain ⟨c'', analyses, hparsed, hanalyses, ⟨-, hc'⟩ | ⟨p, -, ⟨-, hc'⟩ | hc'⟩⟩ := plan_ok hplan
    · cases hc'
    · obtain ⟨rfl, rfl, -⟩ := MergePlan.dedupOnly.inj hc'
      obtain rfl := FileRead.parsed.inj (hparsed.symm.trans hc)
      refine ⟨_, analyses, hcontents, hanalyses, ?_, hsummary⟩
      refine ⟨fun h => ⟨h.candidates, fun accepted decisions o hask => ?_⟩,
        fun h => faithful_programTargets h.left⟩
      rw [hplan] at hask
      cases Except.ok.inj hask
    · cases hc'
  · obtain ⟨c'', analyses, -, hanalyses, ⟨-, hc'⟩ | ⟨p, -, ⟨-, hc'⟩ | hc'⟩⟩ := plan_ok hplan
    · cases hc'
    · cases hc'
    · obtain ⟨rfl, -⟩ := MergePlan.ask.inj hc'
      refine ⟨_, analyses, hcontents, hanalyses, ?_, hsummary⟩
      -- the agent was asked, and its document is the one that is read
      rw [faithful_withDedup_iff (nodup_acceptedAnalyses hanalyses) hvalid]
      refine ⟨fun h => ⟨h.left, fun accepted' decisions' o hask ho => ?_⟩,
        fun h => ⟨h.left, h.right _ _ o' hplan ho'⟩⟩
      rw [hplan] at hask
      rw [ho'] at ho
      obtain ⟨rfl, -⟩ := MergePlan.ask.inj (Except.ok.inj hask)
      obtain rfl := Except.ok.inj ho
      exact h.right

/-! ## A document of another session -/

section Demo

/-- The ids of a session. -/
def sampleIds : SessionIds := ⟨"20260614", Except.ok 1, Except.ok 2⟩

def sampleIo : PhaseIo := ⟨Except.ok (), Except.ok (), Except.ok ()⟩

/-- What triage says of the session. -/
def sampleCandidates : Candidates := ⟨"20260614", 1, 2, F64.ofNat 1, [], ⟨0, 0, 0⟩⟩

/-- The agent of triage. -/
def sampleTriage : AgentRun Candidates :=
  ⟨Except.ok (), some ⟨true, FileRead.parsed sampleCandidates, 3⟩⟩

/-- A document of the merge that keeps the one target there is, for a session. -/
def mergedFor (sessionId : String) : OptimizationTargets :=
  { documentOf ["fam-a"] [issueTarget "fix-a" [⟨"fam-a", 0⟩]] [] with sessionId := sessionId }

/-- The merge that is told about the session. -/
def mergeInputs (sessionId : String) : MergeInputs :=
  { oneTargetMerge (mergedFor sessionId) with
    candidates := contentsOf (sampleTriage.leaves none) }

/-- **A document of another session is accepted.** -/
theorem not_faithful_of_other_session :
    ¬ ∀ (ids : SessionIds) (io : PhaseIo) (agent : AgentRun Candidates)
        (slate : Option (OutputFile Candidates)) (c : Candidates) (i : MergeInputs)
        (before files : MergeFiles) (outputs : MergeOutputs),
      Triage.runIn ids io agent slate = Except.ok c →
      i.candidates = contentsOf (agent.leaves slate) →
      i.run before = (MergeEnd.returned outputs, files) →
      ∀ o, contentsOf files.targets = FileRead.parsed o → o.sessionId = ids.sessionId := by
  intro h
  have hreturned : ((mergeInputs "20260613").run ⟨none, none⟩).fst
      = MergeEnd.returned ⟨1, 1, false, 0, true, none⟩ := by decide +kernel
  have hwrong : (contentsOf ((mergeInputs "20260613").run ⟨none, none⟩).snd.targets).value?.map
      (fun o => o.sessionId) = some "20260613" := by decide +kernel
  obtain ⟨o, ho, hsession⟩ := Option.map_eq_some_iff.mp hwrong
  have hfile : contentsOf ((mergeInputs "20260613").run ⟨none, none⟩).snd.targets
      = FileRead.parsed o := by
    cases hread : contentsOf ((mergeInputs "20260613").run ⟨none, none⟩).snd.targets with
    | parsed o' =>
      rw [hread] at ho
      exact congrArg FileRead.parsed (Option.some.inj ho)
    | _ =>
      rw [hread] at ho
      cases ho
  have hsame := h sampleIds sampleIo sampleTriage none sampleCandidates (mergeInputs "20260613")
    ⟨none, none⟩ _ _ rfl rfl (Prod.ext hreturned rfl) o hfile
  rw [hsession] at hsame
  revert hsame
  decide

/-- A document that was copied is of the session. -/
theorem faithful_iff_sample : ∃ o analyses,
    contentsOf ((mergeInputs "20260614").run ⟨none, none⟩).snd.targets = FileRead.parsed o
      ∧ readAllAnalyses (mergeInputs "20260614").analysisDirs = Except.ok analyses
      ∧ (Faithful sampleIds (acceptedAnalyses analyses) sampleCandidates o
        ↔ BothCopy sampleIds (mergeInputs "20260614") ⟨none, none⟩ sampleCandidates)
      ∧ ∀ sessionFiles verdicts summary,
        computeSummary o sessionFiles verdicts = Except.ok summary → SummaryOf o summary := by
  have hreturned : ((mergeInputs "20260614").run ⟨none, none⟩).fst
      = MergeEnd.returned ⟨1, 1, false, 0, true, none⟩ := by decide +kernel
  exact faithful_iff sampleIds sampleIo sampleTriage none sampleCandidates
    (mergeInputs "20260614") ⟨none, none⟩ _ _ rfl rfl (Prod.ext hreturned rfl)

end Demo

end SessionContext
