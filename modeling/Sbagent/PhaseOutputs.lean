import Sbagent.Merge
import Sbagent.Reports

/-!
# What a phase takes for its agent's output

Four phases hand a prompt to an agent, wait until it exits, and then look for the
file that it was to write: triage, the analysis of a family, the merge, and the
analysis of results. The file is looked for by its name. Where the session's
directory is used again, a file of an earlier invocation may have that name; and
of the four only the merge looks at the time at which its file was written. The
others take an old file that passes their checks for the output of an agent that
wrote none.

The merge has the opposite problem. It writes the document back, with the
rejections that history forces, and only then checks it against the analyses. A
document that is refused is on disk by then, and whoever reads it again checks it
by itself only. It was read that way before, and it still passes.
-/

open Fallible Keyed

/-! ## Files and agents -/

/-- A file that an agent is to write: whether there is anything in it, what
reading and parsing it finds, and when it was written. -/
structure OutputFile (α : Type) where
  nonEmpty : Bool
  contents : FileRead α
  mtime : ℕ
  deriving DecidableEq

section Files

variable {α : Type}

/-- A file is there, with something in it. -/
def OutputFile.isNonEmptyFile (f : Option (OutputFile α)) : Bool := f.any fun f => f.nonEmpty

/-- When a file was written, if it is there. -/
def mtime (f : Option (OutputFile α)) : Option ℕ := f.map fun f => f.mtime

/-- What reading and parsing a file finds. -/
def contentsOf (f : Option (OutputFile α)) : FileRead α :=
  match f with
  | none => FileRead.notFound
  | some f => f.contents

/-- Read and parse a file that has to be there; the messages say what was being
done when it failed. -/
def FileRead.readParsed (reading parsing : String) : FileRead α → Fallible α
  | notFound => bail reading
  | ioError => bail reading
  | malformed => bail parsing
  | parsed a => Except.ok a

@[simp] theorem FileRead.readParsed_ok_iff {reading parsing : String} {f : FileRead α}
    {a : α} : f.readParsed reading parsing = Except.ok a ↔ f = FileRead.parsed a := by
  cases f <;> simp [FileRead.readParsed]

/-- An invocation of an agent: how it ends, and the file that it writes, if it
writes one. -/
structure AgentRun (α : Type) where
  exit : Fallible Unit
  output : Option (OutputFile α)

/-- The file after the invocation. -/
def AgentRun.leaves (agent : AgentRun α) (before : Option (OutputFile α)) :
    Option (OutputFile α) :=
  agent.output.or before

end Files

/-- What else happens in a phase: everything that comes before the agent, writing
down its conversation, and everything after the check of its output. -/
structure PhaseIo where
  prepare : Fallible Unit
  noteConversation : Fallible Unit
  finish : Fallible Unit
  deriving DecidableEq

/-! ## Triage -/

/-- Kind of a family. -/
inductive FamilyKind where
  | txFamily
  | blockFamily
  | contractFamily
  deriving DecidableEq

/-- A family kind in a message. -/
def FamilyKind.debug : FamilyKind → String
  | txFamily => "TxFamily"
  | blockFamily => "BlockFamily"
  | contractFamily => "ContractFamily"

/-- The entry points that represent a family, in the shape of its kind. -/
inductive RepresentativeIds where
  | contract (issuer contract function : String) (stacksTxHashes : List String)
  | tx (stacksTxHashes : List String)
  | block (stacksBlockHashes : List String)
  deriving DecidableEq

/-- The shape of the entry points in a message. -/
def RepresentativeIds.discriminator : RepresentativeIds → String
  | contract _ _ _ _ => "Contract"
  | tx _ => "Tx"
  | block _ => "Block"

/-- A family that triage promoted. -/
structure Candidate where
  id : String
  kind : FamilyKind
  selectionLens : SelectionLens
  representativeIds : RepresentativeIds
  deriving DecidableEq

/-- How many candidates triage says each lens contributed. -/
structure LensCoverage where
  txLatency : ℕ
  tenureThroughput : ℕ
  commitTime : ℕ
  deriving DecidableEq

/-- The counts in a message. -/
def LensCoverage.display (lc : LensCoverage) : String :=
  "\x7btx_latency: " ++ s!"{lc.txLatency}, tenure_throughput: {lc.tenureThroughput}, "
    ++ s!"commit_time: {lc.commitTime}" ++ "\x7d"

/-- The contents of `candidates.json`. -/
structure Candidates where
  sessionId : String
  baselineRunId : ℤ
  baselineRerunId : ℤ
  noiseFloorPct : F64
  candidates : List Candidate
  lensCoverage : LensCoverage
  deriving DecidableEq

/-- The entry points of a candidate have the shape of its kind. -/
def Candidate.validateKindConsistency (c : Candidate) : Fallible Unit :=
  match c.kind, c.representativeIds with
  | FamilyKind.txFamily, RepresentativeIds.tx _ => Except.ok ()
  | FamilyKind.blockFamily, RepresentativeIds.block _ => Except.ok ()
  | FamilyKind.contractFamily, RepresentativeIds.contract _ _ _ _ => Except.ok ()
  | kind, ids =>
    bail (s!"candidate `{c.id}`: kind={kind.debug} does not match "
      ++ s!"representative_ids variant {Text.debug ids.discriminator}")

/-- How many candidates a lens contributed. -/
def Candidates.tally (cs : Candidates) (lens : SelectionLens) : ℕ :=
  cs.candidates.countP fun c => c.selectionLens = lens

/-- Every candidate is well formed, and the lenses are counted right. -/
def Candidates.validateModel (cs : Candidates) : Fallible Unit := do
  forEach (fun _ c => do
    bailIf (c.id = "") "candidate id is empty"
    c.validateKindConsistency) cs.candidates
  let latency := cs.tally SelectionLens.txLatency
  let throughput := cs.tally SelectionLens.tenureThroughput
  let commit := cs.tally SelectionLens.commitTime
  bailIf (cs.lensCoverage.txLatency ≠ latency
      ∨ cs.lensCoverage.tenureThroughput ≠ throughput
      ∨ cs.lensCoverage.commitTime ≠ commit)
    ("lens_coverage tallies disagree with per-lens candidate counts: reported "
      ++ cs.lensCoverage.display
      ++ " vs actual " ++ (LensCoverage.mk latency throughput commit).display)

/-- The triage phase, from its agent on. -/
def Triage.run (io : PhaseIo) (agent : AgentRun Candidates)
    (before : Option (OutputFile Candidates)) : Fallible Candidates := do
  io.prepare
  agent.exit.context "invoking codex for triage"
  io.noteConversation.context "writing triage-conversation-id"
  bailIf (OutputFile.isNonEmptyFile (agent.leaves before) = false)
    "Triage did not emit candidates.json. See triage/final-message.md."
  let candidates ← ((contentsOf (agent.leaves before)).parseJson
    "triage/candidates.json").context
    "parsing candidates.json (does it match the v2 schema?)"
  candidates.validateModel.context "candidates.json failed cross-field validation"
  io.finish
  return candidates

/-! ## The analysis of a family -/

/-- The replay of a target has no more invocations than are allowed. -/
def enforceInvocationCap (familyId : String) (analysis : Analysis) (cap : ℕ) :
    Fallible Unit :=
  match analysis with
  | Analysis.rejected _ => Except.ok ()
  | Analysis.accepted accepted =>
    forEach (fun i t =>
      if t.consensusBreaking = true then Except.ok ()
      else
        onSome t.verificationReplay fun vr =>
          bailIf (cap < vr.invocations.length)
            (s!"analyzer `{familyId}` target[{i}] (`{t.fixSignature}`): "
              ++ "verification_replay.invocations has "
              ++ s!"{vr.invocations.length} entries, exceeds operator cap of {cap} "
              ++ "(analyzer.max_invocations_per_target). Tighten the analyzer's "
              ++ "invocation decomposition or raise the cap.")) accepted.targets

/-- The analysis of one family. What becomes of the ledger of rejections after it
does not matter. -/
def Analyzers.runOne (familyId : String) (cap : ℕ) (io : PhaseIo)
    (agent : AgentRun Analysis) (before : Option (OutputFile Analysis)) :
    Fallible Analysis := do
  io.prepare
  agent.exit.context s!"invoking codex for analyzer {familyId}"
  io.noteConversation
  bailIf (OutputFile.isNonEmptyFile (agent.leaves before) = false)
    (s!"analyzer for {familyId} did not emit analysis.json (see "
      ++ s!"analysis/{familyId}/final-message.md)")
  let analysis ← (contentsOf (agent.leaves before)).readParsed "reading failed"
    s!"parsing analysis/{familyId}/analysis.json"
  enforceInvocationCap familyId analysis cap
  return analysis

/-! ## The analysis of results -/

/-- The analysis of the results of one target. -/
def ResultsAnalyzer.runOne (sessionId targetId : String) (io : PhaseIo)
    (agent : AgentRun ResultsAnalysis) (before : Option (OutputFile ResultsAnalysis)) :
    Fallible ResultsAnalysis := do
  io.prepare
  agent.exit.context s!"invoking codex for results-analyzer `{targetId}`"
  let ra ← (contentsOf (agent.leaves before)).readParsed
    s!"reading analyze/{targetId}/results-analysis.json"
    s!"parsing/validating analyze/{targetId}/results-analysis.json"
  ra.validateModel.context
    s!"parsing/validating analyze/{targetId}/results-analysis.json"
  -- validated on parsing, and once more
  ra.validateModel.context
    s!"cross-field validation of analyze/{targetId}/results-analysis.json"
  bailIf (ra.sessionId ≠ sessionId)
    (s!"results-analysis.session_id = {Text.debug ra.sessionId} does not match the "
      ++ s!"session this phase ran in ({Text.debug sessionId})")
  bailIf (ra.targetId ≠ targetId)
    (s!"results-analysis.target_id = {Text.debug ra.targetId} does not match the "
      ++ s!"target the agent was given ({Text.debug targetId})")
  return ra

/-! ## The merge -/

/-- One directory of analyses, under its name. -/
structure AnalysisDir where
  name : String
  analysis : FileRead Analysis
  deriving DecidableEq

/-- Read the analysis of one directory, if there is one. -/
def readAnalysisDir (d : AnalysisDir) : Fallible (Option Analysis) :=
  if d.analysis = FileRead.notFound then Except.ok none
  else do
    let path := s!"analysis/{d.name}/analysis.json"
    let analysis ← d.analysis.parseJson path
    bailIf (analysis.familyId ≠ d.name)
      (s!"{path}: analysis.family_id={Text.debug analysis.familyId} but parent dir is "
        ++ Text.debug d.name)
    analysis.validateModel.context s!"validating {path}"
    return some analysis

/-- Read all analyses, and put them under the names of their directories. -/
def readAllAnalyses (dirs : List AnalysisDir) :
    Fallible (Std.ExtTreeMap String Analysis) := do
  let read ← dirs.mapM fun d => do
    let analysis ← readAnalysisDir d
    return analysis.map fun a => (d.name, a)
  return insertAll compare read.reduceOption

/-- The accepted ones, in the order of their families. -/
def acceptedAnalyses (analyses : Std.ExtTreeMap String Analysis) :
    List AcceptedAnalysis :=
  analyses.toList.filterMap fun p =>
    match p.snd with
    | Analysis.accepted a => some a
    | Analysis.rejected _ => none

/-- The files that the merge leaves. -/
structure MergeFiles where
  /-- `optimization-targets.json`. -/
  targets : Option (OutputFile OptimizationTargets)
  /-- `merge-final-message.md`. -/
  message : Option (OutputFile Unit)

/-- What the merge works with: what it reads, its agent, and what the file system
does when it writes. -/
structure MergeInputs where
  candidates : FileRead Candidates
  analysisDirs : List AnalysisDir
  /-- History, as far as it decides which targets are blocked. -/
  projection : Fallible DedupProjection
  /-- Rendering the prompt and making the directories. -/
  prepare : Fallible Unit
  agent : AgentRun OptimizationTargets
  /-- The message that the agent leaves, if it leaves one. -/
  agentMessage : Option (OutputFile Unit)
  conversationId : Option String
  noteConversation : Fallible Unit
  storeTargets : Fallible Unit
  storeMessage : Fallible Unit
  now : ℕ

/-- What the merge returns. -/
structure MergeOutputs where
  acceptedInputCount : ℕ
  mergedTargetCount : ℕ
  emptyInputShortcut : Bool
  dedupedTargetCount : ℕ
  llmInvoked : Bool
  conversationId : Option String
  deriving DecidableEq

/-- How the merge ends. -/
inductive MergeEnd where
  | returned (o : MergeOutputs)
  /-- The document was refused: it fails the rules across its records. -/
  | refused (e : List String)
  /-- Anything else went wrong. -/
  | failed (e : List String)
  deriving DecidableEq

/-- A document with the rejections that history forces. -/
def OptimizationTargets.withDedup (o : OptimizationTargets)
    (decisions : List DedupDecision) : OptimizationTargets :=
  { o with rejectedByMerge := o.rejectedByMerge ++ dedupRejections decisions }

/-- The lens dispositions of the accepted analyses. -/
def lensDispositionsFromAccepted (accepted : List AcceptedAnalysis) :
    List LensDispositionEntry :=
  accepted.map fun a =>
    { familyId := a.familyId, lens := a.lensDisposition.lens,
      status := a.lensDisposition.status, reason := a.lensDisposition.reason }

/-- A document that the program itself writes, without targets. -/
def programTargets (c : Candidates) (accepted : List AcceptedAnalysis)
    (decisions : List DedupDecision) : OptimizationTargets where
  sessionId := c.sessionId
  baselineRunId := c.baselineRunId
  baselineRerunId := c.baselineRerunId
  noiseFloorPct := c.noiseFloorPct
  mergeModel := ""
  targets := []
  rejectedByMerge := dedupRejections decisions
  lensDispositions := lensDispositionsFromAccepted accepted

/-- What the merge is to do: nothing, if there are no analyses or if history blocks
all of their targets, or to ask its agent. -/
inductive MergePlan where
  | empty (c : Candidates)
  | dedupOnly (c : Candidates) (accepted : List AcceptedAnalysis)
      (decisions : List DedupDecision)
  | ask (accepted : List AcceptedAnalysis) (decisions : List DedupDecision)

namespace MergeInputs

variable (i : MergeInputs)

/-- What the merge is to do. -/
def plan : Fallible MergePlan := do
  let c ← (i.candidates.parseJson "triage/candidates.json").context
    "loading candidates.json (required for session-level fields)"
  let analyses ← readAllAnalyses i.analysisDirs
  forEach (fun _ p => p.snd.validateModel.context
    s!"analysis/{p.fst}/analysis.json failed validation") analyses.toList
  let accepted := acceptedAnalyses analyses
  if accepted = [] then return MergePlan.empty c
  else
    let projection ← i.projection
    let filtered := filterAcceptedForDedup accepted projection
    if (filtered.fst.all fun a => a.targets = []) = true then
      return MergePlan.dedupOnly c accepted filtered.snd
    else return MergePlan.ask accepted filtered.snd

/-- The files after the agent. -/
def leaves (before : MergeFiles) : MergeFiles where
  targets := i.agent.leaves before.targets
  message := i.agentMessage.or before.message

/-- A file that was there has not been written since. -/
def isStale {α : Type} (before after : Option (OutputFile α)) : Bool :=
  (mtime before).any fun pre => mtime after = some pre

/-- The agent's document: it has to be there with its message, both of them written
by this invocation. -/
def readOutput (before : MergeFiles) : Fallible OptimizationTargets := do
  let after := i.leaves before
  i.agent.exit.context "invoking codex for merge"
  i.noteConversation
  bailIf (OutputFile.isNonEmptyFile after.targets = false)
    "merge: optimization-targets.json missing or empty after invocation"
  bailIf (OutputFile.isNonEmptyFile after.message = false)
    "merge: merge-final-message.md missing or empty after invocation"
  bailIf (isStale before.targets after.targets = true)
    ("merge: codex exited 0 but did not refresh optimization-targets.json (stale "
      ++ "prior file detected)")
  bailIf (isStale before.message after.message = true)
    ("merge: codex exited 0 but did not refresh merge-final-message.md (stale prior "
      ++ "file detected)")
  readOptimizationTargets (contentsOf after.targets)

/-- Write the program's own message, if the agent was not asked. -/
def storeOwnMessage (files : MergeFiles) (llmInvoked : Bool) : Fallible MergeFiles :=
  if llmInvoked = true then Except.ok files
  else do
    i.storeMessage
    return { files with message := some ⟨true, FileRead.parsed (), i.now⟩ }

/-- Write a document, and check it then. -/
def store (files : MergeFiles) (o : OptimizationTargets) (accepted : List AcceptedAnalysis)
    (decisions : List DedupDecision) (outputs : MergeOutputs) : MergeEnd × MergeFiles :=
  match i.storeTargets with
  | Except.error e =>
    -- the file was truncated
    (MergeEnd.failed e,
      { files with targets := some ⟨false, FileRead.malformed, i.now⟩ })
  | Except.ok () =>
    let files := { files with targets := some ⟨true, FileRead.parsed o, i.now⟩ }
    match i.storeOwnMessage files outputs.llmInvoked with
    | Except.error e => (MergeEnd.failed e, files)
    | Except.ok files =>
      match validateMergeOutputWithDedup o accepted decisions with
      | Except.error e => (MergeEnd.refused e, files)
      | Except.ok () => (MergeEnd.returned outputs, files)

/-- The merge phase. -/
def run (before : MergeFiles) : MergeEnd × MergeFiles :=
  match i.plan with
  | Except.error e => (MergeEnd.failed e, before)
  | Except.ok (MergePlan.empty c) =>
    i.store before (programTargets c [] []) [] [] ⟨0, 0, true, 0, false, none⟩
  | Except.ok (MergePlan.dedupOnly c accepted decisions) =>
    i.store before (programTargets c accepted decisions) accepted decisions
      ⟨accepted.length, 0, false, decisions.length, false, none⟩
  | Except.ok (MergePlan.ask accepted decisions) =>
    match i.prepare with
    | Except.error e => (MergeEnd.failed e, before)
    | Except.ok () =>
      match i.readOutput before with
      | Except.error e => (MergeEnd.failed e, i.leaves before)
      | Except.ok o =>
        i.store (i.leaves before) (o.withDedup decisions) accepted decisions
          ⟨accepted.length, o.targets.length, false, decisions.length, true,
            i.conversationId⟩

end MergeInputs

/-! ## What the merge reads -/

section Reading

variable {dirs : List AnalysisDir} {analyses : Std.ExtTreeMap String Analysis}

theorem readAnalysisDir_ok {d : AnalysisDir} {a : Analysis}
    (h : readAnalysisDir d = Except.ok (some a)) :
    a.familyId = d.name ∧ a.validateModel = Except.ok () := by
  unfold readAnalysisDir at h
  split at h
  case isTrue => cases Except.ok.inj h
  case isFalse =>
    simp only [bind_ok_iff, bailIf_ok_iff, context_ok_iff, pure_ok_iff, not_not] at h
    obtain ⟨a', -, _, hname, _, hvalid, ha⟩ := h
    obtain rfl := Option.some.inj ha
    exact ⟨hname, hvalid⟩

/-- What is read is what stands in a directory. -/
theorem exists_of_readAllAnalyses (h : readAllAnalyses dirs = Except.ok analyses) {k : String}
    {a : Analysis} (hk : analyses[k]? = some a) :
    ∃ d ∈ dirs, d.name = k ∧ readAnalysisDir d = Except.ok (some a) := by
  unfold readAllAnalyses at h
  obtain ⟨read, hread, hmap⟩ := bind_ok_iff.mp h
  obtain rfl := pure_ok_iff.mp hmap
  rw [getElem?_insertAll] at hk
  obtain ⟨p, hp, rfl⟩ := Option.map_eq_some_iff.mp hk
  obtain ⟨hmem, rfl⟩ := mem_under.mp (List.mem_of_getLast? hp)
  obtain ⟨d, hd, hval⟩ := exists_of_mem_mapM hread (List.reduceOption_mem_iff.mp hmem)
  obtain ⟨o, ho, hpair⟩ := bind_ok_iff.mp hval
  obtain ⟨a, rfl, rfl⟩ := Option.map_eq_some_iff.mp (pure_ok_iff.mp hpair)
  exact ⟨d, hd, rfl, ho⟩

/-- **An analysis is read under its own family, and is valid.** -/
theorem readAllAnalyses_ok (h : readAllAnalyses dirs = Except.ok analyses) {k : String}
    {a : Analysis} (hk : analyses[k]? = some a) :
    a.familyId = k ∧ a.validateModel = Except.ok () := by
  obtain ⟨d, -, rfl, hd⟩ := exists_of_readAllAnalyses h hk
  exact readAnalysisDir_ok hd

/-- **Nothing that is there is passed over**: it is read under the name of its directory,
and it is valid. -/
theorem readAllAnalyses_of_mem (h : readAllAnalyses dirs = Except.ok analyses)
    {d : AnalysisDir} (hd : d ∈ dirs) (hfile : d.analysis ≠ FileRead.notFound) :
    d.name ∈ analyses
      ∧ ∃ a, d.analysis = FileRead.parsed a ∧ readAnalysisDir d = Except.ok (some a) := by
  unfold readAllAnalyses at h
  obtain ⟨read, hread, hmap⟩ := bind_ok_iff.mp h
  obtain rfl := pure_ok_iff.mp hmap
  obtain ⟨b, hb, hval⟩ := exists_mem_of_mapM hread hd
  obtain ⟨o, ho, hpair⟩ := bind_ok_iff.mp hval
  obtain ⟨a, hparsed, rfl⟩ : ∃ a, d.analysis = FileRead.parsed a ∧ o = some a := by
    unfold readAnalysisDir at ho
    rw [if_neg hfile] at ho
    simp only [bind_ok_iff, pure_ok_iff, FileRead.parseJson_ok_iff] at ho
    obtain ⟨a, ha, -, -, -, -, rfl⟩ := ho
    exact ⟨a, ha, rfl⟩
  refine ⟨?_, a, hparsed, ho⟩
  have hsome : some (d.name, a) = b := pure_ok_iff.mp hpair
  have hmem : (d.name, a) ∈ under Prod.fst d.name read.reduceOption :=
    mem_under.mpr ⟨List.reduceOption_mem_iff.mpr (hsome ▸ hb), rfl⟩
  rw [← Std.ExtTreeMap.isSome_getElem?_iff_mem, getElem?_insertAll, Option.isSome_map,
    List.getLast?_isSome]
  exact List.ne_nil_of_mem hmem

theorem mem_acceptedAnalyses {a : AcceptedAnalysis} :
    a ∈ acceptedAnalyses analyses
      ↔ ∃ k : String, analyses[k]? = some (Analysis.accepted a) := by
  unfold acceptedAnalyses
  rw [List.mem_filterMap]
  constructor
  · rintro ⟨⟨k, b⟩, hmem, hb⟩
    refine ⟨k, ?_⟩
    cases b with
    | accepted a' =>
      obtain rfl := Option.some.inj hb
      exact Std.ExtTreeMap.mem_toList_iff_getElem?_eq_some.mp hmem
    | rejected r => cases hb
  · rintro ⟨k, hk⟩
    exact ⟨(k, Analysis.accepted a),
      Std.ExtTreeMap.mem_toList_iff_getElem?_eq_some.mpr hk, rfl⟩

/-- The accepted analyses are of different families. -/
theorem nodup_acceptedAnalyses (h : readAllAnalyses dirs = Except.ok analyses) :
    ((acceptedAnalyses analyses).map fun a => a.familyId).Nodup := by
  have hkeys : ∀ p ∈ analyses.toList, p.snd.familyId = p.fst := fun p hp =>
    (readAllAnalyses_ok h (Std.ExtTreeMap.mem_toList_iff_getElem?_eq_some.mp hp)).left
  refine List.Nodup.sublist ?_ (nodup_fst_toList (m := analyses))
  unfold acceptedAnalyses
  generalize analyses.toList = l at hkeys
  induction l with
  | nil => exact List.Sublist.slnil
  | cons p l ih =>
    have hsub := ih fun q hq => hkeys q (List.mem_cons_of_mem p hq)
    have hp := hkeys p List.mem_cons_self
    obtain ⟨k, b⟩ := p
    cases b with
    | accepted a =>
      obtain rfl : a.familyId = k := hp
      exact hsub.cons_cons a.familyId
    | rejected r => exact hsub.cons k

end Reading

/-! ## What the program itself writes is accepted -/

section ProgramTargets

variable {c : Candidates} {accepted : List AcceptedAnalysis} {p : DedupProjection}

theorem validateModel_programTargets {decisions : List DedupDecision}
    (h : ∀ a ∈ accepted, a.validateModel = Except.ok ()) :
    (programTargets c accepted decisions).validateModel = Except.ok () := by
  show (do forEach _ []; forEach _ (lensDispositionsFromAccepted accepted)) = _
  rw [seq_ok_iff]
  refine ⟨rfl, ?_⟩
  rw [forEach_ok_iff_forall (P := fun d : LensDispositionEntry =>
    ¬ (d.status = LensDispositionStatus.notActionable ∧ d.reason = none))
    fun _ d => bailIf_ok_iff]
  intro d hd
  obtain ⟨a, ha, rfl⟩ := List.mem_map.mp hd
  have hvalid := h a ha
  unfold AcceptedAnalysis.validateModel at hvalid
  simp only [seq_ok_iff, bailIf_ok_iff] at hvalid
  exact hvalid.right.left

theorem reason_of_mem_decisions {d : DedupDecision}
    (hd : d ∈ (filterAcceptedForDedup accepted p).snd) :
    isDedupReason d.reason = true := by
  obtain ⟨a, -, hda⟩ := List.mem_flatMap.mp hd
  obtain ⟨t, -, ht⟩ := List.mem_filterMap.mp hda
  exact (DedupProjection.decisionFor_spec ht).right.right.right

theorem startsWith_of_isDedupReason {reason : String} (h : isDedupReason reason = true) :
    Text.startsWith reason "dedup:" = true := by
  unfold isDedupReason at h
  simp only [Bool.or_eq_true, decide_eq_true_eq] at h
  obtain ((rfl | rfl) | rfl) | rfl := h <;> decide

/-- **When history blocks every target, the document without targets is what the
rules ask for.** -/
theorem validate_programTargets
    (hvalid : ∀ a ∈ accepted, a.validateModel = Except.ok ())
    (hnd : (accepted.map fun a => a.familyId).Nodup)
    (hall : ∀ a ∈ (filterAcceptedForDedup accepted p).fst, a.targets = []) :
    validateMergeOutputWithDedup
        (programTargets c accepted (filterAcceptedForDedup accepted p).snd) accepted
        (filterAcceptedForDedup accepted p).snd = Except.ok () := by
  unfold validateMergeOutputWithDedup
  simp only [seq_ok_iff, context_ok_iff]
  refine ⟨validateModel_programTargets hvalid, ?_, ?_, ?_, ?_, rfl, rfl, rfl, rfl⟩
  · have hempty : ∀ a ∈ accepted, (withoutBlocked p a).targets = [] := fun a ha =>
      hall _ (List.mem_map_of_mem ha)
    -- all targets are blocked, so the blocked ones are the last ones
    refine checkTargetCoverage_of_blockedLast (p := p) hnd ?_ ?_ rfl
    · intro a ha
      have hblocks : ∀ t ∈ a.targets, p.blocks t.fixSignature = true := by
        have hfilter := hempty a ha
        rw [withoutBlocked_targets, List.filter_eq_nil_iff] at hfilter
        exact fun t ht => by simpa using hfilter t ht
      exact List.pairwise_of_forall_mem_list fun t _ u hu _ => hblocks u hu
    · refine (List.flatMap_eq_nil_iff.mpr fun a ha => ?_).symm
      rw [hall a ha]
      rfl
  · unfold checkDedupRejections
    rw [bailIf_ok_iff, not_not]
    have hself : (dedupRejections (filterAcceptedForDedup accepted p).snd).filter
        (fun r => Text.startsWith r.reason "dedup:")
        = dedupRejections (filterAcceptedForDedup accepted p).snd := by
      refine List.filter_eq_self.mpr fun r hr => ?_
      obtain ⟨d, hd, rfl⟩ := List.mem_map.mp hr
      exact startsWith_of_isDedupReason (reason_of_mem_decisions hd)
    show (((dedupRejections _).filter _).map _).toFinset = _
    rw [hself, dedupRejections, List.map_map]
    rfl
  · rw [checkDedupReasons_ok_iff]
    intro r hr _
    obtain ⟨d, hd, rfl⟩ := List.mem_map.mp hr
    exact reason_of_mem_decisions hd
  · rw [checkLensDispositionCoverage_ok_iff]
    intro family
    show ((accepted.map _).map _).count family = _
    rw [List.map_map]
    show (accepted.map fun a => a.familyId).count family = _
    split
    case isTrue h => exact List.count_eq_one_of_mem hnd (List.mem_map.mpr h)
    case isFalse h => exact List.count_eq_zero.mpr fun hmem => h (List.mem_map.mp hmem)

end ProgramTargets

/-! ## The end of a merge -/

section MergeEnds

variable {i : MergeInputs} {before files files' : MergeFiles} {o : OptimizationTargets}
  {accepted : List AcceptedAnalysis} {decisions : List DedupDecision}
  {outputs returned : MergeOutputs} {e : List String}

theorem storeOwnMessage_targets {llmInvoked : Bool}
    (h : i.storeOwnMessage files llmInvoked = Except.ok files') :
    files'.targets = files.targets := by
  unfold MergeInputs.storeOwnMessage at h
  split at h
  case isTrue => rw [Except.ok.inj h]
  case isFalse =>
    obtain ⟨-, hfiles⟩ := seq_ok_iff.mp h
    rw [← pure_ok_iff.mp hfiles]

/-- A document that is refused is there, and fails the check. -/
theorem store_refused
    (h : i.store files o accepted decisions outputs = (MergeEnd.refused e, files')) :
    validateMergeOutputWithDedup o accepted decisions = Except.error e
      ∧ i.storeTargets = Except.ok ()
      ∧ contentsOf files'.targets = FileRead.parsed o := by
  unfold MergeInputs.store at h
  split at h
  case h_1 => cases congrArg Prod.fst h
  case h_2 hstore =>
    dsimp only at h
    split at h
    case h_1 => cases congrArg Prod.fst h
    case h_2 files₁ hfiles =>
      split at h
      case h_1 e' hvalidate =>
        obtain ⟨he, rfl⟩ := Prod.mk.inj h
        rw [hvalidate, MergeEnd.refused.inj he]
        refine ⟨rfl, hstore, ?_⟩
        rw [storeOwnMessage_targets hfiles]
        rfl
      case h_2 => cases congrArg Prod.fst h

/-- A document that is returned was written by this invocation, and is accepted. -/
theorem store_returned
    (h : i.store files o accepted decisions outputs = (MergeEnd.returned returned, files')) :
    returned = outputs ∧ files'.targets = some ⟨true, FileRead.parsed o, i.now⟩
      ∧ validateMergeOutputWithDedup o accepted decisions = Except.ok () := by
  unfold MergeInputs.store at h
  split at h
  case h_1 => cases congrArg Prod.fst h
  case h_2 hstore =>
    dsimp only at h
    split at h
    case h_1 => cases congrArg Prod.fst h
    case h_2 files₁ hfiles =>
      split at h
      case h_1 => cases congrArg Prod.fst h
      case h_2 hvalidate =>
        obtain ⟨hout, rfl⟩ := Prod.mk.inj h
        exact ⟨(MergeEnd.returned.inj hout).symm, storeOwnMessage_targets hfiles, hvalidate⟩

/-- What the merge finds out before it asks its agent. -/
theorem plan_ok {plan : MergePlan} (h : i.plan = Except.ok plan) :
    ∃ c analyses, i.candidates = FileRead.parsed c
      ∧ readAllAnalyses i.analysisDirs = Except.ok analyses
      ∧ ((acceptedAnalyses analyses = [] ∧ plan = MergePlan.empty c)
        ∨ ∃ p, i.projection = Except.ok p
          ∧ ((∀ a ∈ (filterAcceptedForDedup (acceptedAnalyses analyses) p).fst,
                a.targets = [])
              ∧ plan = MergePlan.dedupOnly c (acceptedAnalyses analyses)
                (filterAcceptedForDedup (acceptedAnalyses analyses) p).snd
            ∨ plan = MergePlan.ask (acceptedAnalyses analyses)
                (filterAcceptedForDedup (acceptedAnalyses analyses) p).snd)) := by
  unfold MergeInputs.plan at h
  simp only [bind_ok_iff] at h
  obtain ⟨c, hc, analyses, hanalyses, -, -, hplan⟩ := h
  refine ⟨c, analyses, FileRead.parseJson_ok_iff.mp (context_ok_iff.mp hc), hanalyses, ?_⟩
  split at hplan
  case isTrue hempty => exact Or.inl ⟨hempty, (pure_ok_iff.mp hplan).symm⟩
  case isFalse =>
    obtain ⟨p, hp, hplan⟩ := bind_ok_iff.mp hplan
    refine Or.inr ⟨p, hp, ?_⟩
    split at hplan
    case isTrue hall =>
      refine Or.inl ⟨fun a ha => ?_, (pure_ok_iff.mp hplan).symm⟩
      exact of_decide_eq_true (List.all_eq_true.mp hall a ha)
    case isFalse => exact Or.inr (pure_ok_iff.mp hplan).symm

/-- Without its agent the merge refuses nothing. -/
theorem validate_of_dedupOnly {c : Candidates}
    (h : i.plan = Except.ok (MergePlan.dedupOnly c accepted decisions)) :
    validateMergeOutputWithDedup (programTargets c accepted decisions) accepted decisions
      = Except.ok () := by
  obtain ⟨c', analyses, -, hanalyses, ⟨-, hplan⟩ | ⟨p, -, ⟨hall, hplan⟩ | hplan⟩⟩ := plan_ok h
  · cases hplan
  · obtain ⟨rfl, rfl, rfl⟩ := MergePlan.dedupOnly.inj hplan
    refine validate_programTargets (fun a ha => ?_) (nodup_acceptedAnalyses hanalyses) hall
    obtain ⟨k, hk⟩ := mem_acceptedAnalyses.mp ha
    exact (readAllAnalyses_ok hanalyses hk).right
  · cases hplan

theorem validate_of_empty (c : Candidates) :
    validateMergeOutputWithDedup (programTargets c [] []) [] [] = Except.ok () := rfl

/-- A file that nobody wrote is stale. -/
theorem isStale_self {α : Type} {f : Option (OutputFile α)}
    (h : OutputFile.isNonEmptyFile f = true) :
    MergeInputs.isStale f f = true := by
  cases f with
  | none => cases h
  | some f => exact decide_eq_true rfl

/-- What is read is what the agent has left. -/
theorem readOutput_parsed (h : i.readOutput before = Except.ok o) :
    contentsOf (i.leaves before).targets = FileRead.parsed o
      ∧ o.validateModel = Except.ok () := by
  unfold MergeInputs.readOutput at h
  simp only [seq_ok_iff] at h
  obtain ⟨-, -, -, -, -, -, hread⟩ := h
  exact FileRead.parseValidated_ok_iff.mp hread

/-- The agent has written its document and its message. -/
theorem readOutput_ok (h : i.readOutput before = Except.ok o) :
    i.agent.output.isSome = true ∧ i.agentMessage.isSome = true := by
  unfold MergeInputs.readOutput at h
  simp only [seq_ok_iff, bailIf_ok_iff, Bool.not_eq_false, Bool.not_eq_true] at h
  obtain ⟨-, -, htargets, hmessage, hstaleTargets, hstaleMessage, -⟩ := h
  constructor
  · by_contra hnone
    have hout : (i.leaves before).targets = before.targets := by
      unfold MergeInputs.leaves AgentRun.leaves
      rw [Option.not_isSome_iff_eq_none.mp hnone, Option.none_or]
    rw [hout] at htargets hstaleTargets
    rw [isStale_self htargets] at hstaleTargets
    cases hstaleTargets
  · by_contra hnone
    have hout : (i.leaves before).message = before.message := by
      unfold MergeInputs.leaves
      rw [Option.not_isSome_iff_eq_none.mp hnone, Option.none_or]
    rw [hout] at hmessage hstaleMessage
    rw [isStale_self hmessage] at hstaleMessage
    cases hstaleMessage

/-- **What is refused was written by the agent, is well formed by itself, and is on
disk.** -/
theorem run_refused (h : i.run before = (MergeEnd.refused e, files)) :
    ∃ accepted decisions o, i.plan = Except.ok (MergePlan.ask accepted decisions)
      ∧ i.prepare = Except.ok () ∧ i.readOutput before = Except.ok o
      ∧ i.storeTargets = Except.ok ()
      ∧ validateMergeOutputWithDedup (o.withDedup decisions) accepted decisions
        = Except.error e
      ∧ contentsOf files.targets = FileRead.parsed (o.withDedup decisions) := by
  unfold MergeInputs.run at h
  split at h
  case h_1 => cases congrArg Prod.fst h
  case h_2 c hplan =>
    have hrefused := (store_refused h).left
    rw [validate_of_empty] at hrefused
    cases hrefused
  case h_3 c accepted decisions hplan =>
    have hrefused := (store_refused h).left
    rw [validate_of_dedupOnly hplan] at hrefused
    cases hrefused
  case h_4 accepted decisions hplan =>
    split at h
    case h_1 => cases congrArg Prod.fst h
    case h_2 hprepare =>
      split at h
      case h_1 => cases congrArg Prod.fst h
      case h_2 o ho =>
        obtain ⟨hvalidate, hstore, hfiles⟩ := store_refused h
        exact ⟨accepted, decisions, o, hplan, hprepare, ho, hstore, hvalidate, hfiles⟩

/-- The merge refuses a document that fails the rules. -/
theorem run_of_invalid (hplan : i.plan = Except.ok (MergePlan.ask accepted decisions))
    (hprepare : i.prepare = Except.ok ()) (ho : i.readOutput before = Except.ok o)
    (hstore : i.storeTargets = Except.ok ())
    (hvalidate : validateMergeOutputWithDedup (o.withDedup decisions) accepted decisions
      = Except.error e) : (i.run before).fst = MergeEnd.refused e := by
  unfold MergeInputs.run
  rw [hplan]
  dsimp only
  rw [hprepare]
  dsimp only
  rw [ho]
  dsimp only
  unfold MergeInputs.store
  rw [hstore]
  dsimp only [MergeInputs.storeOwnMessage]
  rw [if_pos rfl]
  dsimp only
  rw [hvalidate]

/-- **No document that the merge refuses is out of reach.** Whatever refuses to be
read afterwards, it is nothing that the merge has refused: the merge keeps its
promise exactly when it has nothing to refuse. -/
theorem refused_unread_iff (i : MergeInputs) (before : MergeFiles) :
    (∀ e, (i.run before).fst = MergeEnd.refused e →
      (readOptimizationTargets (contentsOf (i.run before).snd.targets)).isOk = false)
    ↔ ∀ accepted decisions o, i.plan = Except.ok (MergePlan.ask accepted decisions) →
      i.prepare = Except.ok () → i.readOutput before = Except.ok o →
      i.storeTargets = Except.ok () →
      (validateMergeOutputWithDedup (o.withDedup decisions) accepted decisions).isOk
        = true := by
  constructor
  · intro h accepted decisions o hplan hprepare ho hstore
    cases hvalidate : validateMergeOutputWithDedup (o.withDedup decisions) accepted
      decisions with
    | ok u => rfl
    | error e =>
      have hrefused := run_of_invalid hplan hprepare ho hstore hvalidate
      have hunread := h e hrefused
      obtain ⟨_, decisions', o', -, -, ho', -, -, hfiles⟩ :=
        run_refused (Prod.ext hrefused rfl)
      have hread : readOptimizationTargets (contentsOf (i.run before).snd.targets)
          = Except.ok (o'.withDedup decisions') :=
        FileRead.parseValidated_ok_iff.mpr ⟨hfiles, (readOutput_parsed ho').right⟩
      rw [hread] at hunread
      cases hunread
  · intro h e hrefused
    obtain ⟨accepted, decisions, o, hplan, hprepare, ho, hstore, hvalidate, -⟩ :=
      run_refused (Prod.ext hrefused rfl)
    have hok := h accepted decisions o hplan hprepare ho hstore
    rw [hvalidate] at hok
    cases hok

end MergeEnds

/-- A merge of one analysis with one target, whose agent leaves the given document. -/
def oneTargetMerge (document : OptimizationTargets) : MergeInputs where
  candidates := FileRead.parsed ⟨"20260614", 1, 2, F64.ofNat 1, [], ⟨0, 0, 0⟩⟩
  analysisDirs := [⟨"fam-a", FileRead.parsed (Analysis.accepted
    (analysisOf "fam-a" ["fix-a"]))⟩]
  projection := Except.ok (DedupProjection.fromLedgers [] [] 1)
  prepare := Except.ok ()
  agent := ⟨Except.ok (), some ⟨true, FileRead.parsed document, 7⟩⟩
  agentMessage := some ⟨true, FileRead.parsed (), 7⟩
  conversationId := none
  noteConversation := Except.ok ()
  storeTargets := Except.ok ()
  storeMessage := Except.ok ()
  now := 8

/-- **A document that forgets a target is refused, and can be read.** -/
theorem readable_of_uncovered :
    ¬ ∀ (i : MergeInputs) (before : MergeFiles) (e : List String),
      (i.run before).fst = MergeEnd.refused e →
        (readOptimizationTargets (contentsOf (i.run before).snd.targets)).isOk = false := by
  intro h
  have hend : (match ((oneTargetMerge (documentOf ["fam-a"] [] [])).run ⟨none, none⟩).fst
      with
    | MergeEnd.refused _ => true
    | _ => false) = true := by decide +kernel
  split at hend
  case h_1 e he =>
    have hunread := h _ _ e he
    revert hunread
    decide +kernel
  case h_2 => cases hend

/-! ## Outputs are handed on -/

section Freshness

variable {α : Type}

/-- What a phase hands on was written by its agent. -/
def Fresh (outcome : Fallible α) (agent : AgentRun α) : Prop :=
  ∀ a, outcome = Except.ok a →
    ∃ f, agent.output = some f ∧ f.contents = FileRead.parsed a

/-- Nothing of a phase fails apart from the check of its output. -/
def PhaseIo.Succeeds (io : PhaseIo) : Prop :=
  io.prepare = Except.ok () ∧ io.noteConversation = Except.ok () ∧ io.finish = Except.ok ()

/-- What triage takes for its agent's output. -/
def Triage.Accepts (f : Option (OutputFile Candidates)) (c : Candidates) : Prop :=
  OutputFile.isNonEmptyFile f = true ∧ contentsOf f = FileRead.parsed c
    ∧ c.validateModel = Except.ok ()

/-- What the analysis of a family takes for its agent's output. -/
def Analyzers.Accepts (familyId : String) (cap : ℕ) (f : Option (OutputFile Analysis))
    (a : Analysis) : Prop :=
  OutputFile.isNonEmptyFile f = true ∧ contentsOf f = FileRead.parsed a
    ∧ enforceInvocationCap familyId a cap = Except.ok ()

/-- What the analysis of results takes for its agent's output. -/
def ResultsAnalyzer.Accepts (sessionId targetId : String)
    (f : Option (OutputFile ResultsAnalysis)) (ra : ResultsAnalysis) : Prop :=
  contentsOf f = FileRead.parsed ra ∧ ra.validateModel = Except.ok ()
    ∧ ra.sessionId = sessionId ∧ ra.targetId = targetId

theorem contentsOf_eq_parsed {f : Option (OutputFile α)} {a : α}
    (h : contentsOf f = FileRead.parsed a) :
    ∃ g, f = some g ∧ g.contents = FileRead.parsed a := by
  cases f with
  | none => cases h
  | some g => exact ⟨g, rfl, h⟩

/-- **A phase that looks for its file by name hands on what is fresh, unless the agent
wrote nothing and the file that was there passes.** -/
theorem fresh_iff {outcome : Fallible α} {agent : AgentRun α}
    {before : Option (OutputFile α)} {steps : Prop}
    {accepts : Option (OutputFile α) → α → Prop}
    (hrun : ∀ a, outcome = Except.ok a ↔ steps ∧ accepts (agent.leaves before) a)
    (hread : ∀ f a, accepts f a → contentsOf f = FileRead.parsed a) :
    Fresh outcome agent
      ↔ agent.output.isSome = true ∨ ¬ (steps ∧ ∃ a, accepts before a) := by
  constructor
  · intro h
    by_contra hnot
    obtain ⟨hnone, hold⟩ := not_or.mp hnot
    obtain ⟨hsteps, a, ha⟩ := not_not.mp hold
    have hnone : agent.output = none := Option.not_isSome_iff_eq_none.mp hnone
    -- an agent that wrote nothing leaves what was there
    have hleft : agent.leaves before = before := by
      unfold AgentRun.leaves
      rw [hnone, Option.none_or]
    have hok := (hrun a).mpr ⟨hsteps, hleft.symm ▸ ha⟩
    obtain ⟨f, hf, -⟩ := h a hok
    rw [hnone] at hf
    cases hf
  · rintro h a hok
    obtain ⟨hsteps, ha⟩ := (hrun a).mp hok
    obtain hsome | hold := h
    · obtain ⟨f, hf⟩ := Option.isSome_iff_exists.mp hsome
      refine ⟨f, hf, ?_⟩
      have hparsed := hread _ a ha
      unfold AgentRun.leaves at hparsed
      rw [hf] at hparsed
      exact hparsed
    · cases hout : agent.output with
      | some f =>
        refine ⟨f, rfl, ?_⟩
        have hparsed := hread _ a ha
        unfold AgentRun.leaves at hparsed
        rw [hout] at hparsed
        exact hparsed
      | none =>
        refine absurd ⟨hsteps, a, ?_⟩ hold
        unfold AgentRun.leaves at ha
        rw [hout, Option.none_or] at ha
        exact ha

theorem Triage.run_ok_iff {io : PhaseIo} {agent : AgentRun Candidates}
    {before : Option (OutputFile Candidates)} (c : Candidates) :
    Triage.run io agent before = Except.ok c
      ↔ (agent.exit = Except.ok () ∧ io.Succeeds)
        ∧ Triage.Accepts (agent.leaves before) c := by
  unfold Triage.run Triage.Accepts PhaseIo.Succeeds
  simp only [bind_ok_iff, bailIf_ok_iff, context_ok_iff, pure_ok_iff, exists_const,
    Bool.not_eq_false, FileRead.parseJson_ok_iff]
  grind

theorem Analyzers.runOne_ok_iff {familyId : String} {cap : ℕ} {io : PhaseIo}
    {agent : AgentRun Analysis} {before : Option (OutputFile Analysis)} (a : Analysis) :
    Analyzers.runOne familyId cap io agent before = Except.ok a
      ↔ (agent.exit = Except.ok () ∧ io.prepare = Except.ok ()
          ∧ io.noteConversation = Except.ok ())
        ∧ Analyzers.Accepts familyId cap (agent.leaves before) a := by
  unfold Analyzers.runOne Analyzers.Accepts
  simp only [bind_ok_iff, bailIf_ok_iff, context_ok_iff, pure_ok_iff, exists_const,
    Bool.not_eq_false, FileRead.readParsed_ok_iff]
  grind

theorem ResultsAnalyzer.runOne_ok_iff {sessionId targetId : String} {io : PhaseIo}
    {agent : AgentRun ResultsAnalysis} {before : Option (OutputFile ResultsAnalysis)}
    (ra : ResultsAnalysis) :
    ResultsAnalyzer.runOne sessionId targetId io agent before = Except.ok ra
      ↔ (agent.exit = Except.ok () ∧ io.prepare = Except.ok ())
        ∧ ResultsAnalyzer.Accepts sessionId targetId (agent.leaves before) ra := by
  unfold ResultsAnalyzer.runOne ResultsAnalyzer.Accepts
  simp only [bind_ok_iff, bailIf_ok_iff, context_ok_iff, pure_ok_iff, exists_const,
    not_not, FileRead.readParsed_ok_iff]
  grind

/-- What the merge returns with is the program's own document, or the agent's with the
rejections that history forces. -/
theorem MergeInputs.run_cases {i : MergeInputs} {before files : MergeFiles}
    {outputs : MergeOutputs} (h : i.run before = (MergeEnd.returned outputs, files)) :
    ∃ o, files.targets = some ⟨true, FileRead.parsed o, i.now⟩
      ∧ ((∃ c, outputs.llmInvoked = false ∧ i.plan = Except.ok (MergePlan.empty c)
          ∧ o = programTargets c [] [])
        ∨ (∃ c accepted decisions, outputs.llmInvoked = false
          ∧ i.plan = Except.ok (MergePlan.dedupOnly c accepted decisions)
          ∧ o = programTargets c accepted decisions)
        ∨ ∃ accepted decisions o', i.plan = Except.ok (MergePlan.ask accepted decisions)
          ∧ i.readOutput before = Except.ok o' ∧ o = o'.withDedup decisions
          ∧ validateMergeOutputWithDedup o accepted decisions = Except.ok ()) := by
  unfold MergeInputs.run at h
  split at h
  case h_1 => cases congrArg Prod.fst h
  case h_2 c hplan =>
    obtain ⟨rfl, hfiles, -⟩ := store_returned h
    exact ⟨_, hfiles, Or.inl ⟨c, rfl, hplan, rfl⟩⟩
  case h_3 c accepted decisions hplan =>
    obtain ⟨rfl, hfiles, -⟩ := store_returned h
    exact ⟨_, hfiles, Or.inr (Or.inl ⟨c, accepted, decisions, rfl, hplan, rfl⟩)⟩
  case h_4 accepted decisions hplan =>
    split at h
    case h_1 => cases congrArg Prod.fst h
    case h_2 =>
      split at h
      case h_1 => cases congrArg Prod.fst h
      case h_2 o ho =>
        obtain ⟨rfl, hfiles, hvalidate⟩ := store_returned h
        exact ⟨_, hfiles, Or.inr (Or.inr ⟨accepted, decisions, o, hplan, ho, rfl, hvalidate⟩)⟩

/-- If the agent was asked, it wrote the document. -/
theorem MergeInputs.run_returned {i : MergeInputs} {before files : MergeFiles}
    {outputs : MergeOutputs} (h : i.run before = (MergeEnd.returned outputs, files)) :
    ∃ o, files.targets = some ⟨true, FileRead.parsed o, i.now⟩
      ∧ (outputs.llmInvoked = true → ∃ f o' decisions, i.agent.output = some f
        ∧ f.contents = FileRead.parsed o' ∧ o = o'.withDedup decisions) := by
  obtain ⟨o, hfiles, ⟨c, hllm, -⟩ | ⟨c, accepted, decisions, hllm, -⟩
    | ⟨accepted, decisions, o', -, ho', ho, -⟩⟩ := MergeInputs.run_cases h
  · exact ⟨o, hfiles, fun hasked => absurd (hllm.symm.trans hasked) Bool.false_ne_true⟩
  · exact ⟨o, hfiles, fun hasked => absurd (hllm.symm.trans hasked) Bool.false_ne_true⟩
  · refine ⟨o, hfiles, fun _ => ?_⟩
    obtain ⟨f, hf⟩ := Option.isSome_iff_exists.mp (readOutput_ok ho').left
    refine ⟨f, o', decisions, hf, ?_, ho⟩
    have hparsed := (readOutput_parsed ho').left
    unfold MergeInputs.leaves AgentRun.leaves at hparsed
    rw [hf] at hparsed
    exact hparsed

/-- **Freshness, of all four phases.** Triage and both analyses hand on what their
agent wrote, unless it wrote nothing and the file that was there passes their checks;
the merge does so always. -/
theorem outputs_fresh_iff (io : PhaseIo)
    (triage : AgentRun Candidates) (candidates : Option (OutputFile Candidates))
    (familyId : String) (cap : ℕ)
    (analyzer : AgentRun Analysis) (analysis : Option (OutputFile Analysis))
    (sessionId targetId : String)
    (resultsAnalyzer : AgentRun ResultsAnalysis)
    (resultsAnalysis : Option (OutputFile ResultsAnalysis))
    (i : MergeInputs) (before : MergeFiles) :
    (Fresh (Triage.run io triage candidates) triage
      ↔ triage.output.isSome = true
        ∨ ¬ ((triage.exit = Except.ok () ∧ io.Succeeds)
          ∧ ∃ c, Triage.Accepts candidates c))
    ∧ (Fresh (Analyzers.runOne familyId cap io analyzer analysis) analyzer
      ↔ analyzer.output.isSome = true
        ∨ ¬ ((analyzer.exit = Except.ok () ∧ io.prepare = Except.ok ()
            ∧ io.noteConversation = Except.ok ())
          ∧ ∃ a, Analyzers.Accepts familyId cap analysis a))
    ∧ (Fresh (ResultsAnalyzer.runOne sessionId targetId io resultsAnalyzer resultsAnalysis)
        resultsAnalyzer
      ↔ resultsAnalyzer.output.isSome = true
        ∨ ¬ ((resultsAnalyzer.exit = Except.ok () ∧ io.prepare = Except.ok ())
          ∧ ∃ ra, ResultsAnalyzer.Accepts sessionId targetId resultsAnalysis ra))
    ∧ ∀ outputs files, i.run before = (MergeEnd.returned outputs, files) →
        ∃ o, files.targets = some ⟨true, FileRead.parsed o, i.now⟩
          ∧ (outputs.llmInvoked = true → ∃ f o' decisions, i.agent.output = some f
            ∧ f.contents = FileRead.parsed o' ∧ o = o'.withDedup decisions) := by
  refine ⟨?_, ?_, ?_, fun outputs files => MergeInputs.run_returned⟩
  · exact fresh_iff Triage.run_ok_iff fun f c h => h.right.left
  · exact fresh_iff Analyzers.runOne_ok_iff fun f a h => h.right.left
  · exact fresh_iff ResultsAnalyzer.runOne_ok_iff fun f ra h => h.left

/-- **An agent that writes nothing is taken to have written what it found.** -/
theorem not_fresh_of_leftover :
    ¬ ∀ (io : PhaseIo) (agent : AgentRun Candidates)
        (before : Option (OutputFile Candidates)),
      Fresh (Triage.run io agent before) agent := by
  intro h
  obtain ⟨f, hf, -⟩ := h ⟨Except.ok (), Except.ok (), Except.ok ()⟩ ⟨Except.ok (), none⟩
    (some ⟨true, FileRead.parsed ⟨"20260613", 1, 2, F64.ofNat 1, [], ⟨0, 0, 0⟩⟩, 3⟩)
    ⟨"20260613", 1, 2, F64.ofNat 1, [], ⟨0, 0, 0⟩⟩ rfl
  cases hf

end Freshness
