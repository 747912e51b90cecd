import Sbagent.Path
import Sbagent.RejectionProbe
import Sbagent.Runs

/-!
# The slate and its analyses

Triage writes a slate of candidates. The analyzers' phase gives each of them to an agent
of its own, all of them at once, and the agent works in a directory that is named by the
candidate's id. The merge then takes what it finds in these directories. Nothing else
connects an analysis with the slate that it was made for.

So the merge reads the current slate only if the directories tell the candidates apart and
hold nothing from before (`slate_current`). The validator of the slate checks neither: it
asks for ids that are not empty, and that is all.

A task that rules its family out appends a record to the ledger of rejections at once.
The analysis is checked later, and then it may fail (`rejections_sound` says what is left
of it).
-/

open Fallible Keyed

namespace PathBuf

/-- Go on by one component. A parent component leads back over a name, and no further than
to the root. -/
def settleStep (p : PathBuf) : Component → PathBuf
  | Component.rootDir => p ++ [Component.rootDir]
  | Component.curDir => p
  | Component.parentDir =>
    match p.getLast? with
    | some (Component.normal _) => p.dropLast
    | some Component.rootDir => p
    | _ => p ++ [Component.parentDir]
  | Component.normal name => p ++ [Component.normal name]

/-- Where a path leads, without its dots. -/
def settle (p : PathBuf) : PathBuf := p.foldl settleStep []

/-- The name of an entry of a directory. -/
def nameIn (dir p : PathBuf) : Option String :=
  match p.getLast? with
  | some (Component.normal name) => if p = dir ++ [Component.normal name] then some name else none
  | _ => none

theorem settle_concat (p : PathBuf) (name : String) :
    settle (p ++ [Component.normal name]) = settle p ++ [Component.normal name] := by
  unfold settle
  rw [List.foldl_append]
  rfl

theorem nameIn_eq_some_iff {dir p : PathBuf} {name : String} :
    nameIn dir p = some name ↔ p = dir ++ [Component.normal name] := by
  constructor
  · intro h
    unfold nameIn at h
    split at h
    case h_1 name' _ =>
      split_ifs at h with hp
      obtain rfl := Option.some.inj h
      exact hp
    case h_2 => cases h
  · rintro rfl
    unfold nameIn
    rw [List.getLast?_concat]
    exact if_pos rfl

end PathBuf

namespace Slate

open PathBuf Rejections

/-! ## Slates and files -/

/-- The contents of `candidates.json`, with the spans of the candidates. -/
structure SpannedCandidates extends Candidates where
  families : List SpannedCandidate
  families_eq : families.map SpannedCandidate.toCandidate = candidates

/-- The ids of a slate. -/
def SpannedCandidates.ids (c : SpannedCandidates) : List String := c.families.map fun f => f.id

/-- The files named `analysis.json`, by their directories. -/
abbrev AnalysisFiles := AList fun _ : PathBuf => OutputFile Analysis

/-- A session: its id, where its results are, and how the path of the analysis of a family
is written. -/
structure Site where
  sessionId : String
  results : PathBuf
  analysisPath : String → String

namespace Site

variable (site : Site)

/-- The directory in which the analyses are. -/
def analysisDir : PathBuf := settle (joinText site.results "analysis")

/-- The directory of a family, wherever its id leads. -/
def outDir (familyId : String) : PathBuf :=
  settle (joinText (joinText site.results "analysis") familyId)

/-- What the merge finds. -/
def listing (files : AnalysisFiles) : List AnalysisDir :=
  files.entries.filterMap fun e =>
    (nameIn site.analysisDir e.fst).map fun name => ⟨name, e.snd.contents⟩

end Site

/-! ## The analyzers' phase -/

/-- What the task of one family meets: its agent and whatever else may fail. -/
structure TaskEnv where
  io : PhaseIo
  agent : AgentRun Analysis
  /-- Parsing the family once more. -/
  reparse : Fallible Unit
  stacksCoreSha : Option String
  now : String
  /-- Writing to the ledger of rejections. -/
  append : Fallible Unit

/-- An invocation of the phase. Each task takes two steps: its agent writes, and then the
task checks what is there. The steps of different tasks come in any order. -/
structure Invocation where
  /-- Reading the optimizer's memory and preparing the tasks. -/
  prepare : Fallible Unit
  cap : ℕ
  env : ℕ → TaskEnv
  schedule : List ℕ

/-- How far a task is. -/
inductive Stage where
  | waiting
  | written
  | done (result : Fallible Unit)

/-- A record that was appended to the ledger, with the task that appended it and the
analysis it is about. -/
structure Entry where
  task : ℕ
  family : SpannedCandidate
  analysis : Analysis
  record : Record

/-- The phase while its tasks are going on. -/
structure Fanout where
  files : AnalysisFiles
  stage : ℕ → Stage
  entries : List Entry

/-- What the task of a family knows when its agent is done. -/
def TaskEnv.task (env : TaskEnv) (site : Site) (c : SpannedCandidate) : AnalyzerTask where
  familyId := c.id
  sessionId := site.sessionId
  family := env.reparse.map fun _ => c
  stacksCoreSha := env.stacksCoreSha
  analysisPath := site.analysisPath c.id
  now := env.now

/-- What the task of a family appends to the ledger. A failure is not one of the task. -/
def TaskEnv.entries (env : TaskEnv) (site : Site) (i : ℕ) (c : SpannedCandidate)
    (analysis : Analysis) : List Entry :=
  match rejectionRecord (env.task site c) analysis, env.append with
  | Except.ok (some record), Except.ok () => [⟨i, c, analysis, record⟩]
  | _, _ => []

namespace Fanout

variable (site : Site)

/-- The agent of a task writes, if it is called. -/
def start (env : TaskEnv) (i : ℕ) (c : SpannedCandidate) (s : Fanout) : Fanout where
  files :=
    match env.io.prepare, env.agent.output with
    | Except.ok (), some f => s.files.insert (site.outDir c.id) f
    | _, _ => s.files
  stage := Function.update s.stage i Stage.written
  entries := s.entries

/-- A task checks what its agent has left, and goes on to the ledger. -/
def finish (env : TaskEnv) (cap i : ℕ) (c : SpannedCandidate) (s : Fanout) : Fanout :=
  match Analyzers.runOne c.id cap env.io ⟨env.agent.exit, none⟩
      (s.files.lookup (site.outDir c.id)) with
  | Except.error e => { s with stage := Function.update s.stage i (Stage.done (Except.error e)) }
  | Except.ok analysis =>
    { s with
      stage := Function.update s.stage i (Stage.done (Except.ok ()))
      entries := s.entries ++ env.entries site i c analysis }

/-- The next step of a task. -/
def step (families : List SpannedCandidate) (inv : Invocation) (s : Fanout) (i : ℕ) : Fanout :=
  match families[i]?, s.stage i with
  | some c, Stage.waiting => start site (inv.env i) i c s
  | some c, Stage.written => finish site (inv.env i) inv.cap i c s
  | _, _ => s

/-- All tasks, from the files that are there. -/
def run (families : List SpannedCandidate) (inv : Invocation) (files : AnalysisFiles) : Fanout :=
  inv.schedule.foldl (step site families inv) ⟨files, fun _ => Stage.waiting, []⟩

/-- All tasks are done, and none has failed. Of several errors it is left open which is
reported. -/
def join (families : List SpannedCandidate) (s : Fanout) : Fallible Unit :=
  forEach (fun i _ =>
    match s.stage i with
    | Stage.done result => result
    | _ => bail "interrupted") families

end Fanout

/-- What the phase returns. -/
structure Outputs where
  total : ℕ
  accepted : ℕ
  rejected : ℕ
  deriving DecidableEq

def isAccepted : Analysis → Bool
  | Analysis.accepted _ => true
  | Analysis.rejected _ => false

/-- How an invocation of the phase ends: what it returns, the files it leaves and the
records it has appended. -/
structure PhaseEnd where
  outcome : Fallible Outputs
  files : AnalysisFiles
  entries : List Entry

/-- The analyzers' phase. -/
def Invocation.run (site : Site) (inv : Invocation) (slate : FileRead SpannedCandidates)
    (files : AnalysisFiles) : PhaseEnd :=
  match (slate.parseJson "triage/candidates.json").context "loading candidates.json" with
  | Except.error e => ⟨Except.error e, files, []⟩
  | Except.ok c =>
    if c.families = [] then ⟨Except.ok ⟨0, 0, 0⟩, files, []⟩
    else
      match inv.prepare with
      | Except.error e => ⟨Except.error e, files, []⟩
      | Except.ok () =>
        let s := Fanout.run site c.families inv files
        ⟨do
          s.join c.families
          let analyses ← readAllAnalyses (site.listing s.files)
          return ⟨c.families.length, analyses.toList.countP fun p => isAccepted p.snd,
            analyses.toList.countP fun p => !isAccepted p.snd⟩, s.files, s.entries⟩

/-! ## Sessions -/

/-- One invocation of the phase, as far as the ledger is concerned. -/
structure PhaseRun where
  slate : FileRead SpannedCandidates
  cap : ℕ
  entries : List Entry
  returned : Bool

/-- What is on disk in a session, and what has happened in it. -/
structure Session where
  candidates : Option (OutputFile SpannedCandidates)
  files : AnalysisFiles
  /-- The last triage returned. -/
  triaged : Bool
  /-- The last thing that happened is a run of the analyzers that returned. -/
  analyzed : Bool
  history : List PhaseRun

/-- What can happen in a session. -/
inductive Event where
  | triage (io : PhaseIo) (agent : AgentRun SpannedCandidates)
  | analyze (inv : Invocation)
  /-- The command that removes the analyses. -/
  | clean

/-- A file without the spans. -/
def withoutSpans (f : OutputFile SpannedCandidates) : OutputFile Candidates where
  nonEmpty := f.nonEmpty
  contents :=
    match f.contents with
    | FileRead.notFound => FileRead.notFound
    | FileRead.ioError => FileRead.ioError
    | FileRead.malformed => FileRead.malformed
    | FileRead.parsed c => FileRead.parsed c.toCandidates
  mtime := f.mtime

namespace Session

variable (site : Site) (s : Session)

/-- Triage: the slate that is left, and whether the phase returned. -/
def triage (io : PhaseIo) (agent : AgentRun SpannedCandidates) : Session :=
  { s with
    candidates := if io.prepare = Except.ok () then agent.leaves s.candidates else s.candidates
    triaged := (Triage.run io ⟨agent.exit, agent.output.map withoutSpans⟩
      (s.candidates.map withoutSpans)).isOk
    analyzed := false }

/-- The analyzers' phase. -/
def analyze (inv : Invocation) : Session :=
  let ended := inv.run site (contentsOf s.candidates) s.files
  { s with
    files := ended.files
    analyzed := ended.outcome.isOk
    history := s.history
      ++ [⟨contentsOf s.candidates, inv.cap, ended.entries, ended.outcome.isOk⟩] }

/-- The analyses are removed. -/
def clean : Session :=
  { s with
    files := (s.files.entries.filter fun e => ¬ Under site.analysisDir e.fst).toAList
    analyzed := false }

/-- Any event may happen at any time. -/
def step (site : Site) (s : Session) : Event → Option Session
  | Event.triage io agent => some (s.triage io agent)
  | Event.analyze inv => some (s.analyze site inv)
  | Event.clean => some (s.clean site)

/-- A session in which nothing has happened. -/
def fresh : Session := ⟨none, ∅, false, false, []⟩

end Session

/-! ## The directories of a slate -/

section Dirs

variable (site : Site) {files : AnalysisFiles}

theorem outDir_name {familyId : String} (h : IsName familyId) :
    site.outDir familyId = site.analysisDir ++ [Component.normal familyId] := by
  unfold Site.outDir Site.analysisDir
  rw [joinText_name h, settle_concat]

/-- **Names have directories of their own.** -/
theorem outDir_injective {familyId other : String} (h : IsName familyId) (hother : IsName other)
    (heq : site.outDir familyId = site.outDir other) : familyId = other := by
  rw [outDir_name site h, outDir_name site hother] at heq
  obtain ⟨-, hlast⟩ := List.append_inj' heq rfl
  exact Component.normal.inj (List.singleton_inj.mp hlast)

theorem mem_listing {d : AnalysisDir} :
    d ∈ site.listing files
      ↔ ∃ f, files.lookup (site.analysisDir ++ [Component.normal d.name]) = some f
        ∧ f.contents = d.analysis := by
  unfold Site.listing
  rw [List.mem_filterMap]
  constructor
  · rintro ⟨⟨p, f⟩, hmem, hd⟩
    obtain ⟨name, hname, rfl⟩ := Option.map_eq_some_iff.mp hd
    obtain rfl := nameIn_eq_some_iff.mp hname
    exact ⟨f, AList.mem_lookup_iff.mpr hmem, rfl⟩
  · rintro ⟨f, hf, hd⟩
    refine ⟨⟨_, f⟩, AList.mem_lookup_iff.mp hf, ?_⟩
    rw [nameIn_eq_some_iff.mpr rfl, Option.map_some, hd]

/-- What is in the directory of a family is listed under its name. -/
theorem mem_listing_of_outDir {familyId : String} (h : IsName familyId) {a : Analysis}
    (hfile : contentsOf (files.lookup (site.outDir familyId)) = FileRead.parsed a) :
    ⟨familyId, FileRead.parsed a⟩ ∈ site.listing files := by
  rw [outDir_name site h] at hfile
  obtain ⟨f, hf, hcontents⟩ := contentsOf_eq_parsed hfile
  exact (mem_listing site).mpr ⟨f, hf, hcontents⟩

/-- What is listed under another name has not changed, if only the directories of some
families have. -/
theorem mem_listing_iff_of_not_mem {ids : List String} {after : AnalysisFiles}
    (hnames : ∀ id ∈ ids, IsName id)
    (hframe : ∀ p, (∀ id ∈ ids, site.outDir id ≠ p) → after.lookup p = files.lookup p)
    {d : AnalysisDir} (hd : d.name ∉ ids) :
    d ∈ site.listing after ↔ d ∈ site.listing files := by
  rw [mem_listing, mem_listing, hframe]
  intro id hid heq
  rw [outDir_name site (hnames id hid)] at heq
  obtain ⟨-, hlast⟩ := List.append_inj' heq rfl
  exact hd (Component.normal.inj (List.singleton_inj.mp hlast) ▸ hid)

end Dirs

/-! ## The tasks of a slate -/

section Tasks

variable {site : Site} {families : List SpannedCandidate} {inv : Invocation} {s : Fanout}
  {files : AnalysisFiles}

/-- What one step of the phase can be. -/
theorem step_cases (site : Site) (families : List SpannedCandidate) (inv : Invocation)
    (s : Fanout) (i : ℕ) :
    Fanout.step site families inv s i = s
    ∨ (∃ c, families[i]? = some c ∧ s.stage i = Stage.waiting
      ∧ Fanout.step site families inv s i = Fanout.start site (inv.env i) i c s)
    ∨ (∃ e, (∀ r, s.stage i ≠ Stage.done r) ∧ Fanout.step site families inv s i
      = { s with stage := Function.update s.stage i (Stage.done (Except.error e)) })
    ∨ ∃ c a, families[i]? = some c ∧ (∀ r, s.stage i ≠ Stage.done r)
      ∧ Analyzers.Accepts c.id inv.cap (s.files.lookup (site.outDir c.id)) a
      ∧ Fanout.step site families inv s i
        = { s with
            stage := Function.update s.stage i (Stage.done (Except.ok ()))
            entries := s.entries ++ (inv.env i).entries site i c a } := by
  unfold Fanout.step
  cases hc : families[i]? with
  | none => exact Or.inl rfl
  | some c =>
    cases hstage : s.stage i with
    | waiting => exact Or.inr (Or.inl ⟨c, rfl, rfl, rfl⟩)
    | done r => exact Or.inl rfl
    | written =>
      dsimp only
      unfold Fanout.finish
      cases hrun : Analyzers.runOne c.id inv.cap (inv.env i).io ⟨(inv.env i).agent.exit, none⟩
          (s.files.lookup (site.outDir c.id)) with
      | error e => exact Or.inr (Or.inr (Or.inl ⟨e, nofun, rfl⟩))
      | ok a =>
        obtain ⟨-, haccepts⟩ := (Analyzers.runOne_ok_iff a).mp hrun
        exact Or.inr (Or.inr (Or.inr ⟨c, a, rfl, nofun, haccepts, rfl⟩))

/-- What every step keeps holds when the phase is over. -/
theorem run_of_step {P : Fanout → Prop} (hstart : P ⟨files, fun _ => Stage.waiting, []⟩)
    (hstep : ∀ s i, P s → P (Fanout.step site families inv s i)) :
    P (Fanout.run site families inv files) :=
  List.foldlRecOn inv.schedule _ hstart fun s hs i _ => hstep s i hs

theorem start_stage {env : TaskEnv} {i : ℕ} {c : SpannedCandidate} :
    (Fanout.start site env i c s).stage = Function.update s.stage i Stage.written := rfl

theorem start_lookup {env : TaskEnv} {i : ℕ} {c : SpannedCandidate} {p : PathBuf}
    (h : site.outDir c.id ≠ p) :
    (Fanout.start site env i c s).files.lookup p = s.files.lookup p := by
  unfold Fanout.start
  dsimp only
  split
  · exact AList.lookup_insert_ne h.symm
  · rfl

/-- **The phase writes in the directories of its families.** -/
theorem run_lookup {p : PathBuf} (h : ∀ c ∈ families, site.outDir c.id ≠ p) :
    (Fanout.run site families inv files).files.lookup p = files.lookup p := by
  refine run_of_step (P := fun s => s.files.lookup p = files.lookup p) rfl fun s i hs => ?_
  obtain heq | ⟨c, hc, -, heq⟩ | ⟨e, -, heq⟩ | ⟨c, a, -, -, -, heq⟩ :=
    step_cases site families inv s i
  · rw [heq, hs]
  · rw [heq, start_lookup (h c (List.mem_of_getElem? hc)), hs]
  · rw [heq]
    exact hs
  · rw [heq]
    exact hs

/-- A record of a task comes from its analysis. -/
theorem mem_entries {env : TaskEnv} {i : ℕ} {c : SpannedCandidate} {a : Analysis} {e : Entry}
    (h : e ∈ env.entries site i c a) :
    e.task = i ∧ e.family = c ∧ e.analysis = a
      ∧ rejectionRecord (env.task site c) a = Except.ok (some e.record) := by
  unfold TaskEnv.entries at h
  split at h
  case h_1 record hrecord _ =>
    obtain rfl := List.mem_singleton.mp h
    exact ⟨rfl, rfl, rfl, hrecord⟩
  case h_2 => cases h

end Tasks

/-! ## Slates whose ids are names -/

/-- The ids of a slate are different names. -/
def SpannedCandidates.Apart (c : SpannedCandidates) : Prop :=
  c.ids.Nodup ∧ ∀ id ∈ c.ids, IsName id

section Apart

variable {site : Site} {c : SpannedCandidates} {inv : Invocation} {s : Fanout}
  {files : AnalysisFiles}

theorem id_mem {f : SpannedCandidate} (h : f ∈ c.families) : f.id ∈ c.ids :=
  List.mem_map_of_mem h

/-- Different tasks have different directories. -/
theorem SpannedCandidates.Apart.outDir_ne (h : c.Apart) {i j : ℕ} {f g : SpannedCandidate}
    (hf : c.families[i]? = some f) (hg : c.families[j]? = some g) (hne : i ≠ j) :
    site.outDir f.id ≠ site.outDir g.id := by
  intro heq
  have hid : f.id = g.id := outDir_injective site (h.right _ (id_mem (List.mem_of_getElem? hf)))
    (h.right _ (id_mem (List.mem_of_getElem? hg))) heq
  have hi : c.ids[i]? = some f.id := by
    unfold SpannedCandidates.ids
    rw [List.getElem?_map, hf, Option.map_some]
  have hj : c.ids[j]? = some f.id := by
    unfold SpannedCandidates.ids
    rw [List.getElem?_map, hg, Option.map_some, hid]
  obtain ⟨hlt, -⟩ := List.getElem?_eq_some_iff.mp hi
  exact hne ((List.getElem?_inj hlt h.left).mp (hi.trans hj.symm))

/-- What a task has found is still there. -/
structure Fanout.Kept (site : Site) (families : List SpannedCandidate) (s : Fanout) : Prop where
  done : ∀ i f, families[i]? = some f → s.stage i = Stage.done (Except.ok ()) →
    ∃ a, contentsOf (s.files.lookup (site.outDir f.id)) = FileRead.parsed a
  entry : ∀ e ∈ s.entries, families[e.task]? = some e.family
    ∧ (∃ r, s.stage e.task = Stage.done r)
    ∧ contentsOf (s.files.lookup (site.outDir e.family.id)) = FileRead.parsed e.analysis

theorem Fanout.Kept.step (hapart : c.Apart) (h : s.Kept site c.families) (i : ℕ) :
    (Fanout.step site c.families inv s i).Kept site c.families := by
  obtain heq | ⟨f, hf, hstage, heq⟩ | ⟨err, hstage, heq⟩ | ⟨f, a, hf, hstage, ha, heq⟩ :=
    step_cases site c.families inv s i
  · rw [heq]
    exact h
  · rw [heq]
    -- only the directory of this task is written to, and it is not done
    have hother : ∀ j g, c.families[j]? = some g → j ≠ i →
        (Fanout.start site (inv.env i) i f s).files.lookup (site.outDir g.id)
          = s.files.lookup (site.outDir g.id) :=
      fun j g hg hne => start_lookup (hapart.outDir_ne hf hg (Ne.symm hne))
    constructor
    · intro j g hg hdone
      by_cases hij : j = i
      · subst hij
        rw [start_stage, Function.update_self] at hdone
        cases hdone
      · rw [start_stage, Function.update_of_ne hij] at hdone
        rw [hother j g hg hij]
        exact h.done j g hg hdone
    · intro e he
      obtain ⟨hfamily, ⟨r, hr⟩, hfile⟩ := h.entry e he
      have hij : e.task ≠ i := by
        rintro rfl
        rw [hstage] at hr
        cases hr
      refine ⟨hfamily, ⟨r, ?_⟩, ?_⟩
      · rw [start_stage, Function.update_of_ne hij]
        exact hr
      · rw [hother e.task e.family hfamily hij]
        exact hfile
  · rw [heq]
    constructor
    · intro j g hg hdone
      by_cases hij : j = i
      · subst hij
        have herror := (Function.update_self j (Stage.done (Except.error err)) s.stage).symm
        cases herror.trans hdone
      · exact h.done j g hg ((Function.update_of_ne hij _ s.stage).symm.trans hdone)
    · intro e he
      obtain ⟨hfamily, ⟨r, hr⟩, hfile⟩ := h.entry e he
      refine ⟨hfamily, ⟨r, ?_⟩, hfile⟩
      have hij : e.task ≠ i := fun hij => hstage r (hij ▸ hr)
      exact (Function.update_of_ne hij _ s.stage).trans hr
  · rw [heq]
    constructor
    · intro j g hg hdone
      by_cases hij : j = i
      · subst hij
        obtain rfl := Option.some.inj (hf.symm.trans hg)
        exact ⟨a, ha.right.left⟩
      · exact h.done j g hg ((Function.update_of_ne hij _ s.stage).symm.trans hdone)
    · intro e he
      obtain he | he := List.mem_append.mp he
      · obtain ⟨hfamily, ⟨r, hr⟩, hfile⟩ := h.entry e he
        refine ⟨hfamily, ⟨r, ?_⟩, hfile⟩
        have hij : e.task ≠ i := fun hij => hstage r (hij ▸ hr)
        exact (Function.update_of_ne hij _ s.stage).trans hr
      · obtain ⟨htask, hfamily, hanalysis, -⟩ := mem_entries he
        rw [htask, hfamily, hanalysis]
        exact ⟨hf, ⟨Except.ok (), Function.update_self ..⟩, ha.right.left⟩

theorem slate_kept (site : Site) (inv : Invocation) (files : AnalysisFiles) (hapart : c.Apart) :
    (Fanout.run site c.families inv files).Kept site c.families := by
  refine run_of_step (P := fun s => s.Kept site c.families) ⟨?_, ?_⟩ fun s i h => ?_
  · intro i f _ hdone
    cases hdone
  · intro e he
    cases he
  · exact h.step hapart i

end Apart

/-! ## The merge reads the current slate -/

section Current

variable {site : Site} {c : SpannedCandidates} {inv : Invocation} {s : Session}
  {files after : AnalysisFiles} {slate : FileRead SpannedCandidates}

/-- The analyses are those of a slate: one of each candidate, and no other. -/
structure Reads (site : Site) (c : SpannedCandidates) (files : AnalysisFiles) : Prop where
  nodup : c.ids.Nodup
  names : ∀ id ∈ c.ids, IsName id
  read : ∃ analyses, readAllAnalyses (site.listing files) = Except.ok analyses
    ∧ (∀ k, k ∈ analyses ↔ k ∈ c.ids)
    ∧ (∀ (k : String) a, analyses[k]? = some a → a.familyId = k)
    ∧ ∀ a ∈ acceptedAnalyses analyses, a.familyId ∈ c.ids

/-- Once triage and then the analyzers have returned, the analyses are those of the
slate. -/
def Session.Current (site : Site) (s : Session) : Prop :=
  s.triaged = true → s.analyzed = true →
    ∃ c, contentsOf s.candidates = FileRead.parsed c ∧ Reads site c s.files

/-- A directory with an analysis is one of the slate. -/
def Covers (site : Site) (c : SpannedCandidates) (files : AnalysisFiles) : Prop :=
  ∀ d ∈ site.listing files, d.analysis ≠ FileRead.notFound → d.name ∈ c.ids

/-- The analyzers find a slate whose ids are different names, and no analysis of a family
that is not on it. -/
def Session.Ready (site : Site) (s : Session) : Event → Prop
  | Event.analyze _ => s.triaged = true → ∀ c, contentsOf s.candidates = FileRead.parsed c →
      c.Apart ∧ Covers site c s.files
  | Event.triage _ _ | Event.clean => True

theorem reads_of (hapart : c.Apart) (hcovers : Covers site c files)
    {analyses : Std.ExtTreeMap String Analysis}
    (hread : readAllAnalyses (site.listing files) = Except.ok analyses)
    (hall : ∀ id ∈ c.ids, ∃ a, ⟨id, FileRead.parsed a⟩ ∈ site.listing files) :
    Reads site c files := by
  have hmem : ∀ (k : String) a, analyses[k]? = some a → k ∈ c.ids := by
    intro k a hk
    obtain ⟨d, hd, rfl, hdir⟩ := exists_of_readAllAnalyses hread hk
    refine hcovers d hd fun hnone => ?_
    unfold readAnalysisDir at hdir
    rw [if_pos hnone] at hdir
    cases Except.ok.inj hdir
  refine ⟨hapart.left, hapart.right, analyses, hread, fun k => ⟨fun hk => ?_, fun hk => ?_⟩,
    fun k a hk => (readAllAnalyses_ok hread hk).left, fun a ha => ?_⟩
  · obtain ⟨a, ha⟩ := Option.isSome_iff_exists.mp
      (Std.ExtTreeMap.isSome_getElem?_iff_mem.mpr hk)
    exact hmem k a ha
  · obtain ⟨a, ha⟩ := hall k hk
    exact (readAllAnalyses_of_mem hread ha nofun).left
  · obtain ⟨k, hk⟩ := mem_acceptedAnalyses.mp ha
    rw [show a.familyId = k from (readAllAnalyses_ok hread hk).left]
    exact hmem k _ hk

/-- Without a file there is no analysis. -/
theorem readAllAnalyses_of_notFound {dirs : List AnalysisDir}
    (h : ∀ d ∈ dirs, d.analysis = FileRead.notFound) :
    readAllAnalyses dirs = Except.ok ∅ := by
  unfold readAllAnalyses
  refine bind_ok_iff.mpr ⟨dirs.map fun _ => none, mapM_ok_iff.mpr ?_, ?_⟩
  · rw [List.forall₂_map_right_iff, List.forall₂_same]
    intro d hd
    refine bind_ok_iff.mpr ⟨none, ?_, rfl⟩
    unfold readAnalysisDir
    rw [if_pos (h d hd)]
  · rw [pure_ok_iff]
    rw [show (dirs.map fun _ => (none : Option (String × Analysis))).reduceOption = [] from ?_]
    · rfl
    · rw [List.eq_nil_iff_forall_not_mem]
      intro p hp
      obtain ⟨d, -, hd⟩ := List.mem_map.mp (List.reduceOption_mem_iff.mp hp)
      cases hd

/-- How the phase ends: without tasks, or with all of them. -/
theorem run_cases (site : Site) (inv : Invocation) (slate : FileRead SpannedCandidates)
    (files : AnalysisFiles) :
    ((inv.run site slate files).files = files ∧ (inv.run site slate files).entries = []
      ∧ ((inv.run site slate files).outcome.isOk = true →
        ∃ c, slate = FileRead.parsed c ∧ c.families = []))
    ∨ ∃ c, slate = FileRead.parsed c
      ∧ (inv.run site slate files).files = (Fanout.run site c.families inv files).files
      ∧ (inv.run site slate files).entries = (Fanout.run site c.families inv files).entries
      ∧ ((inv.run site slate files).outcome.isOk = true →
        (Fanout.run site c.families inv files).join c.families = Except.ok ()
        ∧ ∃ analyses, readAllAnalyses
          (site.listing (Fanout.run site c.families inv files).files) = Except.ok analyses) := by
  unfold Invocation.run
  cases hslate : (slate.parseJson "triage/candidates.json").context "loading candidates.json" with
  | error e => exact Or.inl ⟨rfl, rfl, nofun⟩
  | ok c =>
    have hparsed := FileRead.parseJson_ok_iff.mp (context_ok_iff.mp hslate)
    dsimp only
    by_cases hempty : c.families = []
    · rw [if_pos hempty]
      exact Or.inl ⟨rfl, rfl, fun _ => ⟨c, hparsed, hempty⟩⟩
    · rw [if_neg hempty]
      cases inv.prepare with
      | error e => exact Or.inl ⟨rfl, rfl, nofun⟩
      | ok u =>
        refine Or.inr ⟨c, hparsed, rfl, rfl, fun hok => ?_⟩
        obtain ⟨o, ho⟩ := isOk_iff.mp hok
        obtain ⟨hjoin, analyses, hread, -⟩ := seq_ok_iff.mp ho |>.imp id bind_ok_iff.mp
        exact ⟨hjoin, analyses, hread⟩

/-- The phase writes in the directories of the slate. -/
theorem lookup_run (hslate : slate = FileRead.parsed c) {p : PathBuf}
    (h : ∀ id ∈ c.ids, site.outDir id ≠ p) :
    (inv.run site slate files).files.lookup p = files.lookup p := by
  obtain ⟨hfiles, -, -⟩ | ⟨c', hc', hfiles, -, -⟩ := run_cases site inv slate files
  · rw [hfiles]
  · obtain rfl := FileRead.parsed.inj (hc'.symm.trans hslate)
    rw [hfiles]
    exact run_lookup fun f hf => h f.id (id_mem hf)

/-- When the phase has returned, every candidate has an analysis. -/
theorem mem_listing_run (hslate : slate = FileRead.parsed c) (hapart : c.Apart)
    (hok : (inv.run site slate files).outcome.isOk = true) :
    ∀ id ∈ c.ids, ∃ a,
      ⟨id, FileRead.parsed a⟩ ∈ site.listing (inv.run site slate files).files := by
  intro id hid
  obtain ⟨f, hf, rfl⟩ := List.mem_map.mp hid
  obtain ⟨-, -, hempty⟩ | ⟨c', hc', hfiles, -, hjoined⟩ := run_cases site inv slate files
  · obtain ⟨c', hc', hempty⟩ := hempty hok
    obtain rfl := FileRead.parsed.inj (hc'.symm.trans hslate)
    rw [hempty] at hf
    cases hf
  · obtain rfl := FileRead.parsed.inj (hc'.symm.trans hslate)
    obtain ⟨i, hi⟩ := List.mem_iff_getElem?.mp hf
    have hdone := forEach_ok_iff.mp (hjoined hok).left i f hi
    have hkept := slate_kept site inv files hapart
    obtain ⟨a, ha⟩ := hkept.done i f hi (by
      split at hdone
      case h_1 r hr => rw [hr, hdone]
      case h_2 => cases hdone)
    rw [hfiles]
    exact ⟨a, mem_listing_of_outDir site (hapart.right f.id hid) ha⟩

/-- **The analyses are those of the slate, after the phase has returned, exactly when the
ids are different names and there were no analyses of others.** -/
theorem reads_run_iff (hslate : slate = FileRead.parsed c)
    (hok : (inv.run site slate files).outcome.isOk = true) :
    Reads site c (inv.run site slate files).files ↔ c.Apart ∧ Covers site c files := by
  have hsame : c.Apart → ∀ d : AnalysisDir, d.name ∉ c.ids →
      (d ∈ site.listing (inv.run site slate files).files ↔ d ∈ site.listing files) :=
    fun hapart d hd => mem_listing_iff_of_not_mem site hapart.right
      (fun p hp => lookup_run hslate hp) hd
  constructor
  · rintro ⟨hnodup, hnames, analyses, hread, hkeys, -⟩
    refine ⟨⟨hnodup, hnames⟩, fun d hd hfile => ?_⟩
    by_contra hnot
    have hafter := (hsame ⟨hnodup, hnames⟩ d hnot).mpr hd
    exact hnot ((hkeys d.name).mp (readAllAnalyses_of_mem hread hafter hfile).left)
  · rintro ⟨hapart, hcovers⟩
    have hcoversAfter : Covers site c (inv.run site slate files).files := by
      intro d hd hfile
      by_contra hnot
      exact hnot (hcovers d ((hsame hapart d hnot).mp hd) hfile)
    have hall := mem_listing_run hslate hapart hok
    obtain ⟨-, -, hempty⟩ | ⟨c', hc', hfiles, -, hjoined⟩ := run_cases site inv slate files
    · obtain ⟨c', hc', hempty⟩ := hempty hok
      obtain rfl := FileRead.parsed.inj (hc'.symm.trans hslate)
      refine reads_of hapart hcoversAfter (readAllAnalyses_of_notFound fun d hd => ?_) hall
      -- there are no candidates, so nothing is of one of them
      by_contra hfile
      have hmem := hcoversAfter d hd hfile
      unfold SpannedCandidates.ids at hmem
      rw [hempty] at hmem
      cases hmem
    · obtain rfl := FileRead.parsed.inj (hc'.symm.trans hslate)
      obtain ⟨-, analyses, hread⟩ := hjoined hok
      rw [← hfiles] at hread
      exact reads_of hapart hcoversAfter hread hall

/-- The analyzers leave the analyses of the slate exactly when they were ready to. -/
theorem current_analyze_iff (hok : (s.analyze site inv).analyzed = true) :
    (s.analyze site inv).Current site ↔ s.Ready site (Event.analyze inv) := by
  constructor
  · intro h htriaged c hc
    obtain ⟨c', hc', hreads⟩ := h htriaged hok
    obtain rfl := FileRead.parsed.inj (hc'.symm.trans hc)
    exact (reads_run_iff hc hok).mp hreads
  · intro h htriaged _
    obtain ⟨c, hc⟩ : ∃ c, contentsOf s.candidates = FileRead.parsed c := by
      obtain ⟨-, -, hempty⟩ | ⟨c, hc, -⟩ :=
        run_cases site inv (contentsOf s.candidates) s.files
      · obtain ⟨c, hc, -⟩ := hempty hok
        exact ⟨c, hc⟩
      · exact ⟨c, hc⟩
    exact ⟨c, hc, (reads_run_iff hc hok).mpr (h htriaged c hc)⟩

/-- **The merge reads the current slate**: over every run in which the analyzers find a
slate whose ids are different names and no analysis of a family that is not on it, the
analyses are those of the slate whenever triage and then the analyzers have returned. And
the analyzers leave anything else whenever they find anything else. -/
theorem slate_current (site : Site) :
    (∀ es s s', s.analyzed = false → Runs.Throughout (Session.step site) (Session.Ready site) s es →
      Runs.run (Session.step site) s es = some s' → s'.Current site)
    ∧ ∀ (s : Session) (inv : Invocation), (s.analyze site inv).analyzed = true →
      ((s.analyze site inv).Current site ↔ s.Ready site (Event.analyze inv)) := by
  refine ⟨fun es s s' hstart hready hrun => ?_, fun s inv hok => current_analyze_iff hok⟩
  refine Runs.run_invariant ?_ ?_ hready hrun
  · intro s e s' _ hready hstep
    cases e with
    | triage io agent =>
      obtain rfl := Option.some.inj hstep
      exact fun _ hanalyzed => by cases hanalyzed
    | clean =>
      obtain rfl := Option.some.inj hstep
      exact fun _ hanalyzed => by cases hanalyzed
    | analyze inv =>
      obtain rfl := Option.some.inj hstep
      exact fun htriaged hok => (current_analyze_iff hok).mpr hready htriaged hok
  · intro _ hanalyzed
    rw [hstart] at hanalyzed
    cases hanalyzed

end Current

/-! ## A slate and its successor -/

section Demo

/-- A family without anything to tell it from others but its id. -/
def familyOf (id : String) : SpannedCandidate where
  id := id
  kind := FamilyKind.txFamily
  selectionLens := SelectionLens.txLatency
  representativeIds := RepresentativeIds.tx []
  suspectedSpans := some ["read"]

def slateOf (ids : List String) : SpannedCandidates where
  sessionId := "20260614"
  baselineRunId := 1
  baselineRerunId := 2
  noiseFloorPct := F64.ofNat 1
  candidates := ids.map fun id => (familyOf id).toCandidate
  lensCoverage := ⟨ids.length, 0, 0⟩
  families := ids.map familyOf
  families_eq := List.map_map ..

def sampleSite : Site := ⟨"20260614", ofNames ["results"], fun id => id⟩

def sampleIo : PhaseIo := ⟨Except.ok (), Except.ok (), Except.ok ()⟩

/-- The agent of triage writes a slate. -/
def triageOf (ids : List String) : Event :=
  Event.triage sampleIo ⟨Except.ok (), some ⟨true, FileRead.parsed (slateOf ids), 0⟩⟩

/-- The agents of the analyzers write their analyses, one after the other. -/
def invocationOf (analyses : List Analysis) : Invocation where
  prepare := Except.ok ()
  cap := 4
  env i :=
    { io := sampleIo
      agent := ⟨Except.ok (), analyses[i]?.map fun a => ⟨true, FileRead.parsed a, 0⟩⟩
      reparse := Except.ok ()
      stacksCoreSha := none
      now := "2026-06-14T00:00:00Z"
      append := Except.ok () }
  schedule := (List.range analyses.length).flatMap fun i => [i, i]

/-- Two slates, with one family each, after each other. -/
def staleRun : List Event :=
  [triageOf ["fam-a"], Event.analyze (invocationOf [Analysis.rejected ⟨"fam-a", "cold"⟩]),
    triageOf ["fam-b"], Event.analyze (invocationOf [Analysis.rejected ⟨"fam-b", "cold"⟩])]

/-- **The merge still reads the family of the first slate.** -/
theorem not_current_of_next_slate :
    ¬ ∀ (site : Site) (es : List Event) (s : Session),
      Runs.run (Session.step site) Session.fresh es = some s → s.Current site := by
  intro h
  obtain ⟨s, hs, hflags, hids, hread⟩ : ∃ s,
      Runs.run (Session.step sampleSite) Session.fresh staleRun = some s
      ∧ (s.triaged = true ∧ s.analyzed = true)
      ∧ (contentsOf s.candidates).value?.map SpannedCandidates.ids = some ["fam-b"]
      ∧ ((readAllAnalyses (sampleSite.listing s.files)).toOption.map fun analyses =>
        analyses.contains "fam-a") = some true :=
    ⟨_, rfl, by decide +kernel, by decide +kernel, by decide +kernel⟩
  obtain ⟨c, hc, -, -, analyses, hanalyses, hkeys, -⟩ :=
    h sampleSite staleRun s hs hflags.left hflags.right
  rw [hc] at hids
  rw [hanalyses] at hread
  have hmem := (hkeys "fam-a").mp (Std.ExtTreeMap.contains_iff_mem.mp (Option.some.inj hread))
  rw [Option.some.inj hids] at hmem
  revert hmem
  decide

/-- Two slates of two families, the tasks of the first one in turns. What they have left is
removed in between. -/
def cleanedRun : List Event :=
  [triageOf ["fam-a", "fam-b"],
    Event.analyze { invocationOf [Analysis.rejected ⟨"fam-a", "cold"⟩,
      Analysis.rejected ⟨"fam-b", "cold"⟩] with schedule := [0, 1, 1, 0] },
    Event.clean, triageOf ["fam-b", "fam-c"],
    Event.analyze (invocationOf [Analysis.rejected ⟨"fam-b", "cold"⟩,
      Analysis.rejected ⟨"fam-c", "cold"⟩])]

/-- The merge reads the second slate. -/
theorem slate_current_cleaned : ∃ s,
    Runs.run (Session.step sampleSite) Session.fresh cleanedRun = some s
      ∧ (s.triaged = true ∧ s.analyzed = true) ∧ s.Current sampleSite
      ∧ (contentsOf s.candidates).value?.map SpannedCandidates.ids = some ["fam-b", "fam-c"] := by
  refine ⟨_, rfl, by decide +kernel, (slate_current sampleSite).left cleanedRun
    Session.fresh _ rfl ⟨trivial, fun s₁ h₁ => ⟨fun _ c hc => ?_, fun s₂ h₂ =>
      ⟨trivial, fun s₃ h₃ => ⟨trivial, fun s₄ h₄ => ⟨fun _ c hc => ?_, fun _ _ => trivial⟩⟩⟩⟩⟩ rfl,
    by decide +kernel⟩
  · obtain rfl := Option.some.inj h₁
    obtain rfl : slateOf ["fam-a", "fam-b"] = c := FileRead.parsed.inj hc
    exact ⟨⟨by decide, by decide⟩, fun d hd => absurd hd List.not_mem_nil⟩
  · obtain rfl := Option.some.inj h₁
    obtain rfl := Option.some.inj h₂
    obtain rfl := Option.some.inj h₃
    obtain rfl := Option.some.inj h₄
    obtain rfl : slateOf ["fam-b", "fam-c"] = c := FileRead.parsed.inj hc
    have hremoved : (sampleSite.listing ((((Session.fresh.triage sampleIo ⟨Except.ok (),
        some ⟨true, FileRead.parsed (slateOf ["fam-a", "fam-b"]), 0⟩⟩).analyze sampleSite
        { invocationOf [Analysis.rejected ⟨"fam-a", "cold"⟩, Analysis.rejected ⟨"fam-b", "cold"⟩]
          with schedule := [0, 1, 1, 0] }).clean sampleSite).files)).isEmpty = true := by
      decide +kernel
    refine ⟨⟨by decide, by decide⟩, fun d hd => ?_⟩
    exact absurd (List.isEmpty_iff.mp hremoved ▸ hd) List.not_mem_nil

end Demo

/-! ## Records of families that are ruled out -/

section Rejections

variable {site : Site} {c : SpannedCandidates} {inv : Invocation} {files : AnalysisFiles}

/-- The targets that an analysis contributes. -/
def targetsOf : Analysis → List AnalyzerTarget
  | Analysis.accepted a => a.targets
  | Analysis.rejected _ => []

/-- What a record says is what its candidate and its analysis say. -/
structure Entry.Justified (site : Site) (c : SpannedCandidates) (cap : ℕ) (e : Entry) :
    Prop where
  family : c.families[e.task]? = some e.family
  within : enforceInvocationCap e.family.id e.analysis cap = Except.ok ()
  reason : rejectionOf e.analysis = some (e.record.outcome, e.record.reason)
  record : ∃ t : AnalyzerTask, t.familyId = e.family.id ∧ t.sessionId = site.sessionId
    ∧ e.record = t.record e.family e.record.outcome e.record.reason
  targets : e.record.outcome = Outcome.rejected → targetsOf e.analysis = []

/-- The records of one invocation of the phase. -/
structure PhaseRun.Sound (site : Site) (r : PhaseRun) : Prop where
  /-- A task appends one record at most. -/
  once : (r.entries.map fun e => e.task).Nodup
  /-- And so there is one of each family, if no two candidates have the same id. -/
  families : ∀ c, r.slate = FileRead.parsed c → c.ids.Nodup →
    (r.entries.map fun e => e.record.familyId).Nodup
  justified : ∀ e ∈ r.entries, ∃ c, r.slate = FileRead.parsed c ∧ e.Justified site c r.cap
  /-- Once the phase has returned, the analyses are valid. -/
  valid : r.returned = true → ∀ c, r.slate = FileRead.parsed c → c.Apart → ∀ e ∈ r.entries,
    e.analysis.validateModel = Except.ok () ∧ e.analysis.familyId = e.family.id

/-- The records of all invocations in a session. -/
def Session.Sound (site : Site) (s : Session) : Prop := ∀ r ∈ s.history, r.Sound site

/-- What a task appends is justified. -/
theorem justified_of_mem_entries {env : TaskEnv} {i cap : ℕ} {f : SpannedCandidate}
    {a : Analysis} {e : Entry} (hf : c.families[i]? = some f)
    (ha : enforceInvocationCap f.id a cap = Except.ok ()) (he : e ∈ env.entries site i f a) :
    e.Justified site c cap := by
  obtain ⟨rfl, rfl, rfl, hrecord⟩ := mem_entries he
  obtain ⟨c', outcome, reason, hc', hreason, -, heq⟩ := rejectionRecord_eq hrecord
  have hfamily : c' = e.family := by
    unfold TaskEnv.task at hc'
    cases hreparse : env.reparse with
    | error err =>
      rw [hreparse] at hc'
      cases hc'
    | ok u =>
      rw [hreparse] at hc'
      exact (Except.ok.inj hc').symm
  subst hfamily
  have hrecord : e.record.outcome = outcome ∧ e.record.reason = reason := by
    rw [heq]
    exact ⟨rfl, rfl⟩
  rw [← hrecord.left, ← hrecord.right] at hreason heq
  refine ⟨hf, ha, hreason, ⟨env.task site e.family, rfl, rfl, heq⟩, fun houtcome => ?_⟩
  rw [houtcome] at hreason
  cases hanalysis : e.analysis with
  | rejected r => rfl
  | accepted a =>
    rw [hanalysis] at hreason
    dsimp only [rejectionOf] at hreason
    split_ifs at hreason
    cases hreason

/-- What the tasks have appended so far. -/
structure Fanout.Recorded (site : Site) (c : SpannedCandidates) (cap : ℕ) (s : Fanout) :
    Prop where
  done : ∀ e ∈ s.entries, ∃ r, s.stage e.task = Stage.done r
  once : (s.entries.map fun e => e.task).Nodup
  justified : ∀ e ∈ s.entries, e.Justified site c cap

theorem Fanout.Recorded.step {s : Fanout} (h : s.Recorded site c inv.cap) (i : ℕ) :
    (Fanout.step site c.families inv s i).Recorded site c inv.cap := by
  -- what is recorded is of tasks that are done, and this one is not yet
  have hdone : ∀ stage, (∀ r, s.stage i ≠ Stage.done r) → ∀ e ∈ s.entries,
      Function.update s.stage i stage e.task = s.stage e.task := by
    intro stage hstage e he
    obtain ⟨r, hr⟩ := h.done e he
    refine Function.update_of_ne (fun heq => ?_) stage s.stage
    rw [heq] at hr
    exact hstage r hr
  obtain heq | ⟨f, hf, hstage, heq⟩ | ⟨err, hstage, heq⟩ | ⟨f, a, hf, hstage, ha, heq⟩ :=
    step_cases site c.families inv s i
  · rw [heq]
    exact h
  · rw [heq]
    refine ⟨fun e he => ?_, h.once, h.justified⟩
    obtain ⟨r, hr⟩ := h.done e he
    have hwaiting : ∀ r, s.stage i ≠ Stage.done r := by
      rw [hstage]
      exact nofun
    exact ⟨r, (hdone Stage.written hwaiting e he).trans hr⟩
  · rw [heq]
    refine ⟨fun e he => ?_, h.once, h.justified⟩
    obtain ⟨r, hr⟩ := h.done e he
    exact ⟨r, (hdone _ hstage e he).trans hr⟩
  · rw [heq]
    have hnew : ∀ e ∈ (inv.env i).entries site i f a, e.task = i := fun e he =>
      (mem_entries he).left
    refine ⟨fun e he => ?_, ?_, fun e he => ?_⟩
    · obtain he | he := List.mem_append.mp he
      · obtain ⟨r, hr⟩ := h.done e he
        exact ⟨r, (hdone _ hstage e he).trans hr⟩
      · rw [hnew e he]
        exact ⟨Except.ok (), Function.update_self ..⟩
    · rw [List.map_append, List.nodup_append]
      refine ⟨h.once, ?_, ?_⟩
      · unfold TaskEnv.entries
        split
        · exact List.nodup_singleton _
        · exact List.nodup_nil
      · intro j hj k hk hjk
        obtain ⟨e, he, rfl⟩ := List.mem_map.mp hj
        obtain ⟨e', he', rfl⟩ := List.mem_map.mp hk
        obtain ⟨r, hr⟩ := h.done e he
        rw [hjk, hnew e' he'] at hr
        exact hstage r hr
    · obtain he | he := List.mem_append.mp he
      · exact h.justified e he
      · exact justified_of_mem_entries hf ha.right.right he

theorem run_recorded (site : Site) (c : SpannedCandidates) (inv : Invocation)
    (files : AnalysisFiles) :
    (Fanout.run site c.families inv files).Recorded site c inv.cap := by
  refine run_of_step (P := fun s => s.Recorded site c inv.cap) ⟨?_, List.nodup_nil, ?_⟩
    fun s i h => h.step i
  · exact fun e he => by cases he
  · exact fun e he => by cases he

/-- A family that is recorded once is on the slate once. -/
theorem nodup_familyId {cap : ℕ} {entries : List Entry} (hnodup : c.ids.Nodup)
    (honce : (entries.map fun e => e.task).Nodup)
    (hjustified : ∀ e ∈ entries, e.Justified site c cap) :
    (entries.map fun e => e.record.familyId).Nodup := by
  have hid : ∀ e ∈ entries, c.ids[e.task]? = some e.record.familyId := by
    intro e he
    obtain ⟨t, ht, -, hrecord⟩ := (hjustified e he).record
    unfold SpannedCandidates.ids
    rw [List.getElem?_map, (hjustified e he).family, hrecord, Option.map_some, ← ht]
    rfl
  refine (List.nodup_map_iff_inj_on (List.Nodup.of_map _ honce)).mpr fun e he e' he' heq => ?_
  have htask : c.ids[e.task]? = c.ids[e'.task]? := by
    rw [hid e he, hid e' he', heq]
  obtain ⟨hlt, -⟩ := List.getElem?_eq_some_iff.mp (hid e he)
  exact List.inj_on_of_nodup_map honce he he' ((List.getElem?_inj hlt hnodup).mp htask)

/-- **The records of one invocation.** -/
theorem sound_run (site : Site) (inv : Invocation) (slate : FileRead SpannedCandidates)
    (files : AnalysisFiles) :
    PhaseRun.Sound site ⟨slate, inv.cap, (inv.run site slate files).entries,
      (inv.run site slate files).outcome.isOk⟩ := by
  obtain ⟨-, hentries, -⟩ | ⟨c, hc, hfiles, hentries, hjoined⟩ := run_cases site inv slate files
  · rw [hentries]
    exact ⟨List.nodup_nil, fun _ _ _ => List.nodup_nil, fun e he => absurd he List.not_mem_nil,
      fun _ _ _ _ e he => absurd he List.not_mem_nil⟩
  · obtain ⟨-, honce, hjustified⟩ := run_recorded site c inv files
    rw [hentries]
    refine ⟨honce, fun c' hc' hnodup => ?_, fun e he => ⟨c, hc, hjustified e he⟩,
      fun hok c' hc' hapart e he => ?_⟩
    · obtain rfl := FileRead.parsed.inj (hc'.symm.trans hc)
      exact nodup_familyId hnodup honce hjustified
    · obtain rfl := FileRead.parsed.inj (hc'.symm.trans hc)
      -- the file that the record is of is still there when all of them are read
      obtain ⟨hfamily, -, hfile⟩ := (slate_kept site inv files hapart).entry e he
      obtain ⟨-, analyses, hread⟩ := hjoined hok
      have hname := hapart.right e.family.id (id_mem (List.mem_of_getElem? hfamily))
      obtain ⟨-, a, ha, hdir⟩ :=
        readAllAnalyses_of_mem hread (mem_listing_of_outDir site hname hfile) nofun
      obtain rfl := FileRead.parsed.inj ha
      exact (readAnalysisDir_ok hdir).symm

/-- **The ledger of rejections is sound**, over all invocations of the phase in a session:
a task appends one record at most; what the record says is what its candidate and its
analysis say, and the analysis rules the family out; and once the phase has returned, the
analysis is valid and one of the candidate's family. -/
theorem rejections_sound (site : Site) (es : List Event) (s s' : Session)
    (hstart : s.history = []) (hrun : Runs.run (Session.step site) s es = some s') :
    s'.Sound site := by
  refine Runs.run_invariant_of_step ?_ ?_ hrun
  · intro s e s' h hstep
    cases e with
    | triage io agent =>
      obtain rfl := Option.some.inj hstep
      exact h
    | clean =>
      obtain rfl := Option.some.inj hstep
      exact h
    | analyze inv =>
      obtain rfl := Option.some.inj hstep
      intro r hr
      obtain hr | hr := List.mem_append.mp hr
      · exact h r hr
      · obtain rfl := List.mem_singleton.mp hr
        exact sound_run site inv (contentsOf s.candidates) s.files
  · unfold Session.Sound
    rw [hstart]
    exact fun r hr => absurd hr List.not_mem_nil

end Rejections

section Silent

/-- An analysis that finds nothing to do and does not say why. -/
def silentAnalysis : Analysis :=
  Analysis.accepted
    { familyId := "fam-a"
      selectionLens := SelectionLens.txLatency
      lensDisposition := ⟨SelectionLens.txLatency, LensDispositionStatus.notActionable, none⟩
      targets := []
      globalMaterialityNote := none }

def silentRun : List Event := [triageOf ["fam-a"], Event.analyze (invocationOf [silentAnalysis])]

/-- **An analysis that fails its validation is on the ledger before that.** -/
theorem not_valid_of_silent :
    ¬ ∀ (site : Site) (es : List Event) (s : Session),
      Runs.run (Session.step site) Session.fresh es = some s →
        ∀ r ∈ s.history, ∀ e ∈ r.entries, e.analysis.validateModel = Except.ok () := by
  intro h
  have hall := h sampleSite silentRun _ rfl
  have hrefused : ((Session.fresh.triage sampleIo ⟨Except.ok (), some ⟨true,
      FileRead.parsed (slateOf ["fam-a"]), 0⟩⟩).analyze sampleSite
        (invocationOf [silentAnalysis])).history.any (fun r =>
      r.entries.any fun e => !e.analysis.validateModel.isOk) = true := by decide +kernel
  obtain ⟨r, hr, hany⟩ := List.any_eq_true.mp hrefused
  obtain ⟨e, he, hnot⟩ := List.any_eq_true.mp hany
  rw [hall r hr e he] at hnot
  cases hnot

/-- The record of that analysis is as it should be all the same. -/
theorem rejections_sound_silent : ∃ s,
    Runs.run (Session.step sampleSite) Session.fresh silentRun = some s
      ∧ (s.history.map fun r => r.entries.length) = [1] ∧ s.Sound sampleSite :=
  ⟨_, rfl, by decide +kernel, rejections_sound sampleSite silentRun Session.fresh _ rfl rfl⟩

end Silent

end Slate
