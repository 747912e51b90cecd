import Sbagent.JsonValue
import Sbagent.RunIdFile
import Sbagent.Stopping

/-!
# The files of a baseline

The discovery pass leaves what later phases know of the baseline in five files: what the
benchmark printed of the run and of its rerun, the ids of the two, and a noise floor for when
they are one and the same run. `run` and `importBaseline` write the files one after another,
with calls of the benchmark in between, and a call that fails ends them where they are. That
the run that was asked for is the one that the benchmark has shown is the last thing that
`importBaseline` checks.

So a call that fails half way leaves some files of the new baseline beside others of the old
one, and nothing in them tells. Triage, which reads the ids and the noise floor, notices it
only if one of the ids can not be read.
-/

open Fallible Stopping

namespace BaselineFiles

/-! ## The directory -/

inductive BaselineFile where
  | benchRunJson
  | rerunJson
  | runId
  | rerunId
  | noiseFloorPct
  deriving DecidableEq

open BaselineFile

def BaselineFile.path : BaselineFile → String
  | benchRunJson => "baseline/bench-run.json"
  | rerunJson => "baseline/rerun.json"
  | runId => "baseline/run-id"
  | rerunId => "baseline/rerun-id"
  | noiseFloorPct => "baseline/noise-floor-pct"

/-- What the files hold that are there. -/
abbrev BaselineDir := BaselineFile → Option String

/-- What a call does to the directory. -/
abbrev Act (α : Type) := ExceptT (List String) (StateM BaselineDir) α

/-- How writing a file ends. A write that is cut off leaves the beginning of the text. -/
inductive WriteEnd where
  | written
  | notOpened (error : String)
  | cut (n : ℕ) (error : String)

namespace WriteEnd

/-- What is in the file then, if it was opened. -/
def left (text : String) : WriteEnd → Option String
  | written => some text
  | notOpened _ => none
  | cut n _ => some (String.ofList (text.toList.dropLast.take n))

def error : WriteEnd → Option (List String)
  | written => none
  | notOpened e => some [e]
  | cut _ e => some [e]

end WriteEnd

/-- Write a file. -/
def write (file : BaselineFile) (text : String) (r : WriteEnd) : Act Unit :=
  put file (r.left text) r.error

/-! ## Calling the benchmark -/

/-- The command, with the binary that was archived. -/
structure StacksBenchCli where
  releaseBin : String
  dataDir : String

/-- Where the output of a call goes: to a file of the baseline, or to another one. -/
inductive Output where
  | baseline (file : BaselineFile)
  | other (path : String)

def Output.path : Output → String
  | baseline file => file.path
  | other path => path

structure InvokeOptions where
  args : List String
  stdout : Output
  stderr : Option String
  lock : String

/-- The directory that a file is in. -/
def parentOf (path : String) : String :=
  String.ofList (path.toList.reverse.dropWhile (· ≠ '/')).tail.reverse

/-- Where a call fails. -/
inductive InvokeFault where
  | dataDir
  | lockDir
  | openLock
  | acquireLock
  | binary
  | stdoutDir
  | openStdout
  | stderrDir
  | openStderr
  | start
  /-- The benchmark ends with a status that is not success. -/
  | status (text : String)

namespace InvokeFault

def message (cli : StacksBenchCli) (opts : InvokeOptions) : InvokeFault → String
  | dataDir => s!"creating stacks-bench data dir {cli.dataDir}"
  | lockDir => "creating " ++ parentOf opts.lock
  | openLock => s!"opening lock {opts.lock}"
  | acquireLock => "acquiring bench-lock"
  | binary =>
    s!"strict StacksBenchCli requires the archived binary at {cli.releaseBin} to exist; "
      ++ "refusing to fall back to `cargo stacks-bench`. Re-run Phase 0a to rebuild and "
      ++ "archive the baseline binary."
  | stdoutDir => "creating " ++ parentOf opts.stdout.path
  | openStdout => s!"opening {opts.stdout.path} for write"
  | stderrDir => "creating " ++ parentOf (opts.stderr.getD "")
  | openStderr => "opening " ++ opts.stderr.getD "" ++ " for write"
  | start => "invoking stacks-bench " ++ " ".intercalate opts.args
  | status text =>
    "stacks-bench " ++ " ".intercalate opts.args ++ s!" exited with {text}"

/-- What is in the file for the output, if it was opened: nothing before the benchmark has
printed something. -/
def left (printed : String) : InvokeFault → Option String
  | stderrDir | openStderr | start => some ""
  | status _ => some printed
  | _ => none

end InvokeFault

/-- How a call of the benchmark ends, and what has been printed by then. -/
structure Invocation where
  printed : String
  fault : Option InvokeFault

/-- What the call leaves in the file for its output. -/
def Invocation.left (r : Invocation) : Option String :=
  match r.fault with
  | some f => f.left r.printed
  | none => some r.printed

/-- Call the benchmark. The file for its output is emptied before it starts. -/
def invoke (cli : StacksBenchCli) (opts : InvokeOptions) (r : Invocation) : Act Unit :=
  let error := r.fault.map fun f => [f.message cli opts]
  match opts.stdout with
  | Output.baseline file => put file r.left error
  | Output.other _ =>
    match error with
    | some e => throw e
    | none => pure ()

/-! ## The id in an envelope -/

def asI64 : Json → Option ℤ
  | Json.nat n => if n < 2 ^ 63 then some n else none
  | Json.negative n => if n < 2 ^ 63 then some (Int.negSucc n) else none
  | _ => none

section Envelopes

/- What a text holds as JSON, if it is JSON. -/
variable (fromSlice : String → Option Json)

/-- The id of the run that an envelope is about. -/
def envelopeRunId (text : String) : Option ℤ := do
  let v ← fromSlice text
  let data ← v.get "data"
  let id ← data.get "run_id"
  asI64 id

/-- The id in a file with an envelope, which may fail to be read. -/
def extractRunId (file : BaselineFile) (fails : Bool) (dir : BaselineDir) : Fallible ℤ :=
  match if fails then none else dir file with
  | none => bail s!"reading {file.path}"
  | some raw =>
    match fromSlice raw with
    | none => bail s!"parsing {file.path}"
    | some _ =>
      ofOption (envelopeRunId fromSlice raw)
        (s!"extract_run_id: {file.path} envelope is missing `.data.run_id`; the stacks-bench "
          ++ "CLI contract has changed")

/-! ## A fresh run -/

structure RunInputs where
  cli : StacksBenchCli
  sessionId : String
  resultsDir : String
  sourceDir : String
  network : String
  startAt : ℕ
  count : ℕ
  warmup : Option ℕ
  filter : Option String
  shadowDirRoot : Option String
  benchLock : String
  /-- The percentage as it is written. -/
  singleRunNoiseFloorPct : String

def RunInputs.runArgs (i : RunInputs) : List String :=
  ["bench", "run", "--source", i.sourceDir, "--network", i.network, "--start-at",
    toString i.startAt, "--count", toString i.count, "--name", "baseline-" ++ i.sessionId]
    ++ (i.shadowDirRoot.map fun dir => ["--shadow-dir-root", dir]).getD []
    ++ (i.warmup.map fun n => ["--warmup", toString n]).getD []
    ++ (i.filter.map fun f => ["--filter", f]).getD []

/-- How the steps of a fresh run end. -/
structure RunEnv where
  createDir : Bool
  benchRun : Invocation
  readFails : Bool
  writeRunId : WriteEnd
  writeRerunId : WriteEnd
  copyRerun : WriteEnd
  writeNoiseFloor : WriteEnd
  benchList : Invocation
  benchShow : Invocation

/-- The ids of a run and its rerun, which are the same here. -/
structure RunOutputs where
  baselineRunId : ℤ
  baselineRerunId : ℤ

def createResultsDir (dir : String) (done : Bool) : Act Unit :=
  if done then pure () else throw [s!"creating {dir}"]

def listArgs : List String := ["bench", "list", "--all", "--with-args", "--limit", "100"]

def hotspotArgs (runId : ℤ) : List String :=
  ["bench", "show", "--run-id", toString runId, "--profiler-hot", "50"]

/-- Copy what the benchmark has printed of the run. -/
def copyBenchRun (r : WriteEnd) : Act Unit := do
  let dir ← get
  match dir benchRunJson with
  | none => throw [s!"copying {benchRunJson.path}"]
  | some text => write rerunJson text r

def run (i : RunInputs) (env : RunEnv) : Act RunOutputs := do
  createResultsDir i.resultsDir env.createDir
  invoke i.cli
    { args := i.runArgs
      stdout := Output.baseline benchRunJson
      stderr := some "baseline/bench-run.stderr.log"
      lock := i.benchLock } env.benchRun
  let baselineRunId ← reading (extractRunId fromSlice benchRunJson env.readFails)
  write runId (runIdText baselineRunId) env.writeRunId
  let baselineRerunId := baselineRunId
  write rerunId (runIdText baselineRerunId) env.writeRerunId
  copyBenchRun env.copyRerun
  write noiseFloorPct (i.singleRunNoiseFloorPct ++ "\n") env.writeNoiseFloor
  invoke i.cli
    { args := listArgs
      stdout := Output.other "baseline/bench-list.json"
      stderr := none
      lock := i.benchLock } env.benchList
  invoke i.cli
    { args := hotspotArgs baselineRunId
      stdout := Output.other "baseline/profiler-hotspots.json"
      stderr := none
      lock := i.benchLock } env.benchShow
  return ⟨baselineRunId, baselineRerunId⟩

/-! ## An import -/

structure ImportInputs where
  cli : StacksBenchCli
  resultsDir : String
  runId : ℤ
  rerunId : ℤ
  benchLock : String
  singleRunNoiseFloorPct : String
  runId_holds : IntType.i64.Holds runId
  rerunId_holds : IntType.i64.Holds rerunId

/-- How the steps of an import end. -/
structure ImportEnv where
  createDir : Bool
  showRun : Invocation
  showRerun : Invocation
  writeRunId : WriteEnd
  writeRerunId : WriteEnd
  benchList : Invocation
  benchShow : Invocation
  readFails : Bool
  writeNoiseFloor : WriteEnd
  /-- Whether the noise floor is removed when that is tried. -/
  removesNoiseFloor : Bool

structure ImportOutputs where
  baselineRunId : ℤ
  baselineRerunId : ℤ
  /-- The run and its rerun are the same. -/
  singleRunFallback : Bool

def showArgs (runId : ℤ) : List String := ["bench", "show", "--run-id", toString runId]

/-- An id as it is printed for debugging. -/
def debugRunId : Option ℤ → String
  | some id => s!"Some({id})"
  | none => "None"

/-- Check that the run that was shown is the one that was asked for. -/
def checkShown (asked : ℤ) (fails : Bool) (dir : BaselineDir) : Fallible Unit :=
  match if fails then none else dir benchRunJson with
  | none => bail "re-reading baseline-bench-run.json for sanity check"
  | some raw =>
    match fromSlice raw with
    | none => bail "parsing baseline-bench-run.json"
    | some _ =>
      let actual := envelopeRunId fromSlice raw
      bailIf (actual ≠ some asked)
        (s!"import-baseline: requested run_id {asked} but `bench show` returned "
          ++ debugRunId actual ++ "; check that the run id exists in the stacks-bench db")

/-- Write the noise floor of a single run. Otherwise remove one that is there, and do not ask
whether that worked. -/
def settleNoiseFloor (i : ImportInputs) (r : WriteEnd) (removes : Bool) : Act Unit := do
  let dir ← get
  if i.runId = i.rerunId then write noiseFloorPct (i.singleRunNoiseFloorPct ++ "\n") r
  else if (dir noiseFloorPct).isSome = true ∧ removes = true then
    set (Function.update dir noiseFloorPct none)
  else pure ()

def importBaseline (i : ImportInputs) (env : ImportEnv) : Act ImportOutputs := do
  createResultsDir i.resultsDir env.createDir
  invoke i.cli
    { args := showArgs i.runId
      stdout := Output.baseline benchRunJson
      stderr := some "baseline/bench-run.stderr.log"
      lock := i.benchLock } env.showRun
  invoke i.cli
    { args := showArgs i.rerunId
      stdout := Output.baseline rerunJson
      stderr := some "baseline/rerun.stderr.log"
      lock := i.benchLock } env.showRerun
  write runId (runIdText i.runId) env.writeRunId
  write rerunId (runIdText i.rerunId) env.writeRerunId
  invoke i.cli
    { args := listArgs
      stdout := Output.other "baseline/bench-list.json"
      stderr := none
      lock := i.benchLock } env.benchList
  invoke i.cli
    { args := hotspotArgs i.runId
      stdout := Output.other "baseline/profiler-hotspots.json"
      stderr := none
      lock := i.benchLock } env.benchShow
  reading (checkShown fromSlice i.runId env.readFails)
  settleNoiseFloor i env.writeNoiseFloor env.removesNoiseFloor
  return ⟨i.runId, i.rerunId, i.runId = i.rerunId⟩

end Envelopes

/-! ## What later phases read -/

/-- The ids and the noise floor that triage begins with. -/
def loadBaseline (dir : BaselineDir) : Fallible (ℤ × ℤ × String) := do
  let baselineRunId ← (readRunIdFile runId.path (dir runId)).context "reading baseline-run-id"
  let baselineRerunId ← (readRunIdFile rerunId.path (dir rerunId)).context
    "reading baseline-rerun-id"
  let precomputedNoiseFloorPct :=
    match dir noiseFloorPct with
    | some text => Text.trim text
    | none => ""
  return (baselineRunId, baselineRerunId, precomputedNoiseFloorPct)

/-- A phase that reads the baseline reports an error. -/
def Reported (dir : BaselineDir) : Prop := ∃ e, loadBaseline dir = Except.error e

/-- A file does not have an id that can be read. -/
def Unreadable (file : BaselineFile) (content : Option String) : Prop :=
  ∃ e, readRunIdFile file.path content = Except.error e

theorem reported_iff {dir : BaselineDir} :
    Reported dir ↔ Unreadable runId (dir runId) ∨ Unreadable rerunId (dir rerunId) := by
  unfold Reported Unreadable loadBaseline
  cases readRunIdFile runId.path (dir runId) with
  | error e => exact iff_of_true ⟨_, rfl⟩ (Or.inl ⟨e, rfl⟩)
  | ok id =>
    cases readRunIdFile rerunId.path (dir rerunId) with
    | error e => exact iff_of_true ⟨_, rfl⟩ (Or.inr ⟨e, rfl⟩)
    | ok id' =>
      refine iff_of_false ?_ ?_
      · rintro ⟨e, he⟩
        cases he
      · rintro (⟨e, he⟩ | ⟨e, he⟩)
        · cases he
        · cases he

/-! ## Files that belong together -/

/-- A run and its rerun, and the noise floor that stands in for a rerun when they are the
same. -/
structure Baseline where
  runId : ℤ
  rerunId : ℤ
  noiseFloorPct : Option String
  single : noiseFloorPct.isSome = true ↔ runId = rerunId

/-- The baseline of a run and its rerun. -/
def Baseline.of (runId rerunId : ℤ) (pct : String) : Baseline where
  runId := runId
  rerunId := rerunId
  noiseFloorPct := if runId = rerunId then some (pct ++ "\n") else none
  single := by split_ifs with h <;> simp [h]

section Together

variable (fromSlice : String → Option Json)

/-- A file says what is so of a baseline. -/
def Says (b : Baseline) (file : BaselineFile) (content : Option String) : Prop :=
  match file with
  | benchRunJson => content.bind (envelopeRunId fromSlice) = some b.runId
  | rerunJson => content.bind (envelopeRunId fromSlice) = some b.rerunId
  | runId => readRunIdFile runId.path content = Except.ok b.runId
  | rerunId => readRunIdFile rerunId.path content = Except.ok b.rerunId
  | noiseFloorPct => content = b.noiseFloorPct

/-- **All files describe one baseline.** -/
def Describes (dir : BaselineDir) (b : Baseline) : Prop :=
  ∀ file, Says fromSlice b file (dir file)

/-- The files describe one baseline, or no phase reads one from them. -/
def Settled (dir : BaselineDir) : Prop := Reported dir ∨ ∃ b, Describes fromSlice dir b

/-- **The files have changed together.** They describe the baseline that they described
before, or the new one if the call succeeded, or a later phase reports an error. -/
def Together {α : Type} (old : BaselineDir) (new : α → Baseline) (r : Fallible α)
    (dir : BaselineDir) : Prop :=
  (∃ b, Describes fromSlice old b ∧ Describes fromSlice dir b)
    ∨ (∃ out, r = Except.ok out ∧ Describes fromSlice dir (new out)) ∨ Reported dir

/-- What is written says of the old baseline what is so. -/
def Repeats (old : BaselineDir) (ws : List (BaselineFile × Option String)) : Prop :=
  ∃ b, Describes fromSlice old b
    ∧ ∀ w ∈ ws, ∀ text ∈ w.snd, Says fromSlice b w.fst (some text)

end Together

end BaselineFiles
