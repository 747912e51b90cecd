import Sbagent.Acceptance

/-!
# Comparing like with like

The baseline and the candidate of a target are benchmarked in different
phases, by commands that share how they lower an invocation to arguments. What
they store is a run id next to an invocation's id, and finalizing pairs the two
by that id. So a comparison is fair as long as the id means the same thing all
the time.

Nothing sees to that. Merging again can give an id other samples or another
warmup, archiving again can replace the binary that the baseline was measured
with, and both leave the stored run ids in place; finalizing accepts the old
comparison under the new definition. `KeepsAlike` is a condition on the
commands under which that does not happen: in every run whose commands all meet
it, whatever is accepted compares like with like.

The arguments of a benchmark also depend on the settings of the host, which a
session does not record. They are given with each command, and `Recording`
keeps, next to the state of the session, how each run was invoked.
-/

open Fallible

/-! ## The arguments of a benchmark -/

/-- The settings of the host that a benchmark is run with. -/
structure BenchEnv where
  sourceDir : String
  network : String
  shadowDirRoot : Option String
  deriving DecidableEq

/-- Hashes are stored with a prefix that the benchmark does not take. -/
def stripHexPrefix (s : String) : String :=
  if Text.startsWith s "0x" || Text.startsWith s "0X" then
    String.ofList (s.toList.drop 2)
  else s

/-- The arguments that select the samples. -/
def BenchSamples.args : BenchSamples → List String
  | txids ids => ids.flatMap fun tx => ["--txid", stripHexPrefix tx]
  | blocks ids => ids.flatMap fun b => ["--block", stripHexPrefix b]
  | blockRange startAt count =>
    ["--start-at", toString startAt, "--count", toString count]

/-- The arguments that select the profiler. -/
def profilerFlags : ProfilerMode → List String
  | ProfilerMode.rich => []

/-- The arguments that an invocation stands for. -/
def buildInvocationArgs (inv : BenchInvocation) : List String :=
  ["--repetitions", toString inv.repetitions, "--warmup", toString inv.warmup]
    ++ inv.samples.args ++ profilerFlags inv.profiler

/-- How a run is invoked. -/
structure BenchCommand where
  env : BenchEnv
  name : String
  inv : BenchInvocation

/-- The arguments of a run. -/
def BenchCommand.args (k : BenchCommand) : List String :=
  ["bench", "run", "--source", k.env.sourceDir, "--network", k.env.network,
      "--name", k.name]
    ++ (k.env.shadowDirRoot.map fun sd => ["--shadow-dir-root", sd]).getD []
    ++ buildInvocationArgs k.inv

/-- What of an invocation reaches the benchmark. -/
structure BenchInvocation.SameFlags (inv inv' : BenchInvocation) : Prop where
  samples : inv.samples = inv'.samples
  warmup : inv.warmup = inv'.warmup
  repetitions : inv.repetitions = inv'.repetitions
  profiler : inv.profiler = inv'.profiler

instance (inv inv' : BenchInvocation) : Decidable (inv.SameFlags inv') :=
  decidable_of_iff (inv.samples = inv'.samples ∧ inv.warmup = inv'.warmup
      ∧ inv.repetitions = inv'.repetitions ∧ inv.profiler = inv'.profiler)
    ⟨fun h => ⟨h.left, h.right.left, h.right.right.left, h.right.right.right⟩,
      fun h => ⟨h.samples, h.warmup, h.repetitions, h.profiler⟩⟩

theorem BenchInvocation.SameFlags.refl (inv : BenchInvocation) :
    inv.SameFlags inv := ⟨rfl, rfl, rfl, rfl⟩

/-- Invocations with the same flags are the same command. -/
theorem BenchInvocation.SameFlags.args {inv inv' : BenchInvocation}
    (h : inv.SameFlags inv') (env : BenchEnv) (name : String) :
    BenchCommand.args ⟨env, name, inv⟩ = BenchCommand.args ⟨env, name, inv'⟩ := by
  unfold BenchCommand.args buildInvocationArgs
  rw [h.samples, h.warmup, h.repetitions, h.profiler]

/-! ## The two sides of a comparison -/

namespace Side

def other : Side → Side
  | baseline => candidate
  | candidate => baseline

/-- The name of a run. -/
def runName (side : Side) (targetId invocationId : String) : String :=
  match side with
  | baseline => s!"baseline-{targetId}-{invocationId}"
  | candidate => s!"candidate-{targetId}-{invocationId}"

end Side

/-- How a command invokes the runs it makes. Those of other sessions are not
told. -/
def Event.invokes (env : BenchEnv) (e : Event) (inv : BenchInvocation) :
    Option BenchCommand :=
  e.measured.map fun m => ⟨env, m.fst.runName m.snd.id inv.id, inv⟩

/-- A command, with the settings of the host at that time. -/
structure Command where
  env : BenchEnv
  event : Event

/-- A session, and how each run was invoked. -/
structure Recording where
  session : Session
  command : ℤ → Option BenchCommand

namespace Recording

/-- Nothing has been run. -/
def start (id : String) (source : FileRead SourceJson) : Recording :=
  ⟨Session.start id source, fun _ => none⟩

/-- The record after a command: the new rows of the database are its runs. -/
def after (b : Recording) (c : Command) (s' : Session) : Recording where
  session := s'
  command := fun id =>
    if (b.session.runs id).isNone then
      (s'.runs id).bind fun run => c.event.invokes c.env run.invocation
    else b.command id

/-- One command. -/
def next (b : Recording) (c : Command) : Option Recording :=
  (step b.session c.event).map (b.after c)

theorem next_eq_some_iff {b b' : Recording} {c : Command} :
    b.next c = some b' ↔ c.event.enabled b.session = true
      ∧ b' = b.after c { b.session.after c.event with now := b.session.now + 1 } := by
  simp only [next, Option.map_eq_some_iff, step_eq_some_iff]
  constructor
  · rintro ⟨s', ⟨he, rfl⟩, rfl⟩
    exact ⟨he, rfl⟩
  · rintro ⟨he, rfl⟩
    exact ⟨_, ⟨he, rfl⟩, rfl⟩

/-- A run is in the record as it was invoked. -/
theorem after_command_of_some {b : Recording} {c : Command} {s' : Session} {id : ℤ}
    {run : BenchRun} (h : b.session.runs id = some run) :
    (b.after c s').command id = b.command id := by
  show (if (b.session.runs id).isNone then _ else _) = _
  rw [h]
  rfl

theorem after_command_of_none {b : Recording} {c : Command} {s' : Session} {id : ℤ}
    {run : BenchRun} (h : b.session.runs id = none) (h' : s'.runs id = some run) :
    (b.after c s').command id = c.event.invokes c.env run.invocation := by
  show (if (b.session.runs id).isNone then _ else _) = _
  rw [h, h']
  rfl

end Recording

/-! ## Like for like -/

/-- **A fair comparison** of two runs on an invocation of a target. Both were
made with the samples, warmup, repetitions and profiler of the invocation, the
one of the baseline with the archived binary, and the two argument lists
differ in nothing but the name of the run. -/
structure Recording.LikeForLike (b : Recording) (t : MergedTarget)
    (inv : BenchInvocation) (baseline candidate : ℤ) : Prop where
  baselineRun : ∃ run, b.session.runs baseline = some run
    ∧ run.invocation.SameFlags inv
    ∧ b.session.baselineBinary = some run.builtFrom
  candidateRun : ∃ run, b.session.runs candidate = some run
    ∧ run.invocation.SameFlags inv
  args : ∃ env,
    (b.command baseline).map BenchCommand.args
        = some (BenchCommand.args ⟨env, Side.baseline.runName t.id inv.id, inv⟩)
      ∧ (b.command candidate).map BenchCommand.args
        = some (BenchCommand.args ⟨env, Side.candidate.runName t.id inv.id, inv⟩)

/-- An accepted row has a run of each side for each invocation of the target's
replay, and the two compare like with like. -/
def Recording.FairRow (b : Recording) (t : MergedTarget) (e : Experiment) : Prop :=
  ∃ runs baselineRuns, e.runIds = some runs ∧ e.baselineRunIds = some baselineRuns
    ∧ ∀ (i : ℕ) (inv : BenchInvocation), t.invocations[i]? = some inv →
      ∃ baseline candidate, baselineRuns[i]? = some baseline
        ∧ runs[i]? = some candidate ∧ b.LikeForLike t inv baseline candidate

/-- **Only fair comparisons are accepted**: where finalizing accepts a normal
pull request, the row compares like with like. -/
def Recording.AcceptsOnlyLikeForLike (b : Recording) : Prop :=
  ∀ summary, finalize b.session.targets b.session.files = Except.ok summary →
    List.Forall₂ (fun t e => t.deliveryMode = DeliveryMode.normalPr →
        e.status = ExperimentStatus.accepted → b.FairRow t e)
      b.session.mergedTargets summary.experiments

/-- The stored runs of an invocation of a target were made with its flags. -/
def Session.StoredWith (s : Session) (id : String) (inv : BenchInvocation) : Prop :=
  ∀ side, ∀ r ∈ s.stored side id, r.invocationId = inv.id →
    ∀ run ∈ s.runs r.runId, run.invocation.SameFlags inv

/-- A target's id and an invocation's id stand for one set of flags. -/
def Session.Unambiguous (s : Session) : Prop :=
  ∀ t ∈ s.mergedTargets, ∀ t' ∈ s.mergedTargets, t.id = t'.id →
    ∀ inv ∈ t.invocations, ∀ inv' ∈ t'.invocations, inv.id = inv'.id →
      inv.SameFlags inv'

/-- Merging leaves the ids unambiguous, and gives an invocation no other flags
than its stored runs were made with. -/
def Session.FlagsKept (s : Session) (doc : FileRead OptimizationTargets) : Prop :=
  (s.after (Event.merge doc)).Unambiguous
    ∧ ∀ t ∈ (s.after (Event.merge doc)).mergedTargets, ∀ inv ∈ t.invocations,
      s.StoredWith t.id inv

/-- One side of a target is measured with the settings of the host that the
other one was measured with. -/
def Recording.SettingsKept (b : Recording) (c : Command) : Prop :=
  ∀ m ∈ c.event.measured, ∀ r ∈ b.session.stored m.fst.other m.snd.id,
    ∀ k ∈ b.command r.runId, k.env = c.env

/-- The condition on a command: merging keeps the flags of what is stored, a
measurement keeps the settings, and the archived binary is only replaced or
removed while no run of another one is stored for the baseline. -/
def KeepsAlike (b : Recording) (c : Command) : Prop :=
  match c.event with
  | Event.merge doc => b.session.FlagsKept doc
  | Event.archiveBaseline base outcome =>
    outcome = Archival.failed
      ∨ ∀ id, ∀ r ∈ b.session.stored Side.baseline id,
        ∀ run ∈ b.session.runs r.runId, run.builtFrom = base
  | Event.baselineClean => ∀ id, b.session.stored Side.baseline id = []
  | _ => b.SettingsKept c

/-- What holds in a run whose commands meet the condition. -/
structure AlikeInv (b : Recording) : Prop where
  /-- A stored run is in the database and was invoked for its side. -/
  recorded : ∀ side id, ∀ r ∈ b.session.stored side id, ∃ run env,
    b.session.runs r.runId = some run ∧ run.invocation.id = r.invocationId
      ∧ b.command r.runId
        = some ⟨env, side.runName id r.invocationId, run.invocation⟩
  /-- A stored run of the baseline is of the archived binary. -/
  archived : ∀ id, ∀ r ∈ b.session.stored Side.baseline id,
    ∀ run ∈ b.session.runs r.runId, b.session.baselineBinary = some run.builtFrom
  /-- Both sides were measured with the same settings. -/
  settings : ∀ id, ∀ r ∈ b.session.stored Side.baseline id,
    ∀ r' ∈ b.session.stored Side.candidate id, ∀ k ∈ b.command r.runId,
      ∀ k' ∈ b.command r'.runId, k.env = k'.env
  /-- The ids mean one thing. -/
  unambiguous : b.session.Unambiguous
  /-- The stored runs were made with the flags of the replay. -/
  flags : ∀ t ∈ b.session.mergedTargets, ∀ inv ∈ t.invocations,
    b.session.StoredWith t.id inv

/-! ## The condition keeps comparisons fair -/

section Alike

variable {b : Recording} {c : Command}

/-- The merged targets are those of the targets file. -/
theorem mergedTargets_congr {s s' : Session} (h : s'.targets = s.targets) :
    s'.mergedTargets = s.mergedTargets := by
  unfold Session.mergedTargets
  rw [h]

/-- A stored run keeps its row and how it was invoked. -/
theorem AlikeInv.kept {side : Side} {id : String} {r : InvocationRunId}
    (h : AlikeInv b) (s' : Session) (he : c.event.enabled b.session = true)
    (hr : r ∈ b.session.stored side id) : ∃ run env,
    b.session.runs r.runId = some run
      ∧ (b.session.after c.event).runs r.runId = some run
      ∧ run.invocation.id = r.invocationId
      ∧ b.command r.runId
        = some ⟨env, side.runName id r.invocationId, run.invocation⟩
      ∧ (b.after c s').command r.runId = b.command r.runId := by
  obtain ⟨run, env, hrun, hid, hk⟩ := h.recorded side id r hr
  exact ⟨run, env, hrun, after_runs_of_some he hrun, hid, hk,
    Recording.after_command_of_some hrun⟩

/-- A run that a command stores is recorded as the command invoked it. -/
theorem command_of_stored {side : Side} {t : MergedTarget} {inv : BenchInvocation}
    {o : Checkout} {now : ℕ} {id : ℤ} {s' : Session}
    (hm : c.event.measured = some (side, t)) (hnone : b.session.runs id = none)
    (hrun : s'.runs id = some ⟨o, inv, now⟩) :
    (b.after c s').command id = some ⟨c.env, side.runName t.id inv.id, inv⟩ := by
  rw [Recording.after_command_of_none hnone hrun]
  unfold Event.invokes
  rw [hm]
  rfl

/-- A command that measures a side uses the settings of the other one. -/
theorem KeepsAlike.settings {side : Side} {t : MergedTarget} (hok : KeepsAlike b c)
    (hm : c.event.measured = some (side, t)) {r : InvocationRunId}
    (hr : r ∈ b.session.stored side.other t.id) {k : BenchCommand}
    (hk : k ∈ b.command r.runId) : k.env = c.env := by
  obtain ⟨env, e⟩ := c
  cases e with
  | calibrate t' m => exact hok _ hm r hr k hk
  | bench t' m => exact hok _ hm r hr k hk
  | _ => cases hm

/-- The stored runs of the baseline stay those of the archived binary. -/
theorem AlikeInv.archived_next (h : AlikeInv b) (hok : KeepsAlike b c)
    (he : c.event.enabled b.session = true) {id : String} {r : InvocationRunId}
    (hr : r ∈ (b.session.after c.event).stored Side.baseline id) {run : BenchRun}
    (hrun : (b.session.after c.event).runs r.runId = some run) :
    (b.session.after c.event).baselineBinary = some run.builtFrom := by
  obtain ⟨env, e⟩ := c
  obtain hold | ⟨t, o, inv, -, hmade⟩ := mem_stored_after he hr
  · obtain ⟨run', -, hrun', hafter, -⟩ := h.kept b.session he hold
    obtain rfl : run' = run := Option.some.inj (hafter.symm.trans hrun)
    have harch := h.archived id r hold run' hrun'
    obtain hsame | ⟨base, outcome, rfl, hne, hbase⟩ | rfl :=
      after_baselineBinary_cases b.session e
    · exact hsame.trans harch
    · rw [hbase, hok.resolve_left hne id r hold run' hrun']
    · rw [hok id] at hold
      cases hold
  · obtain rfl : BenchRun.mk o inv b.session.now = run :=
      Option.some.inj (hmade.recorded.symm.trans hrun)
    obtain hsame | ⟨base, outcome, rfl, -, -⟩ | rfl :=
      after_baselineBinary_cases b.session e
    · exact hsame.trans (hmade.archived rfl)
    · cases hmade.measured
    · cases hmade.measured

/-- Both sides stay measured with the same settings. -/
theorem AlikeInv.settings_next {s' : Session} (h : AlikeInv b) (hok : KeepsAlike b c)
    (he : c.event.enabled b.session = true)
    (hruns : s'.runs = (b.session.after c.event).runs) {id : String}
    {r r' : InvocationRunId}
    (hr : r ∈ (b.session.after c.event).stored Side.baseline id)
    (hr' : r' ∈ (b.session.after c.event).stored Side.candidate id)
    {k k' : BenchCommand} (hk : k ∈ (b.after c s').command r.runId)
    (hk' : k' ∈ (b.after c s').command r'.runId) : k.env = k'.env := by
  obtain hold | ⟨t, o, inv, rfl, hmade⟩ := mem_stored_after he hr
  · obtain ⟨_, _, -, -, -, -, hsame⟩ := h.kept s' he hold
    rw [hsame] at hk
    obtain hold' | ⟨t, o, inv, rfl, hmade⟩ := mem_stored_after he hr'
    · obtain ⟨_, _, -, -, -, -, hsame'⟩ := h.kept s' he hold'
      rw [hsame'] at hk'
      exact h.settings id r hold r' hold' k hk k' hk'
    · rw [command_of_stored hmade.measured hmade.new (hruns ▸ hmade.recorded)] at hk'
      obtain rfl := Option.some.inj hk'
      exact hok.settings hmade.measured hold hk
  · rw [command_of_stored hmade.measured hmade.new (hruns ▸ hmade.recorded)] at hk
    obtain rfl := Option.some.inj hk
    obtain hold' | ⟨t', o', inv', -, hmade'⟩ := mem_stored_after he hr'
    · obtain ⟨_, _, -, -, -, -, hsame'⟩ := h.kept s' he hold'
      rw [hsame'] at hk'
      exact (hok.settings hmade.measured hold' hk').symm
    · cases hmade.measured.symm.trans hmade'.measured

/-- The stored runs stay of the flags of the replay. -/
theorem AlikeInv.flags_next (h : AlikeInv b) (hok : KeepsAlike b c)
    (he : c.event.enabled b.session = true) {t : MergedTarget}
    (ht : t ∈ (b.session.after c.event).mergedTargets) {inv : BenchInvocation}
    (hinv : inv ∈ t.invocations) : (b.session.after c.event).StoredWith t.id inv := by
  intro side r hr hid run hrun
  obtain ⟨env, e⟩ := c
  obtain hold | ⟨t', o, inv', htid, hmade⟩ := mem_stored_after he hr
  · obtain ⟨run', -, hrun', hafter, -⟩ := h.kept b.session he hold
    obtain rfl : run' = run := Option.some.inj (hafter.symm.trans hrun)
    obtain hsame | ⟨doc, rfl⟩ := after_targets_cases b.session e
    · rw [mergedTargets_congr hsame] at ht
      exact h.flags t ht inv hinv side r hold hid run' hrun'
    · exact hok.right t ht inv hinv side r hold hid run' hrun'
  · obtain rfl : BenchRun.mk o inv' b.session.now = run :=
      Option.some.inj (hmade.recorded.symm.trans hrun)
    obtain hsame | ⟨doc, rfl⟩ := after_targets_cases b.session e
    · rw [mergedTargets_congr hsame] at ht
      exact h.unambiguous t' hmade.merged t ht htid inv' hmade.invocation inv hinv
        (hmade.named.symm.trans hid)
    · cases hmade.measured

/-- **One command keeps the comparisons fair** if it meets the condition. -/
theorem alikeInv_next {b' : Recording} (h : AlikeInv b) (hok : KeepsAlike b c)
    (hnext : b.next c = some b') : AlikeInv b' := by
  obtain ⟨he, rfl⟩ := Recording.next_eq_some_iff.mp hnext
  refine ⟨fun side id r hr => ?_, fun id r hr run hrun => h.archived_next hok he hr hrun,
    fun id r hr r' hr' k hk k' hk' => h.settings_next hok he rfl hr hr' hk hk', ?_,
    fun t ht inv hinv => h.flags_next hok he ht hinv⟩
  · obtain hold | ⟨t, o, inv, rfl, hmade⟩ := mem_stored_after he hr
    · obtain ⟨run, env, -, hrun, hid, hk, hsame⟩ := h.kept _ he hold
      exact ⟨run, env, hrun, hid, hsame.trans hk⟩
    · refine ⟨_, c.env, hmade.recorded, hmade.named.symm, ?_⟩
      rw [hmade.named]
      exact command_of_stored hmade.measured hmade.new hmade.recorded
  · show (b.session.after c.event).Unambiguous
    obtain ⟨env, e⟩ := c
    obtain hsame | ⟨doc, rfl⟩ := after_targets_cases b.session e
    · unfold Session.Unambiguous
      rw [mergedTargets_congr hsame]
      exact h.unambiguous
    · exact hok.left

/-- Nothing is stored in a new session. -/
theorem alikeInv_start (id : String) (source : FileRead SourceJson) :
    AlikeInv (Recording.start id source) where
  recorded := fun side _ _ h => by cases side <;> cases h
  archived := fun _ _ h => by cases h
  settings := fun _ _ h => by cases h
  unambiguous := fun _ h => by cases h
  flags := fun _ h => by cases h

/-- A stored run of each side of an invocation of a target is a fair
comparison. -/
theorem AlikeInv.likeForLike {t : MergedTarget} {inv : BenchInvocation}
    {baseline candidate : ℤ} (h : AlikeInv b) (ht : t ∈ b.session.mergedTargets)
    (hinv : inv ∈ t.invocations)
    (hbase : (⟨inv.id, baseline⟩ : InvocationRunId)
      ∈ b.session.stored Side.baseline t.id)
    (hcand : (⟨inv.id, candidate⟩ : InvocationRunId)
      ∈ b.session.stored Side.candidate t.id) :
    b.LikeForLike t inv baseline candidate := by
  obtain ⟨run, env, hrun, -, hk⟩ := h.recorded _ _ _ hbase
  obtain ⟨run', env', hrun', -, hk'⟩ := h.recorded _ _ _ hcand
  have hflags := h.flags t ht inv hinv _ _ hbase rfl run hrun
  have hflags' := h.flags t ht inv hinv _ _ hcand rfl run' hrun'
  obtain rfl : env = env' := h.settings _ _ hbase _ hcand _ hk _ hk'
  refine ⟨⟨run, hrun, hflags, h.archived _ _ hbase run hrun⟩, ⟨run', hrun', hflags'⟩,
    env, ?_, ?_⟩
  · exact (congrArg (Option.map BenchCommand.args) hk).trans
      (congrArg some (hflags.args env _))
  · exact (congrArg (Option.map BenchCommand.args) hk').trans
      (congrArg some (hflags'.args env _))

/-- What is accepted under the invariant compares like with like. -/
theorem acceptsOnlyLikeForLike_of_alikeInv (h : AlikeInv b) :
    b.AcceptsOnlyLikeForLike := by
  intro summary hs
  obtain ⟨targets, hread, hrows⟩ := finalize_rows hs
  have hmerged : b.session.mergedTargets = targets.targets := by
    unfold Session.mergedTargets
    rw [hread]
  rw [hmerged]
  have hall := (List.forall₂_and_left _ _).mpr
    ⟨fun t (ht : t ∈ targets.targets) => ht, hrows⟩
  refine hall.imp fun t e hte hm hacc => ?_
  obtain ⟨ht, hsound⟩ := hte
  obtain ⟨vr, candidate, baseline, ra, hev⟩ := (hsound.accepted hm).mp hacc
  obtain ⟨runs, baselineRuns, hr, hb, hc, hbase⟩ :=
    hsound.aligned hm hacc vr candidate baseline ra hev
  have hinvs : t.invocations = vr.invocations := by
    unfold MergedTarget.invocations
    rw [hev.replay]
    rfl
  refine ⟨runs, baselineRuns, hr, hb, fun i inv hi => ?_⟩
  have hinv : inv ∈ t.invocations := List.mem_of_getElem? hi
  rw [hinvs] at hi
  obtain ⟨c, hci, hcm⟩ := getElem?_of_forall₂ hc hi
  obtain ⟨o, hoi, hom⟩ := getElem?_of_forall₂ hbase hi
  exact ⟨o, c, hoi, hci, h.likeForLike (hmerged ▸ ht) hinv
    (Session.mem_stored_iff.mpr ⟨baseline, hev.baselineFile, hom⟩)
    (Session.mem_stored_iff.mpr ⟨candidate, hev.candidateFile, hcm⟩)⟩

end Alike

/-! A session with one target whose replay is defined anew. -/

instance (s : Session) (id : String) (inv : BenchInvocation) :
    Decidable (s.StoredWith id inv) :=
  decidable_of_iff
    ((∀ r ∈ s.stored Side.baseline id, r.invocationId = inv.id →
        ∀ run ∈ s.runs r.runId, run.invocation.SameFlags inv)
      ∧ ∀ r ∈ s.stored Side.candidate id, r.invocationId = inv.id →
        ∀ run ∈ s.runs r.runId, run.invocation.SameFlags inv)
    ⟨fun h side => by cases side; exacts [h.left, h.right],
      fun h => ⟨h Side.baseline, h Side.candidate⟩⟩

instance (s : Session) : Decidable s.Unambiguous :=
  inferInstanceAs (Decidable (∀ t ∈ s.mergedTargets, ∀ t' ∈ s.mergedTargets,
    t.id = t'.id → ∀ inv ∈ t.invocations, ∀ inv' ∈ t'.invocations, _ → _))

instance (s : Session) (doc : FileRead OptimizationTargets) :
    Decidable (s.FlagsKept doc) :=
  inferInstanceAs (Decidable (_ ∧ ∀ t ∈ (s.after (Event.merge doc)).mergedTargets,
    ∀ inv ∈ t.invocations, s.StoredWith t.id inv))

instance (b : Recording) (c : Command) : Decidable (b.SettingsKept c) :=
  inferInstanceAs (Decidable (∀ m ∈ c.event.measured,
    ∀ r ∈ b.session.stored m.fst.other m.snd.id, ∀ k ∈ b.command r.runId, k.env = c.env))

/-- A check for the condition that never lets the archived binary change. -/
def keepsAlikeCheck (b : Recording) (c : Command) : Bool :=
  match c.event with
  | Event.merge doc => decide (b.session.FlagsKept doc)
  | Event.archiveBaseline _ _ => false
  | Event.baselineClean => false
  | _ => decide (b.SettingsKept c)

theorem keepsAlike_of_keepsAlikeCheck (b : Recording) (c : Command)
    (h : keepsAlikeCheck b c = true) : KeepsAlike b c := by
  obtain ⟨env, e⟩ := c
  cases e with
  | archiveBaseline base outcome => cases h
  | baselineClean => cases h
  | merge doc =>
    show b.session.FlagsKept doc
    exact of_decide_eq_true h
  | _ =>
    show b.SettingsKept _
    exact of_decide_eq_true h

/-- The settings of a host. -/
def hostEnv : BenchEnv := ⟨"/data/chainstate", "mainnet", some "/data/shadows"⟩

/-- A session that is optimized once and measured. -/
def measuredOnce : List Command :=
  (prepareEvents "cache-reads" ++ attemptEvents "20260614" "cache-reads"
    (goodAttempt "20260614" "cache-reads" (shaOf '0') (shaOf 'a'))).map (Command.mk hostEnv)

/-- The target of `benchTarget`, with one warmup more on its invocations. -/
def rewarmedTarget (id : String) : MergedTarget :=
  { benchTarget id with
    verificationReplay := (benchTarget id).verificationReplay.map fun vr =>
      { vr with invocations := vr.invocations.map fun inv =>
          { inv with warmup := inv.warmup + 1 } } }

/-- **Guarded runs compare like with like.** From a new session, in whatever
order the commands come, under whatever settings, and whatever the environment
does: as long as merging leaves the meaning of the invocation ids that have
stored runs alone, the archived binary only changes while no run of another one
is stored for the baseline, and both sides are measured with the same settings,
every accepted row compares like with like. -/
theorem acceptsOnlyLikeForLike_of_run {id : String} {source : FileRead SourceJson}
    {cs : List Command} {b : Recording}
    (hok : Runs.Throughout Recording.next KeepsAlike (Recording.start id source) cs)
    (hrun : Runs.run Recording.next (Recording.start id source) cs = some b) :
    b.AcceptsOnlyLikeForLike :=
  acceptsOnlyLikeForLike_of_alikeInv
    (Runs.run_invariant (fun _ _ _ => alikeInv_next) (alikeInv_start id source)
      hok hrun)

/-- The theorem at a session that is optimized once and measured: its target
is accepted. -/
theorem acceptsOnlyLikeForLike_of_run_once :
    ∃ b, Runs.run Recording.next (Recording.start "20260614" FileRead.notFound)
        measuredOnce = some b
      ∧ b.session.outcome = some [("cache-reads", DeliveryMode.normalPr,
        ExperimentStatus.accepted)]
      ∧ b.AcceptsOnlyLikeForLike := by
  have hout : (Runs.run Recording.next (Recording.start "20260614" FileRead.notFound)
        measuredOnce).map (fun b => b.session.outcome)
      = some (some [("cache-reads", DeliveryMode.normalPr,
        ExperimentStatus.accepted)]) := by decide +kernel
  obtain ⟨b, hb, hacc⟩ := Option.map_eq_some_iff.mp hout
  refine ⟨b, hb, hacc, acceptsOnlyLikeForLike_of_run ?_ hb⟩
  -- nothing has been measured when the baseline is archived
  refine ⟨Or.inr (fun id r h => by cases h), fun b₁ hb₁ => ?_⟩
  obtain ⟨-, rfl⟩ := Recording.next_eq_some_iff.mp hb₁
  refine Runs.throughout_of_check keepsAlike_of_keepsAlikeCheck ?_
  decide +kernel

/-- What of a recording shows that it does not compare like with like. -/
structure Shown where
  /-- The statuses that finalizing gives, and the run ids of the rows. -/
  rows : Option (List (ExperimentStatus × Option (List ℤ)))
  /-- The modes of the targets, and the warmups of their replays. -/
  targets : List (DeliveryMode × List ℕ)
  /-- The warmup that the first run of the candidate was made with. -/
  made : Option ℕ
  deriving DecidableEq

def Recording.shown (b : Recording) : Shown where
  rows := (finalize b.session.targets b.session.files).toOption.map fun summary =>
    summary.experiments.map fun e => (e.status, e.runIds)
  targets := b.session.mergedTargets.map fun t =>
    (t.deliveryMode, t.invocations.map fun inv => inv.warmup)
  made := (b.session.runs 11).map fun run => run.invocation.warmup

/-- Merging again with another warmup is enough to break it: the target is
still accepted, on runs that were made with the old one. -/
theorem not_acceptsOnlyLikeForLike_of_rewarmed :
    ∃ b, Runs.run Recording.next (Recording.start "20260614" FileRead.notFound)
        (measuredOnce ++ [⟨hostEnv, Event.merge (FileRead.parsed
          (documentOf ["family"] [rewarmedTarget "cache-reads"] []))⟩]) = some b
      ∧ ¬ b.AcceptsOnlyLikeForLike := by
  have hout : (Runs.run Recording.next (Recording.start "20260614" FileRead.notFound)
        (measuredOnce ++ [⟨hostEnv, Event.merge (FileRead.parsed
          (documentOf ["family"] [rewarmedTarget "cache-reads"] []))⟩])).map
        Recording.shown
      = some ⟨some [(ExperimentStatus.accepted, some [11, 12])],
          [(DeliveryMode.normalPr, [2, 2])], some 1⟩ := by decide +kernel
  obtain ⟨b, hb, hshown⟩ := Option.map_eq_some_iff.mp hout
  obtain ⟨hrows, htargets, hmade⟩ := Shown.mk.inj hshown
  refine ⟨b, hb, fun h => ?_⟩
  obtain ⟨summary, hs, hexp⟩ := Option.map_eq_some_iff.mp hrows
  obtain ⟨e, he, hrow⟩ := List.map_eq_singleton_iff.mp hexp
  obtain ⟨t, ht, htarget⟩ := List.map_eq_singleton_iff.mp htargets
  obtain ⟨hacc, hids⟩ := Prod.mk.inj hrow
  obtain ⟨hm, hwarm⟩ := Prod.mk.inj htarget
  have hfair := h summary (ok_of_toOption hs)
  rw [ht, he, List.forall₂_cons] at hfair
  obtain ⟨runs, baselineRuns, hruns, -, hall⟩ := hfair.left hm hacc
  obtain rfl : runs = [11, 12] := Option.some.inj (hruns.symm.trans hids)
  obtain ⟨inv, rest, hinvs, hw, -⟩ := List.map_eq_cons_iff.mp hwarm
  obtain ⟨_, candidate, -, hc, hlike⟩ := hall 0 inv (by rw [hinvs]; rfl)
  obtain rfl : 11 = candidate := Option.some.inj hc
  obtain ⟨run, hrun, hflags⟩ := hlike.candidateRun
  rw [hrun] at hmade
  have hold : run.invocation.warmup = 1 := Option.some.inj hmade
  rw [hflags.warmup, hw] at hold
  cases hold
