import Sbagent.Fallible
import Sbagent.Runs
import Sbagent.Tally

/-!
# How long the phases of a session took

A process that runs a session records how long each phase took, in a map that it keeps and
writes to `timings.json` after each phase. The map is empty when the process starts. What
processes before it have recorded is in the file, until the first time this one records:
then its own map takes the place of the file.

So the file has the sums over all processes as long as one of them does all the recording.
The first record of another one drops what was recorded before, and the sums stay right only
if that comes to nothing (`timings_kept`).
-/

open Fallible

namespace PhaseTiming

/-! ## The file -/

/-- What is written to `timings.json`: seconds per phase. The version of the schema has one
value. -/
structure Timings where
  durations : Std.ExtTreeMap String ℚ≥0

/-- Where rewriting the file stops. Each of these is before the old file is replaced. -/
inductive WriteFault where
  | parent
  | createParent
  | openTemp
  | writeTemp
  | fsyncTemp
  | persist
  deriving DecidableEq

def WriteFault.message (path : String) : WriteFault → String
  | parent => s!"timings.json path has no parent: {path}"
  | createParent => s!"creating timings.json parent {path}"
  | openTemp => s!"opening temp for {path}"
  | writeTemp => s!"writing temp for {path}"
  | fsyncTemp => s!"fsync temp for {path}"
  | persist => s!"persisting timings.json {path}"

namespace Timings

/-- Write a new file and put it in the place of the old one, unless something goes wrong.
What is there afterwards is either the old file or the new one. -/
def writeAtomic (t : Timings) (path : String) (fault : Option WriteFault)
    (file : FileRead Timings) : Fallible Unit × FileRead Timings :=
  match fault with
  | some f => (bail (f.message path), file)
  | none => (Except.ok (), FileRead.parsed t)

def readOptional (path : String) (file : FileRead Timings) : Fallible (Option Timings) :=
  file.readOptional (fun _ => Except.ok ()) s!"reading timings.json at {path}"
    s!"parsing timings.json at {path}" ""

end Timings

/-! ## The recorder -/

structure PhaseTimingsRecorder where
  path : String
  state : Timings

namespace PhaseTimingsRecorder

def new (timingsJson : String) : PhaseTimingsRecorder := ⟨timingsJson, ⟨∅⟩⟩

/-- Add a duration to that of a phase, and rewrite the file. -/
def record (rec : PhaseTimingsRecorder) (phase : String) (duration : ℚ≥0)
    (fault : Option WriteFault) (file : FileRead Timings) :
    Fallible Unit × PhaseTimingsRecorder × FileRead Timings :=
  let state : Timings := ⟨Tally.add rec.state.durations phase duration⟩
  let written := state.writeAtomic rec.path fault file
  (written.fst, { rec with state }, written.snd)

end PhaseTimingsRecorder

/-! ## The processes of a session -/

/-- A session, as far as its timings go. -/
structure Session where
  file : FileRead Timings
  /-- The process that runs: its recorder, and what it has recorded. -/
  running : Option (PhaseTimingsRecorder × List (String × ℚ≥0))
  /-- What the processes before it have recorded. -/
  earlier : List (String × ℚ≥0)

inductive Event where
  /-- A process starts. -/
  | start
  /-- A phase completes, and its duration is recorded. -/
  | record (phase : String) (duration : ℚ≥0) (fault : Option WriteFault)
  /-- The process finishes or crashes, between two records or while it writes the new
  file. -/
  | stop

namespace Session

/-- A session before its first process. -/
def fresh : Session := ⟨FileRead.notFound, none, []⟩

/-- What the process that runs has recorded. -/
def own (s : Session) : List (String × ℚ≥0) := (s.running.map Prod.snd).getD []

/-- What all processes have recorded so far. -/
def recorded (s : Session) : List (String × ℚ≥0) := s.earlier ++ s.own

/-- One process runs at a time. A record that fails ends it. -/
def step (timingsJson : String) (s : Session) : Event → Option Session
  | Event.start =>
    match s.running with
    | none => some { s with running := some (PhaseTimingsRecorder.new timingsJson, []) }
    | some _ => none
  | Event.record phase duration fault =>
    match s.running with
    | none => none
    | some (rec, own) =>
      match rec.record phase duration fault s.file with
      | (Except.ok (), rec, file) =>
        some { s with file, running := some (rec, own ++ [(phase, duration)]) }
      | (Except.error _, _, file) =>
        some { file, running := none, earlier := s.earlier ++ own }
  | Event.stop =>
    match s.running with
    | none => none
    | some (_, own) => some { s with running := none, earlier := s.earlier ++ own }

/-- The durations that a record of the session has when it is archived. -/
def phaseDurationsSecs (timingsJson : String) (s : Session) :
    Fallible (Std.ExtTreeMap String ℚ≥0) := do
  let timings ← (Timings.readOptional timingsJson s.file).context
    s!"loading timings.json at {timingsJson}"
  return (timings.map Timings.durations).getD ∅

/-- **The session has, for every phase, the sum of the durations that all its processes
have recorded.** -/
def Kept (timingsJson : String) (s : Session) : Prop :=
  ∃ durations, s.phaseDurationsSecs timingsJson = Except.ok durations
    ∧ Tally.Of durations s.recorded

/-- A record does not come after time that earlier processes have recorded. All that they
have is zero, for phases that the process records as well. -/
def NothingBefore (s : Session) : Event → Prop
  | Event.record phase _ none => ∀ r ∈ s.earlier, r.1 ∈ phase :: s.own.map Prod.fst ∧ r.2 = 0
  | _ => True

instance (s : Session) : (e : Event) → Decidable (NothingBefore s e)
  | Event.start => isTrue trivial
  | Event.record _ _ (some _) => isTrue trivial
  | Event.record phase _ none =>
    inferInstanceAs (Decidable (∀ r ∈ s.earlier, r.1 ∈ phase :: s.own.map Prod.fst ∧ r.2 = 0))
  | Event.stop => isTrue trivial

/-! ## What a step does -/

section Steps

variable {timingsJson : String} {s s' : Session} {e : Event}

/-- The state after a process has started. -/
def started (s : Session) (timingsJson : String) : Session :=
  { s with running := some (PhaseTimingsRecorder.new timingsJson, []) }

/-- The state after a record. -/
def afterRecord (s : Session) (rec : PhaseTimingsRecorder) (phase : String) (duration : ℚ≥0) :
    Session :=
  let state : Timings := ⟨Tally.add rec.state.durations phase duration⟩
  { s with
    file := FileRead.parsed state
    running := some ({ rec with state }, s.own ++ [(phase, duration)]) }

/-- The state after a process has ended. -/
def ended (s : Session) : Session :=
  { s with running := none, earlier := s.recorded }

/-- **A process starts with an empty map, a record puts its map in the place of the file,
and whatever ends it leaves the file alone.** -/
theorem step_cases (h : s.step timingsJson e = some s') :
    (e = Event.start ∧ s.running = none ∧ s' = s.started timingsJson)
      ∨ (∃ phase duration rec own, e = Event.record phase duration none
        ∧ s.running = some (rec, own) ∧ s' = s.afterRecord rec phase duration)
      ∨ ((e = Event.stop ∨ ∃ phase duration f, e = Event.record phase duration (some f))
        ∧ s' = s.ended) := by
  unfold step at h
  cases e with
  | start =>
    cases hrunning : s.running with
    | none =>
      rw [hrunning] at h
      exact Or.inl ⟨rfl, rfl, (Option.some.inj h).symm⟩
    | some r =>
      rw [hrunning] at h
      cases h
  | record phase duration fault =>
    cases hrunning : s.running with
    | none =>
      rw [hrunning] at h
      cases h
    | some r =>
      -- the map of the process, which the file may no longer hold
      have hown : s.own = r.2 := by simp [own, hrunning]
      rw [hrunning] at h
      cases fault with
      | none =>
        refine Or.inr (Or.inl ⟨phase, duration, r.1, r.2, rfl, rfl, ?_⟩)
        unfold afterRecord
        rw [hown]
        exact (Option.some.inj h).symm
      | some f =>
        refine Or.inr (Or.inr ⟨Or.inr ⟨phase, duration, f, rfl⟩, ?_⟩)
        unfold ended recorded
        rw [hown]
        exact (Option.some.inj h).symm
  | stop =>
    cases hrunning : s.running with
    | none =>
      rw [hrunning] at h
      cases h
    | some r =>
      have hown : s.own = r.2 := by simp [own, hrunning]
      rw [hrunning] at h
      refine Or.inr (Or.inr ⟨Or.inl rfl, ?_⟩)
      unfold ended recorded
      rw [hown]
      exact (Option.some.inj h).symm

/-- The map of the process that runs is the tally of what it has recorded. -/
def Counts (s : Session) : Prop :=
  ∀ rec own, s.running = some (rec, own) → Tally.Of rec.state.durations own

theorem counts_step (hs : s.Counts) (h : s.step timingsJson e = some s') : s'.Counts := by
  intro rec own hrunning
  obtain ⟨-, -, rfl⟩ | ⟨phase, duration, rec', own', -, hrec, rfl⟩ | ⟨-, rfl⟩ := step_cases h
  · obtain ⟨rfl, rfl⟩ := Prod.mk.inj (Option.some.inj hrunning)
    exact Tally.of_nil
  · have hown : s.own = own' := by simp [Session.own, hrec]
    obtain ⟨rfl, rfl⟩ := Prod.mk.inj (Option.some.inj hrunning)
    rw [hown]
    exact (hs rec' own' hrec).add phase duration
  · cases hrunning

theorem kept_iff_of_file {t : Timings} (h : s.file = FileRead.parsed t) :
    s.Kept timingsJson ↔ Tally.Of t.durations s.recorded := by
  have hread : s.phaseDurationsSecs timingsJson = Except.ok t.durations := by
    unfold phaseDurationsSecs
    rw [h]
    rfl
  unfold Kept
  rw [hread]
  constructor
  · rintro ⟨durations, hok, hof⟩
    exact Except.ok.inj hok ▸ hof
  · exact fun hof => ⟨_, rfl, hof⟩

theorem kept_congr (hfile : s'.file = s.file) (hrecorded : s'.recorded = s.recorded) :
    s'.Kept timingsJson ↔ s.Kept timingsJson := by
  unfold Kept phaseDurationsSecs
  rw [hfile, hrecorded]

theorem kept_fresh : fresh.Kept timingsJson := ⟨∅, rfl, Tally.of_nil⟩

/-- **Whether a record keeps what was kept** is decided by what earlier processes have
recorded. -/
theorem kept_step_iff (hs : s.Counts) (hkept : s.Kept timingsJson)
    (h : s.step timingsJson e = some s') : s'.Kept timingsJson ↔ s.NothingBefore e := by
  obtain ⟨rfl, hnone, rfl⟩ | ⟨phase, duration, rec, own, rfl, hrec, rfl⟩ | ⟨he, rfl⟩ :=
    step_cases h
  · have hrecorded : (s.started timingsJson).recorded = s.recorded := by
      simp [recorded, Session.own, started, hnone]
    have hsame : (s.started timingsJson).Kept timingsJson ↔ s.Kept timingsJson :=
      kept_congr rfl hrecorded
    exact iff_of_true (hsame.mpr hkept) trivial
  · have hown : s.own = own := by simp [Session.own, hrec]
    have hof : Tally.Of (Tally.add rec.state.durations phase duration)
        (s.own ++ [(phase, duration)]) := hown ▸ (hs rec own hrec).add phase duration
    rw [kept_iff_of_file rfl]
    show (∀ k, _ = Tally.total (s.earlier ++ (s.own ++ [(phase, duration)])) k) ↔ _
    simp only [hof _]
    rw [forall_congr' fun k => eq_comm, Tally.total_append_eq_right_iff]
    refine forall₂_congr fun r _ => ?_
    rw [List.map_append, List.mem_append, List.map_singleton, List.mem_singleton, List.mem_cons,
      or_comm]
  · have hends : s.NothingBefore e := by
      obtain rfl | ⟨phase, duration, f, rfl⟩ := he
      · trivial
      · trivial
    have hsame : s.ended.Kept timingsJson ↔ s.Kept timingsJson :=
      kept_congr rfl (List.append_nil _)
    exact iff_of_true (hsame.mpr hkept) hends

end Steps

end Session

/-! ## Whole sessions -/

open Session

/-- **The file of a session keeps the durations of all its processes, after every event,
exactly if no record of a process comes after time that an earlier one has recorded.** -/
theorem timings_kept {timingsJson : String} {es : List Event} {s : Session}
    (h : Runs.run (step timingsJson) fresh es = some s) :
    (∀ es₁ s₁, es₁ <+: es → Runs.run (step timingsJson) fresh es₁ = some s₁ →
        s₁.Kept timingsJson)
      ↔ Runs.Throughout (step timingsJson) NothingBefore fresh es := by
  have hfresh : fresh.Counts := fun rec own hrunning => by cases hrunning
  exact (Runs.throughout_iff_of_invariant (fun s e s' => counts_step)
    (fun s e s' => kept_step_iff) hfresh kept_fresh h).symm

/-- A process that crashes after its first phases, and another one that goes no further than
to start. -/
theorem timings_kept_crashed :
    (Runs.run (step "timings.json") fresh [Event.start, Event.record "baseline" 10 none,
        Event.record "baseline" 7 none, Event.stop, Event.start]).isSome = true
      ∧ ∀ es₁ s₁, es₁ <+: [Event.start, Event.record "baseline" 10 none,
          Event.record "baseline" 7 none, Event.stop, Event.start] →
        Runs.run (step "timings.json") fresh es₁ = some s₁ → s₁.Kept "timings.json" := by
  refine ⟨rfl, (timings_kept rfl).mpr ?_⟩
  exact Runs.throughout_of_check (fun _ _ => of_decide_eq_true) rfl

/-- **The process that resumes a session drops what the crashed one has recorded.** -/
theorem not_timings_kept : ¬ ∀ es s, Runs.run (step "timings.json") fresh es = some s →
    s.Kept "timings.json" := by
  intro h
  have hkept := h [Event.start, Event.record "baseline" 10 none, Event.record "triage" 3 none,
    Event.stop, Event.start, Event.record "baseline" 5 none] _ rfl
  have hof := (kept_iff_of_file rfl).mp hkept "triage"
  have hown := (Tally.of_nil (κ := String)).add "baseline" (5 : ℚ≥0) "triage"
  have heq := hown.symm.trans hof
  revert heq
  decide

end PhaseTiming
