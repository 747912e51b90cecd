import Sbagent.Pipeline

/-!
# What a command stores

The two sides of a target are measured by different commands, and each leaves the ids of its
runs in a file. A stored id was there before a command, or the command made the run: with the
archived binary for the baseline, with what it built from the clone of the target for the
candidate (`mem_stored_after`). That is all that invariants about stored runs need to know
of the commands.
-/

open Fallible

/-! ## The two sides -/

/-- A side of a comparison. -/
inductive Side where
  | baseline
  | candidate
  deriving DecidableEq

/-- The run-id file of a side. -/
def TargetState.runIds (d : TargetState) : Side → FileRead InvocationRunIds
  | Side.baseline => d.baselineRunIds
  | Side.candidate => d.candidateRunIds

/-- The run ids that are stored for a side of a target. -/
def Session.stored (s : Session) (side : Side) (id : String) :
    List InvocationRunId :=
  match (s.target id).runIds side with
  | FileRead.parsed ids => ids.entries
  | _ => []

/-- Which side of which target a command measures. -/
def Event.measured : Event → Option (Side × MergedTarget)
  | calibrate t _ => some (Side.baseline, t)
  | bench t _ => some (Side.candidate, t)
  | _ => none

/-! ## From one command to the next -/

section Stored

variable {s : Session} {e : Event} {side : Side} {id : String} {r : InvocationRunId}

theorem Session.mem_stored_iff : r ∈ s.stored side id
    ↔ ∃ ids, (s.target id).runIds side = FileRead.parsed ids ∧ r ∈ ids.entries := by
  unfold Session.stored
  cases (s.target id).runIds side with
  | parsed ids =>
    exact ⟨fun h => ⟨ids, rfl, h⟩, fun ⟨_, h, hr⟩ => FileRead.parsed.inj h ▸ hr⟩
  | _ => exact iff_of_false List.not_mem_nil (fun ⟨_, h, _⟩ => by cases h)

/-- A row of a series has the invocation that stands next to its id. -/
theorem Measurement.recorded_of_mem_zip {m : Measurement} {invs : List BenchInvocation}
    {p : ℤ × BenchInvocation} (c : Checkout) (hp : m.possible s invs = true)
    (h : p ∈ m.runIds.zip invs) :
    m.recorded c invs s.now s.runs p.fst = some ⟨c, p.snd, s.now⟩ := by
  obtain ⟨hle, hnodup, -⟩ := Measurement.possible_iff.mp hp
  have hfst : ((m.runIds.zip invs).map Prod.fst).Nodup := by
    rwa [List.map_fst_zip hle]
  unfold Measurement.recorded
  cases hf : (m.runIds.zip invs).find? fun q => decide (q.fst = p.fst) with
  | none => simpa using List.find?_eq_none.mp hf p h
  | some q =>
    have hq : q.fst = p.fst := by simpa using List.find?_some hf
    obtain rfl : q = p :=
      List.inj_on_of_nodup_map hfst (List.mem_of_find?_eq_some hf) h hq
    rfl

/-- A new run-id file names the runs of the series, each under the id of the
invocation that it was made for. -/
theorem Measurement.mem_runIdsFile {m : Measurement} {invs : List BenchInvocation}
    {old : FileRead InvocationRunIds} {ids : InvocationRunIds} (c : Checkout)
    (hp : m.possible s invs = true)
    (h : m.runIdsFile invs old = FileRead.parsed ids) :
    old = FileRead.parsed ids ∨ ∀ r ∈ ids.entries, ∃ inv ∈ invs,
      r.invocationId = inv.id ∧ s.runs r.runId = none
        ∧ m.recorded c invs s.now s.runs r.runId = some ⟨c, inv, s.now⟩ := by
  obtain ⟨-, -, hnew⟩ := Measurement.possible_iff.mp hp
  unfold Measurement.runIdsFile at h
  split at h
  case isFalse => exact Or.inl h
  case isTrue hdone =>
    obtain rfl := FileRead.parsed.inj h
    refine Or.inr fun r hr => ?_
    obtain ⟨p, hmem, rfl⟩ := List.mem_map.mp hr
    obtain ⟨hid, hinv⟩ := List.of_mem_zip hmem
    exact ⟨p.snd, hinv, rfl, (hnew p.fst hid).right,
      Measurement.recorded_of_mem_zip c hp hmem⟩

/-- A command measures a side of a target on a binary, and stores what it can
of the series. -/
structure Event.Stores (e : Event) (s : Session) (side : Side) (t : MergedTarget)
    (c : Checkout) (m : Measurement) : Prop where
  measured : e.measured = some (side, t)
  merged : t ∈ s.mergedTargets
  possible : m.possible s t.invocations = true
  archived : side = Side.baseline → s.baselineBinary = some c
  built : side = Side.candidate →
    (s.target t.id).checkout = some c ∧ staticSkipReason s.files t = none
  file : ((s.after e).target t.id).runIds side
    = m.runIdsFile t.invocations ((s.target t.id).runIds side)
  runs : (s.after e).runs = m.recorded c t.invocations s.now s.runs

/-- What a command does to the candidate's run-id file: it stays, it goes, or
the command measures the candidate. -/
theorem after_candidateRunIds_cases (he : e.enabled s = true) (id : String) :
    ((s.after e).target id).candidateRunIds = (s.target id).candidateRunIds
      ∨ ((s.after e).target id).candidateRunIds = FileRead.notFound
      ∨ ∃ t c m, t.id = id ∧ e.Stores s Side.candidate t c m := by
  obtain ht | ⟨t, resume, a, -, -, -, -, hp⟩ | ⟨t, c, m, rfl, rfl, hskip, hcheckout, ht, hruns⟩
    | ⟨t, ra, -, -, ht⟩ := after_target_cases s e id
  · obtain h | h := ht.candidateRunIds
    · exact Or.inl h
    · exact Or.inr (Or.inl h)
  · exact Or.inl hp.candidateRunIds
  · simp only [Event.enabled, Bool.and_eq_true, Option.all_some, decide_eq_true_eq] at he
    exact Or.inr (Or.inr ⟨t, c, m, rfl, rfl, he.left, he.right, (fun h => by cases h),
      fun _ => ⟨hcheckout, hskip⟩, congrArg TargetState.candidateRunIds ht, hruns⟩)
  · rw [ht]
    exact Or.inl rfl

/-- Replacing a target leaves its measurement of the baseline, if the
replacement does. -/
theorem set_baselineRunIds {id' : String} {d : TargetState}
    (h : d.baselineRunIds = (s.target id').baselineRunIds) :
    ((s.set id' d).target id).baselineRunIds = (s.target id).baselineRunIds := by
  by_cases hid : id = id'
  · subst hid
    rwa [Session.set_target_self]
  · rw [Session.set_target_of_ne hid]

/-- A calibration does nothing, or measures the archived binary. -/
theorem calibrate_archived (s : Session) (t : MergedTarget) (m : Measurement) :
    s.calibrate t m = s ∨ ∃ c, s.baselineBinary = some c ∧ s.calibrate t m
      = { s.set t.id { s.target t.id with
              baselineRunIds := m.runIdsFile t.invocations
                (s.target t.id).baselineRunIds } with
          runs := m.recorded c t.invocations s.now s.runs } := by
  unfold Session.calibrate
  split
  case isFalse => exact Or.inl rfl
  case isTrue =>
    cases s.baselineBinary with
    | none => exact Or.inl rfl
    | some c => exact Or.inr ⟨c, rfl, rfl⟩

/-- What a command does to the baseline's run-id file. -/
theorem after_baselineRunIds_cases (he : e.enabled s = true) (id : String) :
    ((s.after e).target id).baselineRunIds = (s.target id).baselineRunIds
      ∨ ((s.after e).target id).baselineRunIds = FileRead.notFound
      ∨ ∃ t c m, t.id = id ∧ e.Stores s Side.baseline t c m := by
  cases e with
  | archiveBaseline base outcome =>
    left
    show ((s.archiveBaseline base outcome).target id).baselineRunIds = _
    cases outcome <;> rfl
  | calibrate t m =>
    simp only [Event.enabled, Bool.and_eq_true, decide_eq_true_eq] at he
    obtain h | ⟨c, hc, h⟩ := calibrate_archived s t m
    · left
      show ((s.calibrate t m).target id).baselineRunIds = _
      rw [h]
    · -- the runs are stored for this one target
      by_cases hid : id = t.id
      · subst hid
        refine Or.inr (Or.inr ⟨t, c, m, rfl, rfl, he.left, he.right, fun _ => hc,
          (fun h => by cases h), ?_, congrArg Session.runs h⟩)
        show ((s.calibrate t m).target t.id).baselineRunIds = _
        rw [h]
        exact congrArg TargetState.baselineRunIds (Session.set_target_self s t.id _)
      · left
        show ((s.calibrate t m).target id).baselineRunIds = _
        rw [h]
        exact congrArg TargetState.baselineRunIds (Session.set_target_of_ne hid)
  | optimize t resume a =>
    left
    exact set_baselineRunIds (runOne_baselineRunIds ..)
  | bench t m =>
    left
    show ((s.bench t m).target id).baselineRunIds = _
    obtain h | ⟨c, m', -, -, -, h⟩ := bench_cases s t m <;> rw [h]
    exact set_baselineRunIds (d := (s.target t.id).benched t c m') rfl
  | analyze t left =>
    left
    show ((s.analyze t left).target id).baselineRunIds = _
    obtain h | ⟨ra, -, h⟩ := analyze_cases s t left <;> rw [h]
    exact set_baselineRunIds rfl
  | publishGenerate t left =>
    left
    show ((s.publishGenerate t left).target id).baselineRunIds = _
    unfold Session.publishGenerate
    split
    case h_1 => exact set_baselineRunIds rfl
    case h_2 => rfl
  | pruneAborted failed =>
    left
    show ((s.pruneAborted failed).target id).baselineRunIds = _
    simp only [Session.pruneAborted]
    split <;> rfl
  | benchClean =>
    show (s.benchClean.target id).baselineRunIds = _
      ∨ (s.benchClean.target id).baselineRunIds = _ ∨ _
    unfold Session.benchClean
    split
    case isTrue => exact Or.inr (Or.inl rfl)
    case isFalse =>
      split
      case h_1 => exact Or.inl rfl
      case h_2 => exact Or.inr (Or.inl rfl)
  | merge doc => exact Or.inl rfl
  | analyzeClean => exact Or.inl rfl
  | optimizeClean => exact Or.inl rfl
  | baselineClean => exact Or.inl rfl
  | elsewhere c invs m => exact Or.inl rfl

/-- A command made a run of an invocation, and stored it. -/
structure Event.Made (e : Event) (s : Session) (side : Side) (r : InvocationRunId)
    (t : MergedTarget) (c : Checkout) (inv : BenchInvocation) : Prop where
  invocation : inv ∈ t.invocations
  measured : e.measured = some (side, t)
  merged : t ∈ s.mergedTargets
  named : r.invocationId = inv.id
  archived : side = Side.baseline → s.baselineBinary = some c
  built : side = Side.candidate →
    (s.target t.id).checkout = some c ∧ staticSkipReason s.files t = none
  new : s.runs r.runId = none
  recorded : (s.after e).runs r.runId = some ⟨c, inv, s.now⟩

/-- **What a command stores**: nothing that was not there before, or a run
that it made, of an invocation of a target that it works on. -/
theorem mem_stored_after (he : e.enabled s = true)
    (h : r ∈ (s.after e).stored side id) :
    r ∈ s.stored side id ∨ ∃ t c inv, t.id = id ∧ e.Made s side r t c inv := by
  obtain ⟨ids, hfile, hr⟩ := Session.mem_stored_iff.mp h
  have hcases : ((s.after e).target id).runIds side = (s.target id).runIds side
      ∨ ((s.after e).target id).runIds side = FileRead.notFound
      ∨ ∃ t c m, t.id = id ∧ e.Stores s side t c m := by
    cases side with
    | baseline => exact after_baselineRunIds_cases he id
    | candidate => exact after_candidateRunIds_cases he id
  obtain hkept | hgone | ⟨t, c, m, rfl, hst⟩ := hcases
  · exact Or.inl (Session.mem_stored_iff.mpr ⟨ids, hkept ▸ hfile, hr⟩)
  · cases hgone.symm.trans hfile
  · obtain hold | hnew :=
      Measurement.mem_runIdsFile c hst.possible (hst.file.symm.trans hfile)
    · exact Or.inl (Session.mem_stored_iff.mpr ⟨ids, hold, hr⟩)
    · obtain ⟨inv, hinv, hid, hnone, hrun⟩ := hnew r hr
      exact Or.inr ⟨t, c, inv, rfl, hinv, hst.measured, hst.merged, hid, hst.archived,
        hst.built, hnone, hst.runs ▸ hrun⟩

/-- The archived binary stays, is replaced, or is removed. -/
theorem after_baselineBinary_cases (s : Session) (e : Event) :
    (s.after e).baselineBinary = s.baselineBinary
      ∨ (∃ base outcome, e = Event.archiveBaseline base outcome
        ∧ outcome ≠ Archival.failed ∧ (s.after e).baselineBinary = some base)
      ∨ e = Event.baselineClean := by
  obtain h | ⟨doc, rfl⟩ | ⟨base, outcome, rfl⟩ | rfl := after_shared_cases s e
  · exact Or.inl h.baselineBinary
  · exact Or.inl rfl
  · cases outcome with
    | failed => exact Or.inl rfl
    | copied => exact Or.inr (Or.inl ⟨base, _, rfl, (by decide), rfl⟩)
    | done => exact Or.inr (Or.inl ⟨base, _, rfl, (by decide), rfl⟩)
  · exact Or.inr (Or.inr rfl)

/-- Only merging changes the targets. -/
theorem after_targets_cases (s : Session) (e : Event) :
    (s.after e).targets = s.targets ∨ ∃ doc, e = Event.merge doc := by
  obtain h | ⟨doc, rfl⟩ | ⟨base, outcome, rfl⟩ | rfl := after_shared_cases s e
  · exact Or.inl h.targets
  · exact Or.inr ⟨doc, rfl⟩
  · cases outcome <;> exact Or.inl rfl
  · exact Or.inl rfl

end Stored
