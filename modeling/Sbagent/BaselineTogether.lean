import Sbagent.Baseline

/-!
# When the files of a baseline change together

After a call that makes a baseline its files belong together (`Together`) if the call
succeeds, if it stops while one of the ids can not be read, or if what it has written by
then says what was there before, and in no other case (`changes_together`). What that means
step by step is said by `RunHolds` and `ImportHolds`. An import that succeeds has also to be
shown the rerun that was asked for, which it does not check, and to get rid of a noise floor
that does not belong to it, which it tries.

An import that is refused, because the benchmark has shown another run than the one that was
asked for, is read as if it had succeeded, with the noise floor of the baseline before
(`refused_isRead`).
-/

open Fallible Stopping

namespace BaselineFiles

open BaselineFile

section Holds

variable (fromSlice : String → Option Json)

/-- When the files change together in a fresh run. The cases follow the steps of the run. -/
def RunHolds (i : RunInputs) (env : RunEnv) (old : BaselineDir) : Prop :=
  let benchRun := (benchRunJson, env.benchRun.left)
  if env.createDir = false then True
  else if env.benchRun.fault.isSome = true ∨ env.readFails = true then
    Reported old ∨ Repeats fromSlice old [benchRun]
  else
    match envelopeRunId fromSlice env.benchRun.printed with
    | none => Reported old ∨ Repeats fromSlice old [benchRun]
    | some id =>
      let text := runIdText id
      let ids := [benchRun, (runId, some text), (rerunId, some text)]
      let rerun := (rerunJson, some env.benchRun.printed)
      let floor := i.singleRunNoiseFloorPct ++ "\n"
      if env.writeRunId.error.isSome = true then
        Unreadable runId ((env.writeRunId.left text).or (old runId))
          ∨ Unreadable rerunId (old rerunId)
          ∨ Repeats fromSlice old [benchRun, (runId, env.writeRunId.left text)]
      else if env.writeRerunId.error.isSome = true then
        Unreadable rerunId ((env.writeRerunId.left text).or (old rerunId))
          ∨ Repeats fromSlice old
            [benchRun, (runId, some text), (rerunId, env.writeRerunId.left text)]
      else if env.copyRerun.error.isSome = true then
        Repeats fromSlice old (ids ++ [(rerunJson, env.copyRerun.left env.benchRun.printed)])
      else if env.writeNoiseFloor.error.isSome = true then
        Repeats fromSlice old (ids ++ [rerun, (noiseFloorPct, env.writeNoiseFloor.left floor)])
      else if env.benchList.fault.isSome = true ∨ env.benchShow.fault.isSome = true then
        Repeats fromSlice old (ids ++ [rerun, (noiseFloorPct, some floor)])
      else True

/-- When the files change together in an import. The cases follow the steps of the
import. -/
def ImportHolds (i : ImportInputs) (env : ImportEnv) (old : BaselineDir) : Prop :=
  let run := (benchRunJson, env.showRun.left)
  let rerun := (rerunJson, env.showRerun.left)
  let idText := runIdText i.runId
  let rerunText := runIdText i.rerunId
  let floor := i.singleRunNoiseFloorPct ++ "\n"
  let all := [run, rerun, (runId, some idText), (rerunId, some rerunText)]
  if env.createDir = false then True
  else if env.showRun.fault.isSome = true then Reported old ∨ Repeats fromSlice old [run]
  else if env.showRerun.fault.isSome = true then
    Reported old ∨ Repeats fromSlice old [run, rerun]
  else if env.writeRunId.error.isSome = true then
    Unreadable runId ((env.writeRunId.left idText).or (old runId))
      ∨ Unreadable rerunId (old rerunId)
      ∨ Repeats fromSlice old [run, rerun, (runId, env.writeRunId.left idText)]
  else if env.writeRerunId.error.isSome = true then
    Unreadable rerunId ((env.writeRerunId.left rerunText).or (old rerunId))
      ∨ Repeats fromSlice old
        [run, rerun, (runId, some idText), (rerunId, env.writeRerunId.left rerunText)]
  else if env.benchList.fault.isSome = true ∨ env.benchShow.fault.isSome = true
      ∨ env.readFails = true then Repeats fromSlice old all
  -- an import that is refused is not undone
  else if envelopeRunId fromSlice env.showRun.printed ≠ some i.runId then False
  else if i.runId = i.rerunId ∧ env.writeNoiseFloor.error.isSome = true then
    Repeats fromSlice old (all ++ [(noiseFloorPct, env.writeNoiseFloor.left floor)])
  else
    envelopeRunId fromSlice env.showRerun.printed = some i.rerunId
      ∧ (i.runId = i.rerunId ∨ old noiseFloorPct = none ∨ env.removesNoiseFloor = true)

end Holds

/-! ## What holds after a step -/

section Steps

variable {fromSlice : String → Option Json} {α : Type} {s : BaselineDir}
  {Q : Fallible α → BaselineDir → Prop}

/-- After creating the directory. -/
theorem after_createResultsDir {f : Unit → Act α} {dir : String} {done : Bool} :
    After (createResultsDir dir done >>= f) s Q ↔
      if done then After (f ()) s Q else Q (Except.error [s!"creating {dir}"]) s := by
  rw [after_bind]
  cases done <;> exact Iff.rfl

/-- After writing a file, or failing to. -/
theorem after_write {f : Unit → Act α} {file : BaselineFile} {text : String} {r : WriteEnd} :
    After (write file text r >>= f) s Q
      ↔ r.error.elim (After (f ()) (replace s file (r.left text)) Q)
        fun e => Q (Except.error e) (replace s file (r.left text)) := after_put_bind

/-- A write that does not fail leaves its text. -/
theorem left_of_error_eq_none {text : String} {r : WriteEnd} (h : r.error = none) :
    r.left text = some text := by
  cases r with
  | written => rfl
  | notOpened e => cases h
  | cut n e => cases h

/-- A command that does not fail leaves what it prints. -/
theorem left_of_fault_eq_none {r : Invocation} (h : r.fault = none) :
    r.left = some r.printed := by
  unfold Invocation.left
  rw [h]

/-- A call of the benchmark with its output in a file of the baseline. -/
theorem after_invoke {f : Unit → Act α} {cli : StacksBenchCli} {opts : InvokeOptions}
    {file : BaselineFile} {r : Invocation} (h : opts.stdout = Output.baseline file) :
    After (invoke cli opts r >>= f) s Q
      ↔ r.fault.elim (After (f ()) (replace s file r.left) Q)
        fun x => Q (Except.error [x.message cli opts]) (replace s file r.left) := by
  unfold invoke
  rw [h]
  dsimp only
  rw [after_put_bind]
  cases r.fault <;> exact Iff.rfl

/-- A call with its output elsewhere. -/
theorem after_invoke_other {f : Unit → Act α} {cli : StacksBenchCli} {opts : InvokeOptions}
    {path : String} {r : Invocation} (h : opts.stdout = Output.other path) :
    After (invoke cli opts r >>= f) s Q
      ↔ r.fault.elim (After (f ()) s Q) fun x => Q (Except.error [x.message cli opts]) s := by
  unfold invoke
  rw [h, after_bind]
  cases r.fault <;> exact Iff.rfl

/-- There is no run id in what is no JSON. -/
theorem envelopeRunId_of_not_json {raw : String} (h : fromSlice raw = none) :
    envelopeRunId fromSlice raw = none := by
  unfold envelopeRunId
  rw [h]
  rfl

/-- An id is read if the file can be read and has one. -/
theorem extractRunId_eq_ok_iff {file : BaselineFile} {fails : Bool} {raw : String} {id : ℤ}
    (h : s file = some raw) :
    extractRunId fromSlice file fails s = Except.ok id
      ↔ fails = false ∧ envelopeRunId fromSlice raw = some id := by
  unfold extractRunId
  cases fails with
  | true => simp [bail]
  | false =>
    simp only [Bool.false_eq_true, if_false, h, true_and]
    cases hparse : fromSlice raw with
    | none => simp [bail, envelopeRunId_of_not_json hparse]
    | some v => cases envelopeRunId fromSlice raw <;> simp [ofOption, bail]

/-- The check passes if what was shown can be read and is the run that was asked for. -/
theorem checkShown_eq_ok_iff (asked : ℤ) (fails : Bool) {raw : String}
    (h : s benchRunJson = some raw) :
    checkShown fromSlice asked fails s = Except.ok ()
      ↔ fails = false ∧ envelopeRunId fromSlice raw = some asked := by
  unfold checkShown
  cases fails with
  | true => simp [bail]
  | false =>
    simp only [Bool.false_eq_true, if_false, h, true_and]
    cases hparse : fromSlice raw with
    | none => simp [bail, envelopeRunId_of_not_json hparse]
    | some v => simp [bailIf, bail]

end Steps

/-! ## Where a call stops -/

section Stops

variable {fromSlice : String → Option Json} {α : Type} {old dir : BaselineDir}
  {new : α → Baseline} {ws : List (BaselineFile × Option String)} {e : List String}

/-- Files that are not touched stay together. -/
theorem together_of_settled {r : Fallible α} (h : Settled fromSlice old) :
    Together fromSlice old new r old := by
  obtain hreported | ⟨b, hb⟩ := h
  · exact Or.inr (Or.inr hreported)
  · exact Or.inl ⟨b, hb, hb⟩

/-- **What was written by a call that has failed belongs to what was there** if it repeats
that, or if nothing can be read. -/
theorem together_error_iff (hnodup : (ws.map Prod.fst).Nodup) :
    Together fromSlice old new (Except.error e) (replaceAll old ws)
      ↔ Reported (replaceAll old ws) ∨ Repeats fromSlice old ws := by
  unfold Together Repeats
  constructor
  · rintro (⟨b, hb, hdir⟩ | ⟨out, hout, -⟩ | hreported)
    · exact Or.inr ⟨b, hb, (forall_replaceAll_iff hnodup hb).mp hdir⟩
    · cases hout
    · exact Or.inl hreported
  · rintro (hreported | ⟨b, hb, hws⟩)
    · exact Or.inr (Or.inr hreported)
    · exact Or.inl ⟨b, hb, (forall_replaceAll_iff hnodup hb).mpr hws⟩

/-- A run id that fits can be read. -/
theorem not_unreadable_runIdText {file : BaselineFile} {id : ℤ} (h : IntType.i64.Holds id) :
    ¬ Unreadable file (some (runIdText id)) := by
  rintro ⟨e, he⟩
  rw [readRunIdFile_runIdText file.path h] at he
  cases he

/-- With both ids written nothing is reported. -/
theorem not_reported {id id' : ℤ} (hid : IntType.i64.Holds id) (hid' : IntType.i64.Holds id')
    (hrun : dir runId = some (runIdText id)) (hrerun : dir rerunId = some (runIdText id')) :
    ¬ Reported dir := by
  rw [reported_iff, hrun, hrerun]
  rintro (h | h)
  · exact not_unreadable_runIdText hid h
  · exact not_unreadable_runIdText hid' h

/-- A call that has not touched the ids. -/
theorem together_error_iff_of_notMem (ws : List (BaselineFile × Option String))
    (hnodup : (ws.map Prod.fst).Nodup)
    (hrun : runId ∉ ws.map Prod.fst) (hrerun : rerunId ∉ ws.map Prod.fst) :
    Together fromSlice old new (Except.error e) (replaceAll old ws)
      ↔ Reported old ∨ Repeats fromSlice old ws := by
  rw [together_error_iff hnodup, reported_iff, reported_iff, replaceAll_of_notMem hrun,
    replaceAll_of_notMem hrerun]

/-- A call that has stopped at the id of the run. -/
theorem together_error_iff_of_runId (ws : List (BaselineFile × Option String))
    {t : Option String}
    (hnodup : ((ws ++ [(runId, t)]).map Prod.fst).Nodup) (hrerun : rerunId ∉ ws.map Prod.fst) :
    Together fromSlice old new (Except.error e) (replaceAll old (ws ++ [(runId, t)]))
      ↔ Unreadable runId (t.or (old runId)) ∨ Unreadable rerunId (old rerunId)
        ∨ Repeats fromSlice old (ws ++ [(runId, t)]) := by
  rw [together_error_iff hnodup, reported_iff, replaceAll_concat, replace_self,
    replace_of_ne (by decide), replaceAll_of_notMem hrerun, replaceAll_of_notMem, or_assoc]
  intro hmem
  rw [List.map_append, List.nodup_append] at hnodup
  exact hnodup.right.right _ hmem _ (List.mem_singleton_self _) rfl

/-- A call that has stopped at the id of the rerun. -/
theorem together_error_iff_of_rerunId (ws : List (BaselineFile × Option String)) {id : ℤ}
    {t : Option String} (hid : IntType.i64.Holds id)
    (hnodup : ((ws ++ [(runId, some (runIdText id)), (rerunId, t)]).map Prod.fst).Nodup) :
    Together fromSlice old new (Except.error e)
        (replaceAll old (ws ++ [(runId, some (runIdText id)), (rerunId, t)]))
      ↔ Unreadable rerunId (t.or (old rerunId))
        ∨ Repeats fromSlice old (ws ++ [(runId, some (runIdText id)), (rerunId, t)]) := by
  have hfold : replaceAll old (ws ++ [(runId, some (runIdText id)), (rerunId, t)])
      = replace (replace (replaceAll old ws) runId (some (runIdText id))) rerunId t :=
    List.foldl_append
  have hrerun : rerunId ∉ ws.map Prod.fst := by
    intro hmem
    rw [List.map_append, List.nodup_append] at hnodup
    exact hnodup.right.right _ hmem rerunId (by simp) rfl
  rw [together_error_iff hnodup, reported_iff, hfold, replace_self, replace_of_ne (by decide),
    replace_self, replace_of_ne (by decide), replaceAll_of_notMem hrerun, Option.some_or,
    or_iff_right (not_unreadable_runIdText hid)]

/-- A call that has written both ids and stops. -/
theorem together_error_iff_of_ids (ws : List (BaselineFile × Option String)) {id id' : ℤ}
    (hid : IntType.i64.Holds id)
    (hid' : IntType.i64.Holds id') (hnodup : (ws.map Prod.fst).Nodup)
    (hrun : replaceAll old ws runId = some (runIdText id))
    (hrerun : replaceAll old ws rerunId = some (runIdText id')) :
    Together fromSlice old new (Except.error e) (replaceAll old ws)
      ↔ Repeats fromSlice old ws := by
  rw [together_error_iff hnodup, or_iff_right (not_reported hid hid' hrun hrerun)]

/-- What repeats a baseline shows the run whose id it has. -/
theorem envelopeRunId_of_repeats {id : ℤ} {raw : String} (hid : IntType.i64.Holds id)
    (hbench : (benchRunJson, some raw) ∈ ws) (hrun : (runId, some (runIdText id)) ∈ ws)
    (h : Repeats fromSlice old ws) : envelopeRunId fromSlice raw = some id := by
  obtain ⟨b, -, hws⟩ := h
  have hr : readRunIdFile runId.path (some (runIdText id)) = Except.ok b.runId :=
    hws _ hrun _ rfl
  rw [readRunIdFile_runIdText _ hid] at hr
  rw [Except.ok.inj hr]
  exact hws _ hbench _ rfl

/-- The ids in the files are those of the baseline that they describe. -/
theorem ids_eq_of_describes {b : Baseline} {id id' : ℤ} (hid : IntType.i64.Holds id)
    (hid' : IntType.i64.Holds id') (hrun : dir runId = some (runIdText id))
    (hrerun : dir rerunId = some (runIdText id')) (h : Describes fromSlice dir b) :
    b.runId = id ∧ b.rerunId = id' := by
  have hr : readRunIdFile runId.path (dir runId) = Except.ok b.runId := h runId
  have hq : readRunIdFile rerunId.path (dir rerunId) = Except.ok b.rerunId := h rerunId
  rw [hrun, readRunIdFile_runIdText _ hid] at hr
  rw [hrerun, readRunIdFile_runIdText _ hid'] at hq
  exact ⟨(Except.ok.inj hr).symm, (Except.ok.inj hq).symm⟩

/-- **The files of a call that has succeeded** describe the new baseline if what was shown of
the rerun is what was asked for. -/
theorem together_ok_iff {out : α} {id id' : ℤ} {pct : String}
    (hid : IntType.i64.Holds id) (hid' : IntType.i64.Holds id')
    (hrun : dir runId = some (runIdText id)) (hrerun : dir rerunId = some (runIdText id'))
    (hshown : (dir benchRunJson).bind (envelopeRunId fromSlice) = some id)
    (hnew : new out = Baseline.of id id' pct)
    (hfloor : dir noiseFloorPct = (Baseline.of id id' pct).noiseFloorPct) :
    Together fromSlice old new (Except.ok out) dir
      ↔ (dir rerunJson).bind (envelopeRunId fromSlice) = some id' := by
  constructor
  · -- the files determine the ids, so there is one baseline they can describe
    rintro (⟨b, -, hb⟩ | ⟨out', hout, hb⟩ | hreported)
    · have hr : (dir rerunJson).bind (envelopeRunId fromSlice) = some b.rerunId := hb rerunJson
      rw [hr, (ids_eq_of_describes hid hid' hrun hrerun hb).right]
    · obtain rfl := Except.ok.inj hout
      rw [hnew] at hb
      exact hb rerunJson
    · exact absurd hreported (not_reported hid hid' hrun hrerun)
  · intro hr
    refine Or.inr (Or.inl ⟨out, rfl, fun file => ?_⟩)
    rw [hnew]
    cases file with
    | benchRunJson => exact hshown
    | rerunJson => exact hr
    | runId =>
      show readRunIdFile _ (dir runId) = _
      rw [hrun]
      exact readRunIdFile_runIdText _ hid
    | rerunId =>
      show readRunIdFile _ (dir rerunId) = _
      rw [hrerun]
      exact readRunIdFile_runIdText _ hid'
    | noiseFloorPct => exact hfloor

/-- A noise floor does not belong to a run with a rerun. -/
theorem not_together_of_floor {out : α} {id id' : ℤ}
    (hid : IntType.i64.Holds id) (hid' : IntType.i64.Holds id')
    (hrun : dir runId = some (runIdText id)) (hrerun : dir rerunId = some (runIdText id'))
    (hne : id ≠ id') (hfloor : (dir noiseFloorPct).isSome = true) :
    ¬ Together fromSlice old new (Except.ok out) dir := by
  have hdescribes (b : Baseline) : ¬ Describes fromSlice dir b := by
    intro hb
    obtain ⟨hr, hq⟩ := ids_eq_of_describes hid hid' hrun hrerun hb
    have hpct : dir noiseFloorPct = b.noiseFloorPct := hb noiseFloorPct
    rw [hpct, b.single, hr, hq] at hfloor
    exact hne hfloor
  rintro (⟨b, -, hb⟩ | ⟨out', -, hb⟩ | hreported)
  · exact hdescribes b hb
  · exact hdescribes _ hb
  · exact not_reported hid hid' hrun hrerun hreported

end Stops

/-! ## Imports -/

section Import

variable {fromSlice : String → Option Json} {i : ImportInputs} {env : ImportEnv}
  {old : BaselineDir}

/-- The baseline that a successful import makes. -/
def ImportInputs.baseline (i : ImportInputs) (out : ImportOutputs) : Baseline :=
  Baseline.of out.baselineRunId out.baselineRerunId i.singleRunNoiseFloorPct

/-- After the noise floor is written, removed or left. -/
theorem after_settleNoiseFloor {α : Type} {s : BaselineDir} {Q : Fallible α → BaselineDir → Prop}
    {f : Unit → Act α} {r : WriteEnd} {removes : Bool} :
    After (settleNoiseFloor i r removes >>= f) s Q ↔
      if i.runId = i.rerunId then
        r.error.elim
          (After (f ()) (replace s noiseFloorPct (r.left (i.singleRunNoiseFloorPct ++ "\n"))) Q)
          fun e => Q (Except.error e)
            (replace s noiseFloorPct (r.left (i.singleRunNoiseFloorPct ++ "\n")))
      else if (s noiseFloorPct).isSome = true ∧ removes = true then
        After (f ()) (Function.update s noiseFloorPct none) Q
      else After (f ()) s Q := by
  unfold settleNoiseFloor
  rw [bind_assoc, after_bind, after_get]
  dsimp only
  split_ifs with hsingle hremoves
  · exact after_write
  · exact after_bind
  · exact after_bind

/-- What an import has written before it checks what was shown. -/
def importWrites (i : ImportInputs) (shown rerun : String) :
    List (BaselineFile × Option String) :=
  [(benchRunJson, some shown), (rerunJson, some rerun), (runId, some (runIdText i.runId)),
    (rerunId, some (runIdText i.rerunId))]

section Written

variable (i) (old) (shown rerun : String)

/-- Each file is written once. -/
theorem nodup_writes : ((importWrites i shown rerun).map Prod.fst).Nodup := by
  simp [importWrites]

theorem writes_benchRunJson :
    replaceAll old (importWrites i shown rerun) benchRunJson = some shown := rfl

theorem writes_runId :
    replaceAll old (importWrites i shown rerun) runId = some (runIdText i.runId) := rfl

theorem writes_rerunId :
    replaceAll old (importWrites i shown rerun) rerunId = some (runIdText i.rerunId) := rfl

theorem writes_noiseFloorPct :
    replaceAll old (importWrites i shown rerun) noiseFloorPct = old noiseFloorPct := rfl

end Written

/-- An import that stops with both ids written. -/
theorem together_writes_iff {shown rerun : String} {e : List String} :
    Together fromSlice old i.baseline (Except.error e) (replaceAll old (importWrites i shown rerun))
      ↔ Repeats fromSlice old (importWrites i shown rerun) :=
  together_error_iff_of_ids _ i.runId_holds i.rerunId_holds (nodup_writes i shown rerun)
    (writes_runId i old shown rerun) (writes_rerunId i old shown rerun)

/-- **An import that has written both ids** and goes on to check what was shown. -/
theorem checked_together_iff {shown rerun : String} :
    After (do
        reading (checkShown fromSlice i.runId env.readFails)
        settleNoiseFloor i env.writeNoiseFloor env.removesNoiseFloor
        return ImportOutputs.mk i.runId i.rerunId (i.runId = i.rerunId))
        (replaceAll old (importWrites i shown rerun)) (Together fromSlice old i.baseline)
      ↔ if env.readFails = true then Repeats fromSlice old (importWrites i shown rerun)
        else if envelopeRunId fromSlice shown ≠ some i.runId then False
        else if i.runId = i.rerunId ∧ env.writeNoiseFloor.error.isSome = true then
          Repeats fromSlice old (importWrites i shown rerun ++ [(noiseFloorPct,
            env.writeNoiseFloor.left (i.singleRunNoiseFloorPct ++ "\n"))])
        else
          envelopeRunId fromSlice rerun = some i.rerunId
            ∧ (i.runId = i.rerunId ∨ old noiseFloorPct = none ∨ env.removesNoiseFloor = true) := by
  have hcheck : checkShown fromSlice i.runId env.readFails
        (replaceAll old (importWrites i shown rerun)) = Except.ok ()
      ↔ env.readFails = false ∧ envelopeRunId fromSlice shown = some i.runId :=
    checkShown_eq_ok_iff _ _ (writes_benchRunJson i old shown rerun)
  rw [after_reading_bind]
  -- the ids stand in their files by now, whatever the check says
  rcases hresult : checkShown fromSlice i.runId env.readFails
    (replaceAll old (importWrites i shown rerun)) with e | _
  · rw [hresult] at hcheck
    dsimp only
    rw [together_writes_iff]
    by_cases hfails : env.readFails = true
    · rw [if_pos hfails]
    · have hrefused : envelopeRunId fromSlice shown ≠ some i.runId := fun hshown =>
        absurd (hcheck.mpr ⟨Bool.eq_false_of_not_eq_true hfails, hshown⟩) (by simp)
      rw [if_neg hfails, if_pos hrefused]
      refine iff_of_false (fun hrepeats => hrefused ?_) not_false
      exact envelopeRunId_of_repeats i.runId_holds (by simp [importWrites])
        (by simp [importWrites]) hrepeats
  obtain ⟨hfails, hshown⟩ := hcheck.mp hresult
  dsimp only
  rw [hfails, if_neg Bool.false_ne_true, if_neg (not_not_intro hshown), after_settleNoiseFloor]
  have hrun (t : Option String) : replace (replaceAll old (importWrites i shown rerun))
      noiseFloorPct t runId = some (runIdText i.runId) := replace_of_ne (by decide)
  have hrerun (t : Option String) : replace (replaceAll old (importWrites i shown rerun))
      noiseFloorPct t rerunId = some (runIdText i.rerunId) := replace_of_ne (by decide)
  -- with one id for both, the noise floor of the settings is written
  by_cases hsingle : i.runId = i.rerunId
  · rw [if_pos hsingle]
    rcases hwrite : env.writeNoiseFloor.error with _ | e
    · have hno : ¬ (i.runId = i.rerunId ∧ Option.isSome (none : Option (List String)) = true) :=
        fun h => absurd h.right Bool.false_ne_true
      rw [if_neg hno, left_of_error_eq_none hwrite, and_iff_left (Or.inl hsingle)]
      rw [Option.elim_none, after_pure]
      exact together_ok_iff i.runId_holds i.rerunId_holds (hrun _) (hrerun _) hshown rfl
        (if_pos hsingle).symm
    · have hyes : i.runId = i.rerunId ∧ Option.isSome (some e) = true := ⟨hsingle, rfl⟩
      rw [if_pos hyes]
      have hstop (t : Option String) :
          Together fromSlice old i.baseline (Except.error e)
              (replaceAll old (importWrites i shown rerun ++ [(noiseFloorPct, t)]))
            ↔ Repeats fromSlice old (importWrites i shown rerun ++ [(noiseFloorPct, t)]) := by
        refine together_error_iff_of_ids _ i.runId_holds i.rerunId_holds
          (by simp [importWrites]) ?_ ?_
        · rw [replaceAll_concat, hrun]
        · rw [replaceAll_concat, hrerun]
      exact hstop _
  · have hno : ¬ (i.runId = i.rerunId ∧ env.writeNoiseFloor.error.isSome = true) :=
      fun h => hsingle h.left
    rw [if_neg hsingle, if_neg hno, writes_noiseFloorPct]
    have hnone : (Baseline.of i.runId i.rerunId i.singleRunNoiseFloorPct).noiseFloorPct = none :=
      if_neg hsingle
    -- with two, an old noise floor has to go
    by_cases hremoved : (old noiseFloorPct).isSome = true ∧ env.removesNoiseFloor = true
    · rw [if_pos hremoved, and_iff_left (Or.inr (Or.inr hremoved.right))]
      exact together_ok_iff i.runId_holds i.rerunId_holds (writes_runId i old shown rerun)
        (writes_rerunId i old shown rerun) hshown rfl hnone.symm
    · rw [if_neg hremoved]
      by_cases hfloor : old noiseFloorPct = none
      · rw [and_iff_left (Or.inr (Or.inl hfloor))]
        exact together_ok_iff i.runId_holds i.rerunId_holds (writes_runId i old shown rerun)
          (writes_rerunId i old shown rerun) hshown rfl (hfloor.trans hnone.symm)
      · have hsome : (old noiseFloorPct).isSome = true := Option.isSome_iff_ne_none.mpr hfloor
        refine iff_of_false ?_ ?_
        · exact not_together_of_floor i.runId_holds i.rerunId_holds
            (writes_runId i old shown rerun) (writes_rerunId i old shown rerun) hsingle hsome
        · rintro ⟨-, hids | hold | hremoves⟩
          · exact hsingle hids
          · exact hfloor hold
          · exact hremoved ⟨hsome, hremoves⟩

/-- An import leaves the files together exactly under its condition. -/
theorem import_together_iff (hold : Settled fromSlice old) :
    After (importBaseline fromSlice i env) old (Together fromSlice old i.baseline)
      ↔ ImportHolds fromSlice i env old := by
  unfold importBaseline ImportHolds
  simp only [ite_or]
  rw [after_createResultsDir]
  cases env.createDir with
  | false => exact iff_of_true (together_of_settled hold) trivial
  | true =>
    rw [if_pos rfl, if_neg (by decide : ¬ true = false), after_invoke rfl]
    refine elim_iff_ite (fun _ _ => ?_) fun hrun => ?_
    · exact together_error_iff_of_notMem [(benchRunJson, _)] (by simp) (by simp) (by simp)
    rw [after_invoke rfl, left_of_fault_eq_none hrun]
    refine elim_iff_ite (fun _ _ => ?_) fun hrerun => ?_
    · exact together_error_iff_of_notMem [(benchRunJson, _), (rerunJson, _)] (by simp)
        (by simp) (by simp)
    rw [after_write, left_of_fault_eq_none hrerun]
    refine elim_iff_ite (fun _ _ => ?_) fun hid => ?_
    · exact together_error_iff_of_runId [(benchRunJson, _), (rerunJson, _)] (by simp) (by simp)
    rw [after_write, left_of_error_eq_none hid]
    refine elim_iff_ite (fun _ _ => ?_) fun hid' => ?_
    · exact together_error_iff_of_rerunId [(benchRunJson, _), (rerunJson, _)] i.runId_holds
        (by simp)
    -- from here on both ids can be read, and no error is reported any more
    rw [after_invoke_other rfl, left_of_error_eq_none hid']
    refine elim_iff_ite (fun _ _ => together_writes_iff) fun _ => ?_
    rw [after_invoke_other rfl]
    exact elim_iff_ite (fun _ _ => together_writes_iff) fun _ => checked_together_iff

/-- Nothing goes wrong before an import checks what was shown. -/
structure ReachesCheck (env : ImportEnv) : Prop where
  createDir : env.createDir = true
  showRun : env.showRun.fault = none
  showRerun : env.showRerun.fault = none
  writeRunId : env.writeRunId.error = none
  writeRerunId : env.writeRerunId.error = none
  benchList : env.benchList.fault = none
  benchShow : env.benchShow.fault = none

/-- **What triage reads after an import that was refused**: the ids that were asked for, and
the noise floor that was there before. -/
theorem refused_isRead (henv : ReachesCheck env)
    (hrefused : envelopeRunId fromSlice env.showRun.printed ≠ some i.runId) :
    After (importBaseline fromSlice i env) old fun r dir =>
      r.isOk = false ∧ loadBaseline dir
        = Except.ok (i.runId, i.rerunId, ((old noiseFloorPct).map Text.trim).getD "") := by
  unfold importBaseline
  rw [after_createResultsDir, henv.createDir, if_pos rfl, after_invoke rfl, henv.showRun,
    Option.elim_none, after_invoke rfl, henv.showRerun, Option.elim_none, after_write,
    henv.writeRunId, Option.elim_none, after_write, henv.writeRerunId, Option.elim_none,
    after_invoke_other rfl, henv.benchList, Option.elim_none, after_invoke_other rfl,
    henv.benchShow, Option.elim_none, after_reading_bind, left_of_fault_eq_none henv.showRun,
    left_of_fault_eq_none henv.showRerun, left_of_error_eq_none henv.writeRunId,
    left_of_error_eq_none henv.writeRerunId]
  have hread : loadBaseline (replaceAll old
      (importWrites i env.showRun.printed env.showRerun.printed))
        = Except.ok (i.runId, i.rerunId, ((old noiseFloorPct).map Text.trim).getD "") := by
    unfold loadBaseline
    rw [writes_runId, writes_rerunId, writes_noiseFloorPct,
      readRunIdFile_runIdText _ i.runId_holds, readRunIdFile_runIdText _ i.rerunId_holds]
    cases old noiseFloorPct <;> rfl
  have herror : ∃ e, checkShown fromSlice i.runId env.readFails (replaceAll old
      (importWrites i env.showRun.printed env.showRerun.printed)) = Except.error e := by
    rcases hresult : checkShown fromSlice i.runId env.readFails (replaceAll old
      (importWrites i env.showRun.printed env.showRerun.printed)) with e | _
    · exact ⟨e, rfl⟩
    · exact absurd ((checkShown_eq_ok_iff _ _ (writes_benchRunJson i old _ _)).mp hresult).right
        hrefused
  obtain ⟨e, he⟩ := herror
  unfold importWrites replaceAll at he
  simp only [List.foldl_cons, List.foldl_nil] at he
  rw [he]
  exact ⟨rfl, hread⟩

end Import

/-! ## Fresh runs -/

section Run

variable {fromSlice : String → Option Json} {i : RunInputs} {env : RunEnv}
  {old : BaselineDir}

/-- The baseline that a successful run makes. -/
def RunInputs.baseline (i : RunInputs) (out : RunOutputs) : Baseline :=
  Baseline.of out.baselineRunId out.baselineRerunId i.singleRunNoiseFloorPct

/-- A run id that is read fits. -/
theorem holds_of_envelopeRunId {raw : String} {id : ℤ}
    (h : envelopeRunId fromSlice raw = some id) : IntType.i64.Holds id := by
  have hjson {v : Json} (hv : asI64 v = some id) : IntType.i64.Holds id := by
    unfold asI64 at hv
    split at hv
    · split_ifs at hv with hlt
      obtain rfl := Option.some.inj hv
      exact ⟨by simp only [IntType.i64]; omega, by simp only [IntType.i64]; omega⟩
    · split_ifs at hv with hlt
      obtain rfl := Option.some.inj hv
      exact ⟨by simp only [IntType.i64]; omega, by simp only [IntType.i64]; omega⟩
    · cases hv
  unfold envelopeRunId at h
  simp only [Option.bind_eq_bind, Option.bind_eq_some_iff] at h
  obtain ⟨-, -, -, -, v, -, hv⟩ := h
  exact hjson hv

/-- After the output of the run is copied. -/
theorem after_copyBenchRun {α : Type} {s : BaselineDir} {Q : Fallible α → BaselineDir → Prop}
    {f : Unit → Act α} {r : WriteEnd} (text : String) (h : s benchRunJson = some text) :
    After (copyBenchRun r >>= f) s Q
      ↔ r.error.elim (After (f ()) (replace s rerunJson (r.left text)) Q)
        fun e => Q (Except.error e) (replace s rerunJson (r.left text)) := by
  unfold copyBenchRun
  rw [bind_assoc, after_bind, after_get]
  simp only [h]
  exact after_write

/-- What a run has written before it copies what the benchmark has printed. -/
def runWrites (printed : String) (id : ℤ) : List (BaselineFile × Option String) :=
  [(benchRunJson, some printed), (runId, some (runIdText id)), (rerunId, some (runIdText id))]

/-- A run that stops with both ids written. -/
theorem together_runWrites_iff (ws : List (BaselineFile × Option String)) {printed : String}
    {id : ℤ} (hid : IntType.i64.Holds id)
    (hnodup : ((runWrites printed id ++ ws).map Prod.fst).Nodup) {e : List String} :
    Together fromSlice old i.baseline (Except.error e) (replaceAll old (runWrites printed id ++ ws))
      ↔ Repeats fromSlice old (runWrites printed id ++ ws) := by
  have hkept (file : BaselineFile) (hfile : file ∈ (runWrites printed id).map Prod.fst) :
      replaceAll old (runWrites printed id ++ ws) file
        = replaceAll old (runWrites printed id) file := by
    rw [List.map_append, List.nodup_append] at hnodup
    unfold replaceAll
    rw [List.foldl_append]
    exact replaceAll_of_notMem fun hmem => hnodup.right.right _ hfile _ hmem rfl
  exact together_error_iff_of_ids _ hid hid hnodup (hkept runId (by simp [runWrites]))
    (hkept rerunId (by simp [runWrites]))

/-- **A run that knows its id** and goes on to write it. -/
theorem identified_together_iff {printed : String} {id : ℤ}
    (hshown : envelopeRunId fromSlice printed = some id) :
    After (do
        write runId (runIdText id) env.writeRunId
        write rerunId (runIdText id) env.writeRerunId
        copyBenchRun env.copyRerun
        write noiseFloorPct (i.singleRunNoiseFloorPct ++ "\n") env.writeNoiseFloor
        invoke i.cli
          { args := listArgs
            stdout := Output.other "baseline/bench-list.json"
            stderr := none
            lock := i.benchLock } env.benchList
        invoke i.cli
          { args := hotspotArgs id
            stdout := Output.other "baseline/profiler-hotspots.json"
            stderr := none
            lock := i.benchLock } env.benchShow
        return RunOutputs.mk id id)
        (replace old benchRunJson (some printed)) (Together fromSlice old i.baseline)
      ↔ if env.writeRunId.error.isSome = true then
          Unreadable runId ((env.writeRunId.left (runIdText id)).or (old runId))
            ∨ Unreadable rerunId (old rerunId)
            ∨ Repeats fromSlice old
              [(benchRunJson, some printed), (runId, env.writeRunId.left (runIdText id))]
        else if env.writeRerunId.error.isSome = true then
          Unreadable rerunId ((env.writeRerunId.left (runIdText id)).or (old rerunId))
            ∨ Repeats fromSlice old
              [(benchRunJson, some printed), (runId, some (runIdText id)),
                (rerunId, env.writeRerunId.left (runIdText id))]
        else if env.copyRerun.error.isSome = true then
          Repeats fromSlice old
            (runWrites printed id ++ [(rerunJson, env.copyRerun.left printed)])
        else if env.writeNoiseFloor.error.isSome = true then
          Repeats fromSlice old (runWrites printed id ++ [(rerunJson, some printed),
            (noiseFloorPct, env.writeNoiseFloor.left (i.singleRunNoiseFloorPct ++ "\n"))])
        else if env.benchList.fault.isSome = true ∨ env.benchShow.fault.isSome = true then
          Repeats fromSlice old (runWrites printed id ++ [(rerunJson, some printed),
            (noiseFloorPct, some (i.singleRunNoiseFloorPct ++ "\n"))])
        else True := by
  have hholds := holds_of_envelopeRunId hshown
  simp only [ite_or]
  rw [after_write]
  refine elim_iff_ite (fun _ _ => ?_) fun hid => ?_
  · exact together_error_iff_of_runId [(benchRunJson, _)] (by simp) (by simp)
  rw [after_write, left_of_error_eq_none hid]
  refine elim_iff_ite (fun _ _ => ?_) fun hid' => ?_
  · exact together_error_iff_of_rerunId [(benchRunJson, _)] hholds (by simp)
  -- from here on both ids can be read, and no error is reported any more
  rw [left_of_error_eq_none hid', after_copyBenchRun printed rfl]
  refine elim_iff_ite (fun _ _ => ?_) fun hcopy => ?_
  · exact together_runWrites_iff [(rerunJson, _)] hholds (by simp [runWrites])
  rw [after_write, left_of_error_eq_none hcopy]
  refine elim_iff_ite (fun _ _ => ?_) fun hfloor => ?_
  · exact together_runWrites_iff [(rerunJson, _), (noiseFloorPct, _)] hholds
      (by simp [runWrites])
  have hstop (e : List String) :
      Together fromSlice old i.baseline (Except.error e)
          (replaceAll old (runWrites printed id ++ [(rerunJson, some printed),
            (noiseFloorPct, some (i.singleRunNoiseFloorPct ++ "\n"))]))
        ↔ Repeats fromSlice old (runWrites printed id ++ [(rerunJson, some printed),
            (noiseFloorPct, some (i.singleRunNoiseFloorPct ++ "\n"))]) :=
    together_runWrites_iff _ hholds (by simp [runWrites])
  rw [after_invoke_other rfl, left_of_error_eq_none hfloor]
  refine elim_iff_ite (fun _ _ => hstop _) fun _ => ?_
  rw [after_invoke_other rfl]
  refine elim_iff_ite (fun _ _ => hstop _) fun _ => ?_
  rw [after_pure]
  have hpct : (Baseline.of id id i.singleRunNoiseFloorPct).noiseFloorPct
      = some (i.singleRunNoiseFloorPct ++ "\n") := if_pos rfl
  have hnew : i.baseline ⟨id, id⟩ = Baseline.of id id i.singleRunNoiseFloorPct := rfl
  refine iff_of_true ((together_ok_iff hholds hholds ?_ ?_ ?_ hnew ?_).mpr ?_) trivial
  · rfl
  · rfl
  · exact hshown
  · exact hpct.symm
  · exact hshown

/-- A run leaves the files together exactly under its condition. -/
theorem run_together_iff (hold : Settled fromSlice old) :
    After (run fromSlice i env) old (Together fromSlice old i.baseline)
      ↔ RunHolds fromSlice i env old := by
  unfold run RunHolds
  dsimp only
  rw [ite_or, after_createResultsDir]
  cases env.createDir with
  | false => exact iff_of_true (together_of_settled hold) trivial
  | true =>
    rw [if_pos rfl, if_neg (by decide : ¬ true = false), after_invoke rfl]
    refine elim_iff_ite (fun _ _ => ?_) fun hrun => ?_
    · exact together_error_iff_of_notMem [(benchRunJson, _)] (by simp) (by simp) (by simp)
    have hstop (e : List String) :
        Together fromSlice old i.baseline (Except.error e)
            (replaceAll old [(benchRunJson, env.benchRun.left)])
          ↔ Reported old ∨ Repeats fromSlice old [(benchRunJson, env.benchRun.left)] :=
      together_error_iff_of_notMem _ (by simp) (by simp) (by simp)
    have hprinted : replace old benchRunJson env.benchRun.left benchRunJson
        = some env.benchRun.printed := by
      rw [left_of_fault_eq_none hrun]
      rfl
    have hread (id : ℤ) : extractRunId fromSlice benchRunJson env.readFails
          (replace old benchRunJson env.benchRun.left) = Except.ok id
        ↔ env.readFails = false ∧ envelopeRunId fromSlice env.benchRun.printed = some id :=
      extractRunId_eq_ok_iff hprinted
    rw [after_reading_bind]
    -- the id of the first run is only known when what it printed can be read
    rcases hresult : extractRunId fromSlice benchRunJson env.readFails
      (replace old benchRunJson env.benchRun.left) with e | id
    · by_cases hfails : env.readFails = true
      · rw [if_pos hfails]
        exact hstop e
      · rw [if_neg hfails]
        rcases hid : envelopeRunId fromSlice env.benchRun.printed with _ | id
        · exact hstop e
        · have hok := (hread id).mpr ⟨Bool.eq_false_of_not_eq_true hfails, hid⟩
          rw [hresult] at hok
          cases hok
    · obtain ⟨hfails, hshown⟩ := (hread id).mp hresult
      rw [hfails, if_neg Bool.false_ne_true, hshown, left_of_fault_eq_none hrun]
      exact identified_together_iff hshown

end Run

/-! ## Both calls -/

/-- **When the files of a baseline change together**, for every way in which the steps of a
call can end, and whatever was there before. -/
theorem changes_together {fromSlice : String → Option Json} {old : BaselineDir}
    (hold : Settled fromSlice old) :
    (∀ (i : ImportInputs) (env : ImportEnv),
        After (importBaseline fromSlice i env) old (Together fromSlice old i.baseline)
          ↔ ImportHolds fromSlice i env old)
      ∧ ∀ (i : RunInputs) (env : RunEnv),
        After (run fromSlice i env) old (Together fromSlice old i.baseline)
          ↔ RunHolds fromSlice i env old :=
  ⟨fun _ _ => import_together_iff hold, fun _ _ => run_together_iff hold⟩

/-- The envelope of a run. -/
def sevenText : String := "\x7b\"data\":\x7b\"run_id\":7\x7d\x7d"

def nineText : String := "\x7b\"data\":\x7b\"run_id\":9\x7d\x7d"

def envelopeOf (id : ℕ) : Json := Json.object [("data", Json.object [("run_id", Json.nat id)])]

/-- What the two envelopes are as JSON. -/
def envelopes (text : String) : Option Json :=
  if text = sevenText then some (envelopeOf 7)
  else if text = nineText then some (envelopeOf 9)
  else none

/-- The files of a single run. -/
def sevenDir : BaselineDir
  | benchRunJson => some sevenText
  | rerunJson => some sevenText
  | runId => some (runIdText 7)
  | rerunId => some (runIdText 7)
  | noiseFloorPct => some "1\n"

theorem settled_sevenDir : Settled envelopes sevenDir := by
  refine Or.inr ⟨Baseline.of 7 7 "1", fun file => ?_⟩
  cases file with
  | benchRunJson => exact (show envelopeRunId envelopes sevenText = some 7 by decide)
  | rerunJson => exact (show envelopeRunId envelopes sevenText = some 7 by decide)
  | runId => exact readRunIdFile_runIdText _ (by decide)
  | rerunId => exact readRunIdFile_runIdText _ (by decide)
  | noiseFloorPct => rfl

/-- An import of the ninth run, with the seventh for a rerun. -/
def nineImport : ImportInputs where
  cli := ⟨"baseline/bin/stacks-bench", "data"⟩
  resultsDir := "results"
  runId := 9
  rerunId := 7
  benchLock := "bench.lock"
  singleRunNoiseFloorPct := "1"
  runId_holds := by decide
  rerunId_holds := by decide

/-- Nothing goes wrong, and the benchmark shows these runs. -/
def shows (run rerun : String) : ImportEnv where
  createDir := true
  showRun := ⟨run, none⟩
  showRerun := ⟨rerun, none⟩
  writeRunId := WriteEnd.written
  writeRerunId := WriteEnd.written
  benchList := ⟨"", none⟩
  benchShow := ⟨"", none⟩
  readFails := false
  writeNoiseFloor := WriteEnd.written
  removesNoiseFloor := true

theorem changes_together_nine :
    After (importBaseline envelopes nineImport (shows nineText sevenText)) sevenDir
      (Together envelopes sevenDir nineImport.baseline) := by
  refine ((changes_together settled_sevenDir).left nineImport (shows nineText sevenText)).mpr ?_
  have hseven : envelopeRunId envelopes sevenText = some 7 := by decide
  have hnine : envelopeRunId envelopes nineText = some 9 := by decide
  simp [ImportHolds, shows, nineImport, WriteEnd.error, hseven, hnine]

/-- **An import that is refused leaves the ids that were asked for.** The benchmark shows the
seventh run in place of the ninth. -/
theorem not_changes_together : ¬ ∀ (fromSlice : String → Option Json) (old : BaselineDir),
    Settled fromSlice old → ∀ (i : ImportInputs) (env : ImportEnv),
      After (importBaseline fromSlice i env) old (Together fromSlice old i.baseline) := by
  intro h
  have htogether := h envelopes sevenDir settled_sevenDir nineImport (shows sevenText sevenText)
  have hholds := (import_together_iff settled_sevenDir).mp htogether
  have hseven : envelopeRunId envelopes sevenText = some 7 := by decide
  simp [ImportHolds, shows, nineImport, WriteEnd.error, hseven] at hholds

end BaselineFiles
