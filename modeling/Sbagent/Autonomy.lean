import Sbagent.LedgerFiles
import Sbagent.LedgerViews
import Sbagent.Timestamps

/-!
# The gates of an unattended start

Before a session starts by itself, four gates are looked at: an operator's pause file, the
number of pull requests that are open, the age of the last session, and a breaker that
trips when session after session had nothing accepted. They are looked at in two ways. A
check reports them, and changes nothing. The enforcement reports them too, and when the
breaker trips, it writes the pause file, so that the gate stays shut until somebody has
looked.

Both are one function with a flag, and the flag is read at one place, behind everything
that decides (`breaker_cases`). The breaker itself is a window over the sessions that were
not aborted, sorted by their start; where sessions started at the same time, the one that
is first in the ledger is taken for the later one.
-/

open Fallible Jsonl

/-- The settings under `[autonomy]` that the gates read. -/
structure AutonomySettings where
  maxOpenAgentPrs : ℕ
  minSessionIntervalHours : ℕ
  /-- How many sessions in a row pause the agent; `0` disables the breaker. -/
  zeroAcceptedCircuitBreaker : ℕ

/-- A gate that is shut. -/
structure AutonomyBlock where
  gate : String
  message : String
  remediation : String
  deriving DecidableEq

/-- The files of the operator's repository that the gates read and write. -/
structure Operator where
  sessions : Option RawText
  maintain : Option RawText
  /-- The directory `.sbagent`, with the file `pause` in it, where they exist. -/
  sbagent : Option (Option RawText)
  deriving DecidableEq

namespace Operator

/-- The pause file. -/
def pause (op : Operator) : Option RawText := op.sbagent.join

/-- The repository with a directory for the pause file. -/
def withParent (op : Operator) : Operator := { op with sbagent := some op.pause }

/-- The repository with a pause file, or without one in the directory. -/
def withPause (op : Operator) (raw : Option RawText) : Operator := { op with sbagent := some raw }

end Operator

/-- A time that the clock can show, in seconds since 1970, and `0` before that. -/
abbrev ClockTime : Type := { t : ℕ // t < 2 ^ 63 }

/-- What the breaker does besides its report. -/
inductive BreakerAction where
  | reportOnly
  | writePause
  deriving DecidableEq

/-- How the ledgers are read as JSON, and what the file system does to a write. -/
structure AutonomyIo where
  sessionSerde : Serde SessionRecord
  maintSerde : Serde MaintEvent
  write : AppendIo

namespace Autonomy

/-! ## The gates -/

/-- The path of the pause file, in a message. -/
def pauseFile (root : String) : String := s!"{root}/.sbagent/pause"

def checkPauseFile (root : String) (op : Operator) : List AutonomyBlock :=
  if op.pause.isSome then
    [{ gate := "pause-file"
       message := s!"operator pause file exists at {pauseFile root}"
       remediation := s!"inspect {pauseFile root}, then remove it to allow `sbagent session "
         ++ "run` again; `sbagent maintain` remains allowed while paused" }]
  else []

def checkOpenPrLimit (settings : AutonomySettings) (history : HistoryProjection) :
    List AutonomyBlock :=
  let opened := openPrUrls history
  if settings.maxOpenAgentPrs ≤ opened.size then
    [{ gate := "max-open-agent-prs"
       message := s!"{opened.size} open bot PR(s) meets/exceeds autonomy.max_open_agent_prs="
         ++ s!"{settings.maxOpenAgentPrs}"
       remediation := "merge, close, or maintain-reconcile existing bot PRs before starting "
         ++ "another session" }]
  else []

/-- The id of a session and the time it ended, or started. -/
def sessionTime (s : SessionRecord) : Checked (Option (String × ℕ)) := do
  match ← Timestamps.Autonomy.parseIsoishUtc s.finishedAt with
  | some ts => return some (s.id, ts)
  | none =>
    let started ← Timestamps.Autonomy.parseIsoishUtc s.startedAt
    return started.map fun ts => (s.id, ts)

/-- The later of two sessions; of two that are as late, the second. -/
def laterOf (best : Option (String × ℕ)) (next : String × ℕ) : Option (String × ℕ) :=
  match best with
  | none => some next
  | some b => if next.snd < b.snd then some b else some next

def latestSessionTime (sessions : List SessionRecord) : Checked (Option (String × ℕ)) := do
  let times ← sessions.mapM sessionTime
  return times.reduceOption.foldl laterOf none

def checkSessionInterval (settings : AutonomySettings) (sessions : List SessionRecord)
    (now : ClockTime) : Checked (List AutonomyBlock) := do
  if settings.minSessionIntervalHours = 0 then return []
  match ← latestSessionTime sessions with
  | none => return []
  | some (sessionId, ts) =>
    let elapsed := now.val - ts
    let least := IntType.u64.saturate (settings.minSessionIntervalHours * 3600 : ℕ)
    if (elapsed : ℤ) < least then
      return [{
        gate := "min-session-interval"
        message := s!"latest archived session `{sessionId}` is {elapsed / 3600}h old; "
          ++ "autonomy.min_session_interval_hours requires "
          ++ s!"{settings.minSessionIntervalHours}h"
        remediation := "wait until the interval elapses or lower "
          ++ "autonomy.min_session_interval_hours deliberately" }]
    return []

def sessionHasAcceptedTarget (session : SessionRecord) : Bool :=
  session.targets.any fun t => t.status = TargetStatus.accepted

/-- The latest start comes first. -/
def compareStarted (a b : SessionRecord) : Ordering := compare b.startedAt a.startedAt

/-- The sessions that the breaker looks at. -/
def completed (sessions : List SessionRecord) : List SessionRecord :=
  sortBy compareStarted (sessions.filter fun s => s.status ≠ SessionStatus.aborted)

/-- What the pause file says. -/
def pauseBody (n : ℕ) (window : List SessionRecord) (stamp : String) : String :=
  s!"sbagent paused at {stamp}\nreason: last {n} completed sessions had zero accepted "
    ++ "targets\nsessions:\n"
    ++ "\n".intercalate (window.map fun s => s!"- {s.id}")
    ++ "\n\nRemove this file after review to allow `sbagent session run`.\n"

/-- Write the pause file, whose directory there is. -/
def writePauseFile (io : AppendIo) (root : String) (body : String) (op : Operator) :
    Fallible Unit × Operator :=
  match io.openFile with
  | Except.error e => (Except.error (s!"writing pause file {pauseFile root}" :: e), op)
  | Except.ok () =>
    let written := io.writeAll none (ofString body)
    (written.fst.context s!"writing pause file {pauseFile root}", op.withPause written.snd)

/-- The report of the breaker, with the end of its message and what is to be done. -/
def breakerBlock (n : ℕ) (message remediation : String) : AutonomyBlock where
  gate := "zero-accepted-circuit-breaker"
  message := s!"last {n} completed session(s) had zero accepted targets; " ++ message
  remediation := remediation

/-- A failure that is no panic. -/
def lift {α : Type} (x : Fallible α) : Checked α := x.mapError Stop.failed

/-- Pause the agent. -/
def pauseNow (io : AppendIo) (n : ℕ) (window : List SessionRecord) (now : ClockTime)
    (root : String) (op : Operator) : Checked (List AutonomyBlock) × Operator :=
  match io.createParent.context s!"creating pause-file parent {root}/.sbagent" with
  | Except.error e => (Except.error (Stop.failed e), op)
  | Except.ok () =>
    match Timestamps.Autonomy.formatSystemTime now.val with
    | Except.error e => (Except.error e, op.withParent)
    | Except.ok stamp =>
      let written := writePauseFile io root (pauseBody n window stamp) op.withParent
      ((lift written.fst).map fun _ =>
        [breakerBlock n s!"wrote pause file {pauseFile root}"
          s!"inspect {pauseFile root}, then remove it to resume sessions"], written.snd)

def checkZeroAcceptedBreaker (io : AppendIo) (action : BreakerAction)
    (settings : AutonomySettings) (sessions : List SessionRecord) (now : ClockTime)
    (root : String) (op : Operator) : Checked (List AutonomyBlock) × Operator :=
  let n := settings.zeroAcceptedCircuitBreaker
  let window := (completed sessions).take n
  if n = 0 then (Except.ok [], op)
  else if (completed sessions).length < n then (Except.ok [], op)
  else if window.any sessionHasAcceptedTarget then (Except.ok [], op)
  else if op.pause.isSome then
    (Except.ok [breakerBlock n s!"existing pause file preserved at {pauseFile root}"
      s!"inspect {pauseFile root} before removing it"], op)
  else if action = BreakerAction.reportOnly then
    (Except.ok [breakerBlock n s!"session run would write pause file {pauseFile root}"
      ("inspect recent sessions before starting another run, or disable "
        ++ "autonomy.zero_accepted_circuit_breaker deliberately")], op)
  else pauseNow io n window now root op

/-! ## The two ways to look at them -/

def readOperatorProjection (io : AutonomyIo) (root : String) (op : Operator) :
    Fallible HistoryProjection := do
  let sessions ← (readSessionLedger io.sessionSerde s!"{root}/sessions.jsonl"
    op.sessions).context "reading sessions.jsonl for history projection"
  let maintain ← (readMaintLedger io.maintSerde s!"{root}/maintain.jsonl"
    op.maintain).context "reading maintain.jsonl for history projection"
  return HistoryProjection.fromLedgers sessions.records maintain.records

/-- The gates that only read. -/
def readingGates (io : AutonomyIo) (settings : AutonomySettings) (now : ClockTime) (root : String)
    (op : Operator) : Checked (HistoryProjection × List AutonomyBlock) := do
  let history ← lift ((readOperatorProjection io root op).context
    "reading operator ledgers for autonomy gates")
  let interval ← checkSessionInterval settings history.sessions now
  return (history, checkPauseFile root op ++ checkOpenPrLimit settings history ++ interval)

def checkOperatorGatesInner (io : AutonomyIo) (settings : AutonomySettings) (now : ClockTime)
    (action : BreakerAction) (root : String) (op : Operator) :
    Checked (List AutonomyBlock) × Operator :=
  match readingGates io settings now root op with
  | Except.error e => (Except.error e, op)
  | Except.ok (history, blocks) =>
    let breaker := checkZeroAcceptedBreaker io.write action settings history.sessions now root op
    (breaker.fst.map fun b => blocks ++ b, breaker.snd)

/-- Report the gates. -/
def checkOperatorGates (io : AutonomyIo) (settings : AutonomySettings) (now : ClockTime)
    (root : String) (op : Operator) : Checked (List AutonomyBlock) × Operator :=
  checkOperatorGatesInner io settings now BreakerAction.reportOnly root op

/-- Report the gates, and write the pause file if the breaker trips. -/
def enforceOperatorGates (io : AutonomyIo) (settings : AutonomySettings) (now : ClockTime)
    (root : String) (op : Operator) : Checked (List AutonomyBlock) × Operator :=
  checkOperatorGatesInner io settings now BreakerAction.writePause root op

/-! ## Sorted by a key, with ties in order -/

/-- Two sorted lists that have the same elements of each key in the same order are the
same. -/
theorem eq_of_sorted_of_ties {α κ : Type} [DecidableEq κ] {key : α → κ} {r : α → α → Prop}
    (hanti : ∀ a b, r a b → r b a → key a = key b) {l l' : List α} (h : l.Pairwise r)
    (h' : l'.Pairwise r)
    (hties : ∀ k, (l.filter fun a => key a = k) = l'.filter fun a => key a = k) : l = l' := by
  have hmem : ∀ a, a ∈ l ↔ a ∈ l' := by
    intro a
    have hfilter := congrArg (a ∈ ·) (hties (key a))
    simpa using hfilter
  induction l generalizing l' with
  | nil =>
    exact (List.eq_nil_iff_forall_not_mem.mpr fun a ha => by simpa using (hmem a).mpr ha).symm
  | cons a as ih =>
    cases l' with
    | nil => simpa using (hmem a).mp List.mem_cons_self
    | cons b bs =>
      obtain ⟨hfirst, has⟩ := List.pairwise_cons.mp h
      obtain ⟨hfirst', hbs⟩ := List.pairwise_cons.mp h'
      -- each of the first elements is in the other list, behind or at its first element
      have hkey : key a = key b := by
        obtain rfl | hb := List.mem_cons.mp ((hmem b).mpr List.mem_cons_self)
        · rfl
        · obtain rfl | ha := List.mem_cons.mp ((hmem a).mp List.mem_cons_self)
          · rfl
          · exact hanti a b (hfirst b hb) (hfirst' a ha)
      obtain rfl : a = b := by
        have hhead := hties (key b)
        simp only [List.filter_cons, hkey, decide_true, if_true] at hhead
        exact (List.cons.inj hhead).left
      have hrest : ∀ k, (as.filter fun a => key a = k) = bs.filter fun a => key a = k := by
        intro k
        have hk := hties k
        rw [List.filter_cons, List.filter_cons] at hk
        split_ifs at hk with hak
        · exact (List.cons.inj hk).right
        · exact hk
      refine congrArg (a :: ·) (ih has hbs hrest fun c => ?_)
      have hfilter := congrArg (c ∈ ·) (hrest (key c))
      simpa using hfilter

/-! ## What the breaker is for -/

/-- Sessions with the latest start first; of those that started at one time, in the order of
the ledger. -/
structure LatestFirst (sessions ordered : List SessionRecord) : Prop where
  sorted : ordered.Pairwise fun a b => (compareStarted a b).isLE = true
  ties : ∀ time, (ordered.filter fun s => s.startedAt = time)
    = sessions.filter fun s => s.startedAt = time

/-- The sessions that were not aborted. -/
def counted (sessions : List SessionRecord) : List SessionRecord :=
  sessions.filter fun s => s.status ≠ SessionStatus.aborted

/-- **Of so many sessions, the latest that were not aborted, none has an accepted target.** -/
def ZeroAccepted (n : ℕ) (sessions : List SessionRecord) : Prop :=
  ∃ window older, LatestFirst (counted sessions) (window ++ older) ∧ window.length = n
    ∧ ∀ s ∈ window, ∀ t ∈ s.targets, t.status ≠ TargetStatus.accepted

instance : Std.TransCmp compareStarted :=
  inferInstanceAs (Std.TransCmp fun a b : SessionRecord =>
    (compareOn fun s : SessionRecord => s.startedAt) b a)

section Window

variable {sessions sessions' ordered ordered' : List SessionRecord} {n : ℕ}

theorem compareStarted_eq_iff {a b : SessionRecord} :
    compareStarted a b = Ordering.eq ↔ b.startedAt = a.startedAt :=
  Std.LawfulEqOrd.compare_eq_iff_eq

/-- The order of the code is such an order. -/
theorem latestFirst_completed (sessions : List SessionRecord) :
    LatestFirst (counted sessions) (completed sessions) where
  sorted := pairwise_sortBy _
  ties := by
    intro time
    refine filter_sortBy_of_pairwise (List.pairwise_of_forall_mem_list fun a ha b hb => ?_)
    have htime : b.startedAt = a.startedAt := by
      have hat := of_decide_eq_true (List.mem_filter.mp ha).right
      have hbt := of_decide_eq_true (List.mem_filter.mp hb).right
      exact hbt.trans hat.symm
    rw [compareStarted_eq_iff.mpr htime]
    rfl

/-- There is one such order. -/
theorem LatestFirst.unique (h : LatestFirst sessions ordered)
    (h' : LatestFirst sessions ordered') : ordered = ordered' := by
  refine eq_of_sorted_of_ties (fun a b hab hba => ?_) h.sorted h'.sorted fun time =>
    (h.ties time).trans (h'.ties time).symm
  exact (compareStarted_eq_iff.mp (Std.OrientedCmp.isLE_antisymm hab hba)).symm

/-- Where no two sessions started at one time, the order of the ledger does not matter. -/
theorem completed_eq_of_perm (hperm : sessions.Perm sessions')
    (hdistinct : ((counted sessions).map fun s => s.startedAt).Nodup) :
    completed sessions = completed sessions' := by
  have hfilter : (completed sessions).filter (fun _ => true)
      = (completed sessions').filter fun _ => true := by
    refine filter_sortBy_eq_of_perm (hperm.filter _) fun a ha b hb _ _ heq => ?_
    exact List.inj_on_of_nodup_map hdistinct ha hb (compareStarted_eq_iff.mp heq).symm
  rwa [List.filter_true, List.filter_true] at hfilter

theorem not_sessionHasAcceptedTarget {s : SessionRecord} : sessionHasAcceptedTarget s = false
    ↔ ∀ t ∈ s.targets, t.status ≠ TargetStatus.accepted := by
  simp [sessionHasAcceptedTarget]

/-- **What the code looks at is what it is about.** -/
theorem zeroAccepted_iff : ZeroAccepted n sessions ↔ n ≤ (completed sessions).length
    ∧ ((completed sessions).take n).any sessionHasAcceptedTarget = false := by
  rw [List.any_eq_false]
  constructor
  · rintro ⟨window, older, hordered, hlength, hnone⟩
    rw [(latestFirst_completed sessions).unique hordered, List.length_append, ← hlength,
      List.take_left]
    refine ⟨Nat.le_add_right _ _, fun s hs => ?_⟩
    rw [Bool.not_eq_true]
    exact not_sessionHasAcceptedTarget.mpr (hnone s hs)
  · rintro ⟨henough, hnone⟩
    refine ⟨(completed sessions).take n, (completed sessions).drop n, ?_,
      List.length_take_of_le henough, fun s hs => ?_⟩
    · rw [List.take_append_drop]
      exact latestFirst_completed sessions
    · have hs := hnone s hs
      rw [Bool.not_eq_true] at hs
      exact not_sessionHasAcceptedTarget.mp hs

instance : Decidable (ZeroAccepted n sessions) := decidable_of_iff _ zeroAccepted_iff.symm

end Window

/-! ## What the breaker does -/

section Breaker

variable {io : AppendIo} {action : BreakerAction} {settings : AutonomySettings}
  {sessions : List SessionRecord} {now : ClockTime} {n : ℕ} {root : String} {op : Operator}

/-- The gates that are reported. -/
def gatesOf (report : Checked (List AutonomyBlock)) : Checked (List String) :=
  report.map fun blocks => blocks.map fun b => b.gate

/-- The breaker is not disabled, and it trips. -/
def Trips (settings : AutonomySettings) (sessions : List SessionRecord) : Prop :=
  settings.zeroAcceptedCircuitBreaker ≠ 0
    ∧ ZeroAccepted settings.zeroAcceptedCircuitBreaker sessions

instance : Decidable (Trips settings sessions) := inferInstanceAs (Decidable (_ ∧ _))

/-- The pause file can be written. -/
structure CanWrite (io : AppendIo) : Prop where
  createParent : io.createParent = Except.ok ()
  openFile : io.openFile = Except.ok ()
  cutOff : io.cutOff = none

/-- A time that the clock can show is written without a panic. -/
theorem exists_formatSystemTime (now : ClockTime) :
    ∃ stamp, Timestamps.Autonomy.formatSystemTime now.val = Except.ok stamp := by
  obtain ⟨now, h⟩ := now
  have hcast : IntType.i64.cast now = now :=
    IntType.cast_of_holds (IntType.holds_i64_iff.mpr (by omega))
  have hdays : Timestamps.Autonomy.civilFromDays ((now : ℤ) / 86400)
      = Except.ok (Civil.fromDays ((now : ℤ) / 86400)) :=
    Timestamps.civilParts_ok ⟨by decide, by decide⟩ (by omega)
  unfold Timestamps.Autonomy.formatSystemTime Timestamps.formatWith
  rw [hcast]
  dsimp only
  rw [hdays]
  exact ⟨_, rfl⟩

/-- **What the breaker does**, in four cases. The flag is of account in the last two. -/
theorem breaker_cases (io : AppendIo) (action : BreakerAction) (settings : AutonomySettings)
    (sessions : List SessionRecord) (now : ClockTime) (root : String) (op : Operator) :
    ¬ Trips settings sessions ∧ checkZeroAcceptedBreaker io action settings sessions now root op
        = (Except.ok [], op)
      ∨ Trips settings sessions ∧ (op.pause.isSome = true ∨ action = BreakerAction.reportOnly)
        ∧ (∃ block, checkZeroAcceptedBreaker io action settings sessions now root op
            = (Except.ok [block], op) ∧ block.gate = "zero-accepted-circuit-breaker")
      ∨ Trips settings sessions ∧ op.pause = none ∧ action = BreakerAction.writePause
        ∧ ∃ window, checkZeroAcceptedBreaker io action settings sessions now root op
          = pauseNow io settings.zeroAcceptedCircuitBreaker window now root op := by
  unfold Trips
  rw [zeroAccepted_iff]
  unfold checkZeroAcceptedBreaker
  dsimp only
  split_ifs with hzero hfew haccepted hpause haction
  · exact Or.inl ⟨fun h => h.left hzero, rfl⟩
  · exact Or.inl ⟨fun h => absurd h.right.left (not_le.mpr hfew), rfl⟩
  · exact Or.inl ⟨fun h => absurd haccepted (Bool.eq_false_iff.mp h.right.right), rfl⟩
  all_goals
    have htrips := And.intro hzero (And.intro (not_lt.mp hfew) (Bool.eq_false_iff.mpr haccepted))
  · exact Or.inr (Or.inl ⟨htrips, Or.inl hpause, _, rfl, rfl⟩)
  · exact Or.inr (Or.inl ⟨htrips, Or.inr haction, _, rfl, rfl⟩)
  · refine Or.inr (Or.inr ⟨htrips, by simpa using hpause, ?_, _, rfl⟩)
    cases action with
    | reportOnly => exact absurd rfl haction
    | writePause => rfl

/-- Pausing reports the breaker and writes the file, if it can be written, and fails if it
cannot. -/
theorem pauseNow_cases (io : AppendIo) (n : ℕ) (window : List SessionRecord)
    (now : ClockTime) (root : String) (op : Operator) :
    CanWrite io ∧ (∃ block, (pauseNow io n window now root op).fst = Except.ok [block]
        ∧ block.gate = "zero-accepted-circuit-breaker")
        ∧ (pauseNow io n window now root op).snd.pause.isSome = true
      ∨ ¬ CanWrite io ∧ ∃ e, (pauseNow io n window now root op).fst
        = Except.error (Stop.failed e) := by
  obtain ⟨stamp, hstamp⟩ := exists_formatSystemTime now
  unfold pauseNow
  rw [hstamp]
  cases hparent : io.createParent with
  | error e =>
    refine Or.inr ⟨fun h => ?_, _, rfl⟩
    rw [h.createParent] at hparent
    cases hparent
  | ok _ =>
    unfold writePauseFile
    cases hopen : io.openFile with
    | error e =>
      refine Or.inr ⟨fun h => ?_, _, rfl⟩
      rw [h.openFile] at hopen
      cases hopen
    | ok _ =>
      unfold AppendIo.writeAll
      cases hcut : io.cutOff with
      | some cut =>
        refine Or.inr ⟨fun h => ?_, _, rfl⟩
        rw [h.cutOff] at hcut
        cases hcut
      | none => exact Or.inl ⟨⟨hparent, hopen, hcut⟩, ⟨_, rfl, rfl⟩, rfl⟩

end Breaker

/-! ## What both ways report -/

section Agree

variable {io : AutonomyIo} {settings : AutonomySettings} {now : ClockTime} {root : String}
  {op op' : Operator} {history history' : HistoryProjection} {blocks : List AutonomyBlock}

/-- The pause file is to be written: the breaker trips, and there is none. -/
structure PauseDue (io : AutonomyIo) (settings : AutonomySettings) (now : ClockTime)
    (root : String) (op : Operator) : Prop where
  pause : op.pause = none
  trips : ∃ history blocks, readingGates io settings now root op = Except.ok (history, blocks)
    ∧ Trips settings history.sessions

/-- **The check and the enforcement agree**, and differ only in the pause file. -/
structure GatesAgree (io : AutonomyIo) (settings : AutonomySettings) (now : ClockTime)
    (root : String) (op : Operator) : Prop where
  /-- The check writes nothing. -/
  checkWrites : (checkOperatorGates io settings now root op).snd = op
  /-- Both report the same gates, unless the pause file has to be written and cannot be. -/
  same : gatesOf (enforceOperatorGates io settings now root op).fst
      = gatesOf (checkOperatorGates io settings now root op).fst
    ∨ PauseDue io settings now root op ∧ ¬ CanWrite io.write
      ∧ ∃ e, (enforceOperatorGates io settings now root op).fst = Except.error (Stop.failed e)
  /-- The enforcement writes only when the breaker trips, -/
  writes : (enforceOperatorGates io settings now root op).snd ≠ op →
    PauseDue io settings now root op
  /-- never where there is a pause file, -/
  keeps : op.pause.isSome = true → (enforceOperatorGates io settings now root op).snd = op
  /-- and when it trips, there is one afterwards. -/
  paused : PauseDue io settings now root op → CanWrite io.write →
    (enforceOperatorGates io settings now root op).snd.pause.isSome = true
  /-- The breaker is reported exactly when it trips. -/
  trips : ∀ blocks, (checkOperatorGates io settings now root op).fst = Except.ok blocks →
    ∃ history, readOperatorProjection io root op = Except.ok history
      ∧ ("zero-accepted-circuit-breaker" ∈ blocks.map (fun b => b.gate)
        ↔ Trips settings history.sessions)

theorem lift_ok_iff {α : Type} {x : Fallible α} {a : α} :
    lift x = Except.ok a ↔ x = Except.ok a := by
  cases x <;> simp [lift, Except.mapError]

theorem gate_of_mem_checkPauseFile {b : AutonomyBlock} (h : b ∈ checkPauseFile root op) :
    b.gate = "pause-file" := by
  unfold checkPauseFile at h
  split_ifs at h
  · rw [List.mem_singleton.mp h]
  · cases h

theorem gate_of_mem_checkOpenPrLimit {b : AutonomyBlock}
    (h : b ∈ checkOpenPrLimit settings history) : b.gate = "max-open-agent-prs" := by
  unfold checkOpenPrLimit at h
  dsimp only at h
  split_ifs at h
  · rw [List.mem_singleton.mp h]
  · cases h

theorem gate_of_mem_checkSessionInterval {sessions : List SessionRecord}
    (h : checkSessionInterval settings sessions now = Except.ok blocks) {b : AutonomyBlock}
    (hb : b ∈ blocks) : b.gate = "min-session-interval" := by
  unfold checkSessionInterval at h
  split_ifs at h
  · cases h
    cases hb
  · obtain ⟨latest, -, h⟩ := checked_bind_ok_iff.mp h
    cases latest with
    | none =>
      cases h
      cases hb
    | some latest =>
      dsimp only at h
      split_ifs at h
      · cases h
        rw [List.mem_singleton.mp hb]
      · cases h
        cases hb

/-- The gates that only read are not the breaker, and read the ledgers. -/
theorem readingGates_ok (h : readingGates io settings now root op = Except.ok (history, blocks)) :
    readOperatorProjection io root op = Except.ok history
      ∧ "zero-accepted-circuit-breaker" ∉ blocks.map fun b => b.gate := by
  obtain ⟨read, hread, h⟩ := checked_bind_ok_iff.mp h
  obtain ⟨interval, hinterval, h⟩ := checked_bind_ok_iff.mp h
  obtain ⟨rfl, rfl⟩ := Prod.mk.inj (Except.ok.inj h)
  refine ⟨context_ok_iff.mp (lift_ok_iff.mp hread), fun hmem => ?_⟩
  obtain ⟨b, hb, hgate⟩ := List.mem_map.mp hmem
  obtain hb | hb := List.mem_append.mp hb
  · obtain hb | hb := List.mem_append.mp hb
    · rw [gate_of_mem_checkPauseFile hb] at hgate
      exact absurd hgate (by decide)
    · rw [gate_of_mem_checkOpenPrLimit hb] at hgate
      exact absurd hgate (by decide)
  · rw [gate_of_mem_checkSessionInterval hinterval hb] at hgate
    exact absurd hgate (by decide)

/-- Where nothing is in the way, the gates that read are open. -/
theorem readingGates_clear (now : ClockTime)
    (hread : readOperatorProjection io root op = Except.ok history) (hpause : op.pause = none)
    (hopen : (openPrUrls history).size < settings.maxOpenAgentPrs)
    (hinterval : settings.minSessionIntervalHours = 0) :
    readingGates io settings now root op = Except.ok (history, []) := by
  have hnotPaused : checkPauseFile root op = [] := by
    unfold checkPauseFile
    exact if_neg (by rw [hpause]; exact Bool.false_ne_true)
  have hfewOpen : checkOpenPrLimit settings history = [] := by
    unfold checkOpenPrLimit
    exact if_neg (not_le.mpr hopen)
  have hnoInterval : checkSessionInterval settings history.sessions now = Except.ok [] :=
    if_pos hinterval
  refine checked_bind_ok_iff.mpr ⟨_, lift_ok_iff.mpr (context_ok_iff.mpr hread), ?_⟩
  refine checked_bind_ok_iff.mpr ⟨[], hnoInterval, ?_⟩
  rw [hnotPaused, hfewOpen]
  rfl

theorem inner_error {e : Stop} (h : readingGates io settings now root op = Except.error e)
    (action : BreakerAction) :
    checkOperatorGatesInner io settings now action root op = (Except.error e, op) := by
  unfold checkOperatorGatesInner
  rw [h]

theorem inner_ok (h : readingGates io settings now root op = Except.ok (history, blocks))
    (action : BreakerAction) : checkOperatorGatesInner io settings now action root op
      = ((checkZeroAcceptedBreaker io.write action settings history.sessions now root
            op).fst.map fun b => blocks ++ b,
          (checkZeroAcceptedBreaker io.write action settings history.sessions now root
            op).snd) := by
  unfold checkOperatorGatesInner
  rw [h]

/-- The gates that are shut, the breaker last. -/
def gatesShut (io : AutonomyIo) (settings : AutonomySettings) (now : ClockTime) (root : String)
    (op : Operator) : Checked (List String) :=
  (readingGates io settings now root op).map fun read =>
    read.snd.map (fun b => b.gate)
      ++ if Trips settings read.fst.sessions then ["zero-accepted-circuit-breaker"] else []

/-- Where nothing is to be written, the flag is of no account. -/
theorem inner_of_not_due (action : BreakerAction)
    (h : PauseDue io settings now root op → action = BreakerAction.reportOnly) :
    (checkOperatorGatesInner io settings now action root op).snd = op
      ∧ gatesOf (checkOperatorGatesInner io settings now action root op).fst
        = gatesShut io settings now root op := by
  unfold gatesShut
  cases hreading : readingGates io settings now root op with
  | error e =>
    rw [inner_error hreading]
    exact ⟨rfl, rfl⟩
  | ok read =>
    obtain ⟨history, blocks⟩ := read
    rw [inner_ok hreading]
    obtain ⟨htrips, heq⟩ | ⟨htrips, -, block, heq, hgate⟩ | ⟨htrips, hpause, haction, -⟩ :=
      breaker_cases io.write action settings history.sessions now root op
    · rw [heq]
      refine ⟨rfl, congrArg Except.ok ?_⟩
      dsimp only
      rw [List.map_append, if_neg htrips]
      rfl
    · rw [heq]
      refine ⟨rfl, congrArg Except.ok ?_⟩
      dsimp only
      rw [List.map_append, if_pos htrips, ← hgate]
      rfl
    · rw [h ⟨hpause, history, blocks, hreading, htrips⟩] at haction
      cases haction

/-- Where the pause file is to be written, it is, or the enforcement fails. -/
theorem enforce_of_due (h : PauseDue io settings now root op) :
    CanWrite io.write ∧ gatesOf (enforceOperatorGates io settings now root op).fst
        = gatesShut io settings now root op
      ∧ (enforceOperatorGates io settings now root op).snd.pause.isSome = true
    ∨ ¬ CanWrite io.write ∧ ∃ e, (enforceOperatorGates io settings now root op).fst
      = Except.error (Stop.failed e) := by
  obtain ⟨hpause, history, blocks, hreading, htrips⟩ := h
  unfold enforceOperatorGates gatesShut
  rw [inner_ok hreading, hreading]
  obtain ⟨hno, -⟩ | ⟨-, hor, -⟩ | ⟨-, -, -, window, heq⟩ :=
    breaker_cases io.write BreakerAction.writePause settings history.sessions now root op
  · exact absurd htrips hno
  · rw [hpause] at hor
    obtain hsome | haction := hor
    · cases hsome
    · cases haction
  · rw [heq]
    obtain ⟨hcan, ⟨block, hblock, hgate⟩, hwritten⟩ | ⟨hcannot, e, he⟩ :=
      pauseNow_cases io.write settings.zeroAcceptedCircuitBreaker window now root op
    · refine Or.inl ⟨hcan, ?_, hwritten⟩
      rw [hblock]
      refine congrArg Except.ok ?_
      dsimp only
      rw [List.map_append, if_pos htrips, ← hgate]
      rfl
    · refine Or.inr ⟨hcannot, e, ?_⟩
      rw [he]
      rfl

theorem check_eq (io : AutonomyIo) (settings : AutonomySettings) (now : ClockTime)
    (root : String) (op : Operator) : (checkOperatorGates io settings now root op).snd = op
    ∧ gatesOf (checkOperatorGates io settings now root op).fst
      = gatesShut io settings now root op :=
  inner_of_not_due BreakerAction.reportOnly fun _ => rfl

/-- The breaker is among the gates exactly when it trips. -/
theorem mem_gatesShut {gates : List String}
    (h : gatesShut io settings now root op = Except.ok gates) :
    ∃ history, readOperatorProjection io root op = Except.ok history
      ∧ ("zero-accepted-circuit-breaker" ∈ gates ↔ Trips settings history.sessions) := by
  unfold gatesShut at h
  cases hreading : readingGates io settings now root op with
  | error e =>
    rw [hreading] at h
    cases h
  | ok read =>
    obtain ⟨history, blocks⟩ := read
    obtain ⟨hread, hother⟩ := readingGates_ok hreading
    rw [hreading] at h
    obtain rfl := Except.ok.inj h
    refine ⟨history, hread, ?_⟩
    rw [List.mem_append, or_iff_right hother]
    split_ifs with htrips
    · exact iff_of_true (List.mem_singleton_self _) htrips
    · exact iff_of_false List.not_mem_nil htrips

theorem gatesAgree (io : AutonomyIo) (settings : AutonomySettings) (now : ClockTime)
    (root : String) (op : Operator) : GatesAgree io settings now root op := by
  obtain ⟨hcheck, hgates⟩ := check_eq io settings now root op
  have hnot : ¬ PauseDue io settings now root op →
      (enforceOperatorGates io settings now root op).snd = op
        ∧ gatesOf (enforceOperatorGates io settings now root op).fst
          = gatesShut io settings now root op := fun hdue =>
    inner_of_not_due BreakerAction.writePause fun h => absurd h hdue
  constructor
  case checkWrites => exact hcheck
  case same =>
    rw [hgates]
    -- only a write that fails makes the two differ
    by_cases hdue : PauseDue io settings now root op
    · obtain ⟨-, hsame, -⟩ | ⟨hcannot, hfails⟩ := enforce_of_due hdue
      · exact Or.inl hsame
      · exact Or.inr ⟨hdue, hcannot, hfails⟩
    · exact Or.inl (hnot hdue).right
  case writes =>
    intro hwrites
    by_contra hdue
    exact hwrites (hnot hdue).left
  case keeps =>
    intro hpause
    refine (hnot fun hdue => ?_).left
    rw [hdue.pause] at hpause
    cases hpause
  case paused =>
    intro hdue hcan
    obtain ⟨-, -, hwritten⟩ | ⟨hcannot, -⟩ := enforce_of_due hdue
    · exact hwritten
    · exact absurd hcan hcannot
  case trips =>
    intro blocks hblocks
    have hshut : gatesShut io settings now root op
        = Except.ok (blocks.map fun b => b.gate) := by
      rw [← hgates, hblocks]
      rfl
    exact mem_gatesShut hshut

/-! ## Lines in any order -/

theorem sessions_eq (h : readOperatorProjection io root op = Except.ok history) :
    history.sessions
      = records (SessionRecord.fromLedgerLine io.sessionSerde) (op.sessions.getD []) := by
  unfold readOperatorProjection at h
  simp only [bind_ok_iff, context_ok_iff] at h
  obtain ⟨sessions, hsessions, maintain, -, h⟩ := h
  obtain rfl := Except.ok.inj h
  exact records_eq_of_readAll hsessions

/-- The same lines in two ledgers are the same sessions, in some order. -/
theorem sessions_perm (h : readOperatorProjection io root op = Except.ok history)
    (h' : readOperatorProjection io root op' = Except.ok history')
    (hlines : (lines (op.sessions.getD [])).Perm (lines (op'.sessions.getD []))) :
    history.sessions.Perm history'.sessions := by
  rw [sessions_eq h, sessions_eq h']
  exact hlines.filterMap _

theorem trips_iff_of_perm {sessions sessions' : List SessionRecord}
    (hperm : sessions.Perm sessions')
    (hdistinct : ((counted sessions).map fun s => s.startedAt).Nodup) :
    Trips settings sessions ↔ Trips settings sessions' := by
  unfold Trips
  rw [zeroAccepted_iff, zeroAccepted_iff, completed_eq_of_perm hperm hdistinct]

end Agree

/-- **The gates agree, and the breaker does not depend on the order of the lines.** The check
and the enforcement report the same gates, and only the enforcement writes, when the breaker
trips and there is no pause file; it fails only where the file cannot be written. The breaker
is a matter of the sessions, not of their order in the ledger, when no two that count started
at one time. -/
theorem gates_agree (io : AutonomyIo) (settings : AutonomySettings) (now : ClockTime)
    (root : String) (op : Operator) : GatesAgree io settings now root op
      ∧ ∀ op' history history', readOperatorProjection io root op = Except.ok history →
        readOperatorProjection io root op' = Except.ok history' →
        (lines (op.sessions.getD [])).Perm (lines (op'.sessions.getD [])) →
        ((counted history.sessions).map fun s => s.startedAt).Nodup →
        (Trips settings history.sessions ↔ Trips settings history'.sessions) :=
  ⟨gatesAgree io settings now root op, fun _ _ _ h h' hlines hdistinct =>
    trips_iff_of_perm (sessions_perm h h' hlines) hdistinct⟩

/-- A repository with no ledgers. -/
def freshOperator : Operator := ⟨none, none, none⟩

/-- A repository with a session that failed in triage. -/
def triageOperator : Operator := ⟨some (line failedInTriageText), none, none⟩

/-- The beginning of 2026. -/
def newYear : ClockTime := ⟨1767225600, by decide⟩

/-- A file system with the given outcome of writes. -/
def triageIo (write : AppendIo) : AutonomyIo := ⟨failedInTriageSerde, seenOpenSerde, write⟩

theorem isSome_decode_render (texts : List String) : (decode (render texts)).isSome = true := by
  induction texts using List.reverseRecOn with
  | nil => rfl
  | append_singleton texts text ih =>
    rw [render, List.flatMap_append, List.flatMap_singleton, decode_append_line]
    exact ih

/-- What is written in the ledger of the sessions is what the gates read. -/
theorem read_of_writes {serde : Serde SessionRecord} {texts : List String}
    {rs : List SessionRecord}
    (hwrites : List.Forall₂ (Writes (SessionRecord.fromLedgerLine serde)) texts rs)
    (write : AppendIo) (sbagent : Option (Option RawText)) :
    readOperatorProjection ⟨serde, seenOpenSerde, write⟩ "op"
        ⟨some (render texts), none, sbagent⟩
      = Except.ok (HistoryProjection.fromLedgers rs []) := by
  obtain ⟨rep, hrep, hsessions⟩ :=
    readAll_some_iff.mpr ⟨isSome_decode_render texts, records_render hwrites⟩
  refine bind_ok_iff.mpr ⟨rep, context_ok_iff.mpr hrep, ?_⟩
  rw [hsessions]
  rfl

theorem read_triageOperator (write : AppendIo) (sbagent : Option (Option RawText)) :
    readOperatorProjection (triageIo write) "op" { triageOperator with sbagent := sbagent }
      = Except.ok (HistoryProjection.fromLedgers [failedInTriage] []) := by
  have hreads := SessionRecord.fromLedgerLine_readsLine failedInTriage_keeps
  have hline := hreads.reads "" rfl
  rw [String.empty_append] at hline
  have hwrites : List.Forall₂ (Writes (SessionRecord.fromLedgerLine failedInTriageSerde))
      [failedInTriageText] [failedInTriage] :=
    List.Forall₂.cons ⟨hreads.isLine, hreads.notBlank, hline⟩ List.Forall₂.nil
  have hread := read_of_writes hwrites write sbagent
  rw [render, List.flatMap_singleton] at hread
  exact hread

/-- A session that failed on the day after. -/
def failedNextDay : SessionRecord :=
  { failedInTriage with
    id := "20260612-172955"
    artifactBranch := "session/20260612-172955"
    startedAt := "2026-06-12T17:29:55Z"
    finishedAt := "2026-06-12T18:00:00Z" }

/-- Its record as `sessions.jsonl` holds it. -/
def failedNextDayText : String :=
  "\x7b\"kind\":\"session_completed\",\"schema_version\":3,\"id\":\"20260612-172955\","
    ++ "\"artifact_branch\":\"session/20260612-172955\",\"artifact_sha\":\"cafebabe\","
    ++ "\"started_at\":\"2026-06-12T17:29:55Z\",\"finished_at\":\"2026-06-12T18:00:00Z\","
    ++ "\"status\":\"failed\",\"failure_phase\":\"triage\",\"sbagent_version\":\"0.3.0\","
    ++ "\"range\":\x7b\"network\":\"mainnet\"\x7d,\"baseline_run_ids\":[],"
    ++ "\"phase_durations_secs\":\x7b\x7d,\"targets\":[]\x7d"

/-- How the two records are written and read. -/
def twoDaysSerde : Serde SessionRecord where
  toJson r := Except.ok (if r = failedInTriage then failedInTriageText else failedNextDayText)
  fromStr s :=
    if s = failedInTriageText then Except.ok failedInTriageJson
    else if s = failedNextDayText then
      Except.ok (failedInTriageJson.insert "id" (Json.string "20260612-172955"))
    else bail "expected value"
  fromValue v :=
    match v.get "id" with
    | some (Json.string "20260612-172955") => Except.ok failedNextDay
    | _ => Except.ok failedInTriage

/-- A ledger of such records, in whatever order. -/
def twoDaysOperator (texts : List String) : Operator := ⟨some (render texts), none, none⟩

set_option maxRecDepth 8000 in
theorem failedNextDayText_isObject : IsObjectText failedNextDayText := by
  unfold failedNextDayText
  constructor
  · simp only [String.toList_append]
    iterate 6 rw [String.toList_ofList]
    decide
  · simp only [String.toList_append]
    iterate 6 rw [String.toList_ofList]
    rfl
  · simp only [String.toList_append]
    iterate 6 rw [String.toList_ofList]
    rfl

theorem writes_failedInTriage :
    Writes (SessionRecord.fromLedgerLine twoDaysSerde) failedInTriageText failedInTriage :=
  ⟨failedInTriageText_isObject.isLine, failedInTriageText_isObject.not_isBlank, by decide +kernel⟩

theorem writes_failedNextDay :
    Writes (SessionRecord.fromLedgerLine twoDaysSerde) failedNextDayText failedNextDay :=
  ⟨failedNextDayText_isObject.isLine, failedNextDayText_isObject.not_isBlank, by decide +kernel⟩

theorem sessions_twoDaysOperator (texts : List String) :
    (twoDaysOperator texts).sessions.getD [] = render texts := rfl

/-- The lines of such a ledger in another order. -/
theorem perm_twoDaysOperator {texts texts' : List String}
    (hsub : texts ⊆ [failedInTriageText, failedNextDayText]) (hperm : texts.Perm texts') :
    (lines ((twoDaysOperator texts).sessions.getD [])).Perm
      (lines ((twoDaysOperator texts').sessions.getD [])) := by
  have hlines : ∀ texts ⊆ [failedInTriageText, failedNextDayText], ∀ text ∈ texts, IsLine text :=
    fun texts hsub text htext => List.forall_mem_cons.mpr ⟨writes_failedInTriage.isLine,
      List.forall_mem_singleton.mpr writes_failedNextDay.isLine⟩ text (hsub htext)
  rw [sessions_twoDaysOperator, sessions_twoDaysOperator, lines_render (hlines _ hsub),
    lines_render (hlines _ (List.Subset.trans hperm.symm.subset hsub))]
  exact hperm.map ofString

/-- A ledger with two sessions that failed, and one with the same lines the other way round in a
repository that is paused. -/
theorem gates_agree_twoDays :
    GatesAgree ⟨twoDaysSerde, seenOpenSerde, AppendIo.smooth⟩ ⟨10, 0, 2⟩ newYear "op"
        (twoDaysOperator [failedInTriageText, failedNextDayText])
      ∧ (Trips ⟨10, 0, 2⟩ [failedInTriage, failedNextDay]
        ↔ Trips ⟨10, 0, 2⟩ [failedNextDay, failedInTriage])
      ∧ Trips ⟨10, 0, 2⟩ [failedInTriage, failedNextDay] := by
  have h := gates_agree ⟨twoDaysSerde, seenOpenSerde, AppendIo.smooth⟩ ⟨10, 0, 2⟩ newYear "op"
    (twoDaysOperator [failedInTriageText, failedNextDayText])
  refine ⟨h.left, h.right
    ((twoDaysOperator [failedNextDayText, failedInTriageText]).withPause (some (line "paused")))
    (HistoryProjection.fromLedgers [failedInTriage, failedNextDay] [])
    (HistoryProjection.fromLedgers [failedNextDay, failedInTriage] [])
    (read_of_writes (.cons writes_failedInTriage (.cons writes_failedNextDay .nil)) _ _)
    (read_of_writes (.cons writes_failedNextDay (.cons writes_failedInTriage .nil)) _ _)
    (perm_twoDaysOperator (List.Subset.refl _) (List.Perm.swap _ _ [])) (by decide +kernel),
    by decide +kernel⟩

/-- A disk on which no file can be created. -/
def readOnlyDisk : AppendIo := ⟨Except.ok (), bail "Read-only file system", none⟩

theorem readingGates_triageOperator (write : AppendIo) (n : ℕ) :
    readingGates (triageIo write) ⟨10, 0, n⟩ newYear "op" triageOperator
      = Except.ok (HistoryProjection.fromLedgers [failedInTriage] [], []) :=
  readingGates_clear newYear (read_triageOperator write none) rfl
    (show (openPrUrls (HistoryProjection.fromLedgers [failedInTriage] [])).size < 10 by
      decide +kernel) rfl

theorem trips_failedInTriage : Trips ⟨10, 0, 1⟩ [failedInTriage] := by
  decide +kernel

/-- No session at all is enough for a breaker of none, which is disabled. And where the pause
file cannot be written, the check reports the gate, and the enforcement fails. -/
theorem gates_differ :
    (ZeroAccepted 0 [failedInTriage]
        ∧ gatesOf (checkOperatorGates (triageIo AppendIo.smooth) ⟨10, 0, 0⟩ newYear "op"
          triageOperator).fst = Except.ok [])
      ∧ gatesOf (checkOperatorGates (triageIo readOnlyDisk) ⟨10, 0, 1⟩ newYear "op"
          triageOperator).fst = Except.ok ["zero-accepted-circuit-breaker"]
      ∧ ∃ e, (enforceOperatorGates (triageIo readOnlyDisk) ⟨10, 0, 1⟩ newYear "op"
          triageOperator).fst = Except.error (Stop.failed e) := by
  refine ⟨⟨by decide +kernel, ?_⟩, ?_, ?_⟩
  · rw [(check_eq _ _ _ _ _).right, gatesShut, readingGates_triageOperator]
    rfl
  · rw [(check_eq _ _ _ _ _).right, gatesShut, readingGates_triageOperator]
    refine congrArg Except.ok ?_
    dsimp only
    rw [List.map_nil, List.nil_append]
    exact if_pos trips_failedInTriage
  · obtain ⟨hcan, -⟩ | ⟨-, hfails⟩ := enforce_of_due ⟨rfl, _, _,
      readingGates_triageOperator readOnlyDisk 1, trips_failedInTriage⟩
    · cases hcan.openFile
    · exact hfails

end Autonomy
