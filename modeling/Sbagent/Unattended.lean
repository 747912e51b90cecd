import Sbagent.Autonomy
import Sbagent.Lasting
import Sbagent.MaintainPush
import Sbagent.StableSort

/-!
# Sessions that start by themselves

A timer starts a session whenever it goes off, and the gates decide whether the session
may go on. What they look at is what earlier sessions have left: the ledger of the archived
sessions, and the one of what became of their pull requests. So the gates are a control
loop, and what they promise is a matter of runs: of starts, sessions that are archived,
observations of GitHub, and an operator who pauses the agent and removes the pause file.

The breaker is a latch. It looks at the ledger and at nothing else, so when it has tripped
it trips again at every start, until a session that has found something is archived
(`latched`). The pause file that it writes says that removing it resumes the sessions. With
no session running, nothing that the operator does to the file does.

A gate sees a session only when that is archived. So both the number of sessions in a row
that find nothing (`barren_bounded`) and the number of open pull requests
(`open_bounded`) go beyond their limits by what the sessions come to that run at the
same time.

A session counts as running from its start until it is archived. A line is added to a ledger
as a whole.
-/

open Fallible Jsonl

namespace Autonomy

/-! ## One session more in the ledger -/

section More

variable {sessions ordered : List SessionRecord} {r s : SessionRecord} {n k : ℕ}

/-- A session that the breaker counts, or would, without an accepted target. -/
def FindsNothing (r : SessionRecord) : Prop :=
  r.status = SessionStatus.aborted ∨ sessionHasAcceptedTarget r = false

/-- What holds of the last sessions holds of fewer. -/
theorem ZeroAccepted.mono (h : ZeroAccepted n sessions) (hk : k ≤ n) :
    ZeroAccepted k sessions := by
  obtain ⟨window, older, hordered, hlength, hnone⟩ := h
  refine ⟨window.take k, window.drop k ++ older, ?_, ?_, fun s hs => hnone s ?_⟩
  · rwa [← List.append_assoc, List.take_append_drop]
  · rw [List.length_take, hlength, min_eq_left hk]
  · exact List.mem_of_mem_take hs

/-- A session that was not aborted counts. -/
theorem counted_append (hr : r.status ≠ SessionStatus.aborted) :
    counted (sessions ++ [r]) = counted sessions ++ [r] := by
  unfold counted
  rw [List.filter_append, List.filter_cons_of_pos (by simpa using hr), List.filter_nil]

/-- A session that was aborted does not. -/
theorem counted_append_aborted (hr : r.status = SessionStatus.aborted) :
    counted (sessions ++ [r]) = counted sessions := by
  unfold counted
  rw [List.filter_append, List.filter_cons_of_neg (by simp [hr]), List.filter_nil,
    List.append_nil]

/-- A session that started later than all others comes first. -/
theorem LatestFirst.cons (h : LatestFirst sessions ordered)
    (hlate : ∀ s ∈ sessions, s.startedAt < r.startedAt) :
    LatestFirst (sessions ++ [r]) (r :: ordered) where
  sorted := by
    refine List.pairwise_cons.mpr ⟨fun s hs => ?_, h.sorted⟩
    have hmem : s ∈ sessions := by
      have htime := h.ties s.startedAt
      have hs' : s ∈ ordered.filter fun x => x.startedAt = s.startedAt :=
        List.mem_filter.mpr ⟨hs, decide_eq_true rfl⟩
      rw [htime] at hs'
      exact (List.mem_filter.mp hs').left
    have hlt : compareStarted r s = Ordering.lt := if_pos (hlate s hmem)
    rw [hlt]
    rfl
  ties := by
    intro time
    by_cases htime : r.startedAt = time
    · have hnone : (ordered.filter fun s => s.startedAt = time) = [] := by
        rw [h.ties time]
        refine List.filter_eq_nil_iff.mpr fun s hs heq => ?_
        have hlt := hlate s hs
        rw [htime, of_decide_eq_true heq] at hlt
        exact lt_irrefl _ hlt
      rw [List.filter_append, List.filter_cons_of_pos (by simpa using htime),
        List.filter_cons_of_pos (by simpa using htime), ← h.ties time, hnone]
      rfl
    · rw [List.filter_append, List.filter_cons_of_neg (by simpa using htime),
        List.filter_cons_of_neg (by simpa using htime), List.filter_nil, List.append_nil,
        h.ties time]

/-- Where a session stands among those in order. -/
theorem LatestFirst.insert (h : LatestFirst sessions ordered) (r : SessionRecord) :
    ∃ a b, ordered = a ++ b ∧ LatestFirst (sessions ++ [r]) (a ++ r :: b) := by
  -- the sort is stable: the new session goes behind those that started no earlier
  let p := fun s : SessionRecord => (compareStarted s r).isLE
  have hsplit : ordered = ordered.takeWhile p ++ ordered.dropWhile p :=
    (List.takeWhile_append_dropWhile).symm
  have hbefore : ∀ s ∈ ordered.takeWhile p, p s = true :=
    fun s hs => List.mem_takeWhile_imp hs
  have hbehind : ∀ s ∈ ordered.dropWhile p, (compareStarted s r).isLE = false := by
    have hdrop : (ordered.dropWhile p).Pairwise fun a b => (compareStarted a b).isLE = true :=
      h.sorted.sublist (List.dropWhile_sublist p)
    cases hcases : ordered.dropWhile p with
    | nil => exact fun s hs => absurd hs List.not_mem_nil
    | cons first rest =>
      rw [hcases] at hdrop
      have hfirst : (compareStarted first r).isLE = false := by
        have hne : ordered.dropWhile p ≠ [] := hcases ▸ List.cons_ne_nil first rest
        have hnot := List.head_dropWhile_not p hne
        simpa only [hcases, List.head_cons] using hnot
      intro s hs
      obtain rfl | hs := List.mem_cons.mp hs
      · exact hfirst
      · rw [Bool.eq_false_iff] at hfirst ⊢
        exact fun hle => hfirst
          (Std.TransCmp.isLE_trans ((List.pairwise_cons.mp hdrop).left s hs) hle)
  have hgt : ∀ s ∈ ordered.dropWhile p, (compareStarted r s).isLE = true := by
    intro s hs
    have hfalse := hbehind s hs
    have hswap : compareStarted r s = (compareStarted s r).swap := Std.OrientedCmp.eq_swap
    rw [hswap]
    cases hcmp : compareStarted s r with
    | lt =>
      rw [hcmp] at hfalse
      cases hfalse
    | eq =>
      rw [hcmp] at hfalse
      cases hfalse
    | gt => rfl
  refine ⟨ordered.takeWhile p, ordered.dropWhile p, hsplit, ?_, fun time => ?_⟩
  · have hsorted := h.sorted
    rw [hsplit, List.pairwise_append] at hsorted
    obtain ⟨htake, hdrop, hacross⟩ := hsorted
    refine List.pairwise_append.mpr
      ⟨htake, List.pairwise_cons.mpr ⟨hgt, hdrop⟩, fun s hs t ht => ?_⟩
    obtain rfl | ht := List.mem_cons.mp ht
    · exact hbefore s hs
    · exact hacross s hs t ht
  · rw [List.filter_append, List.filter_append, ← h.ties time]
    -- among ties the new session is the last, as it is in the file
    by_cases htime : r.startedAt = time
    · have hnone : ((ordered.dropWhile p).filter fun s => s.startedAt = time) = [] := by
        refine List.filter_eq_nil_iff.mpr fun s hs heq => ?_
        have hfalse := hbehind s hs
        rw [compareStarted_eq_iff.mpr (htime.trans (of_decide_eq_true heq).symm)] at hfalse
        cases hfalse
      have hall : (ordered.filter fun s => s.startedAt = time)
          = (ordered.takeWhile p).filter fun s => s.startedAt = time := by
        conv_lhs => rw [hsplit, List.filter_append, hnone, List.append_nil]
      rw [List.filter_cons_of_pos (by simpa using htime),
        List.filter_cons_of_pos (by simpa using htime), List.filter_nil, hnone, hall]
    · rw [List.filter_cons_of_neg (by simpa using htime),
        List.filter_cons_of_neg (by simpa using htime), List.filter_nil, List.append_nil,
        ← List.filter_append, ← hsplit]

/-- The first ones after one was put in are among the first ones before, and that one. -/
theorem mem_take_insert {α : Type} {a b : List α} {x y : α} {n : ℕ}
    (h : y ∈ (a ++ x :: b).take n) : y = x ∨ y ∈ (a ++ b).take n := by
  rw [List.take_append] at h
  obtain h | h := List.mem_append.mp h
  · exact Or.inr (by rw [List.take_append]; exact List.mem_append_left _ h)
  · cases hn : n - a.length with
    | zero =>
      rw [hn] at h
      cases h
    | succ m =>
      rw [hn, List.take_succ_cons] at h
      obtain rfl | h := List.mem_cons.mp h
      · exact Or.inl rfl
      · refine Or.inr ?_
        rw [List.take_append, hn]
        exact List.mem_append_right _ (List.take_subset_take_left b (Nat.le_succ m) h)

/-- **A session that finds nothing never opens the breaker**, wherever it stands. -/
theorem ZeroAccepted.append (h : ZeroAccepted n sessions) (hr : FindsNothing r) :
    ZeroAccepted n (sessions ++ [r]) := by
  obtain ⟨window, older, hordered, hlength, hnone⟩ := h
  by_cases haborted : r.status = SessionStatus.aborted
  · exact ⟨window, older, by rwa [counted_append_aborted haborted], hlength, hnone⟩
  have hbarren := not_sessionHasAcceptedTarget.mp (hr.resolve_left haborted)
  obtain ⟨a, b, heq, hinsert⟩ := hordered.insert r
  refine ⟨(a ++ r :: b).take n, (a ++ r :: b).drop n, ?_, ?_, fun s hs => ?_⟩
  · rwa [List.take_append_drop, counted_append haborted]
  · have hlen : (a ++ b).length = (window ++ older).length := congrArg List.length heq.symm
    simp only [List.length_append] at hlen
    simp only [List.length_take, List.length_append, List.length_cons]
    omega
  · obtain rfl | hs := mem_take_insert hs
    · exact hbarren
    · refine hnone s ?_
      rw [← heq] at hs
      rwa [← hlength, List.take_left] at hs

/-- A session that finds nothing, and is the latest that counts, makes for one more. -/
theorem ZeroAccepted.succ (h : ZeroAccepted n sessions) (hr : r.status ≠ SessionStatus.aborted)
    (hbarren : sessionHasAcceptedTarget r = false)
    (hlate : ∀ s ∈ counted sessions, s.startedAt < r.startedAt) :
    ZeroAccepted (n + 1) (sessions ++ [r]) := by
  obtain ⟨window, older, hordered, hlength, hnone⟩ := h
  refine ⟨r :: window, older, ?_, congrArg (· + 1) hlength, fun s hs => ?_⟩
  · rw [counted_append hr]
    exact hordered.cons hlate
  · obtain rfl | hs := List.mem_cons.mp hs
    · exact not_sessionHasAcceptedTarget.mp hbarren
    · exact hnone s hs

end More

end Autonomy

/-- What the starts have in common: how the ledgers are read, and the settings. -/
structure Site where
  sessionSerde : Serde SessionRecord
  maintSerde : Serde MaintEvent
  settings : AutonomySettings
  root : String

namespace Site

variable (site : Site)

/-- The files as the gates find them. -/
def io (write : AppendIo) : AutonomyIo := ⟨site.sessionSerde, site.maintSerde, write⟩

/-- The sessions in the ledger. -/
def sessions (op : Operator) : List SessionRecord :=
  records (SessionRecord.fromLedgerLine site.sessionSerde) (op.sessions.getD [])

/-- The observations in the ledger. -/
def events (op : Operator) : List MaintEvent :=
  records (MaintEvent.fromLedgerLine site.maintSerde) (op.maintain.getD [])

/-- What both ledgers hold. -/
def ledgers (op : Operator) : Ledgers := ⟨site.sessions op, site.events op⟩

/-- Add the record of a session. -/
def archive (op : Operator) (r : SessionRecord) : Option Operator :=
  (appendStep (appendLedger site.sessionSerde AppendIo.smooth s!"{site.root}/sessions.jsonl")
    op.sessions r).map fun file => { op with sessions := file }

/-- Add observations. -/
def observe (op : Operator) (left : List MaintEvent) : Option Operator :=
  (Runs.run (appendStep (appendEvent site.maintSerde AppendIo.smooth
    s!"{site.root}/maintain.jsonl")) op.maintain left).map fun file =>
      { op with maintain := file }

/-- The ledger says of a session what was written. -/
def ReadsBack (r : SessionRecord) : Prop :=
  ∀ text, site.sessionSerde.toJson r = Except.ok text → site.sessionSerde.Keeps 3 r text

/-- The ledger says of an observation what was written. -/
def ReadsBackEvent (e : MaintEvent) : Prop :=
  ∀ text, site.maintSerde.toJson e = Except.ok text → site.maintSerde.Keeps 1 e text

end Site

/-- The repository of the operator, and what is running. -/
structure Unattended where
  op : Operator
  /-- The sessions that were started and are not archived. -/
  running : ℕ
  /-- The starts that the gates have let in. -/
  admitted : ℕ
  deriving DecidableEq

namespace Unattended

inductive Event where
  /-- The timer goes off. The other checks before a start pass, or one of them does not. -/
  | start (now : ClockTime) (write : AppendIo) (passes : Bool)
  /-- A start for which the operator has turned off all checks. -/
  | startUnchecked
  | archive (r : SessionRecord)
  /-- A call, and those of its events that are left in the ledger. -/
  | maintain (round : Round) (left : List MaintEvent)
  /-- The operator writes the pause file, or removes it. -/
  | pause (raw : Option RawText)

def step (site : Site) (w : Unattended) : Event → Option Unattended
  | Event.start now write passes =>
    let report := Autonomy.enforceOperatorGates (site.io write) site.settings now site.root w.op
    match report.fst with
    | Except.ok [] =>
      if passes then
        some { op := report.snd, running := w.running + 1, admitted := w.admitted + 1 }
      else some { w with op := report.snd }
    | _ => some { w with op := report.snd }
  | Event.startUnchecked => some { w with running := w.running + 1 }
  | Event.archive r =>
    if w.running = 0 then none
    else (site.archive w.op r).map fun op => { w with op := op, running := w.running - 1 }
  | Event.maintain round left =>
    if left.Sublist (round.news (site.events w.op)) then
      (site.observe w.op left).map fun op => { w with op := op }
    else none
  | Event.pause raw => some { w with op := w.op.withPause raw }

/-! ## What is added to the ledgers -/

section Adding

variable {site : Site} {op op' : Operator} {r : SessionRecord}

/-- A line that is appended is read as one more record. -/
theorem records_line {ρ : Type} {read : String → Fallible ρ} {text : String} {r : ρ}
    {file : Option RawText} (hreads : ReadsLine read text r) (hends : EndsBlank file) :
    records read (file.getD [] ++ line text) = records read (file.getD []) ++ [r]
      ∧ EndsBlank (some (file.getD [] ++ line text)) := by
  have hextends : Extends (readAll read "" file)
      (readAll read "" (some (file.getD [] ++ line text))) r :=
    (extends_append_line_iff hreads).mpr hends
  obtain ⟨rep, rep', hrep, hrep', hrecords⟩ := hextends
  have hdecode : (decode (file.getD [])).isSome = true := by
    cases file with
    | none => rfl
    | some raw => exact (hends raw rfl).left
  refine ⟨?_, endsBlank_append_line hdecode text⟩
  rw [← records_eq_of_readAll hrep, ← hrecords, records_eq_of_readAll hrep']
  rfl

/-- **An archived session is added to the sessions**, where the ledger ends blank. -/
theorem archive_cases (h : site.archive op r = some op') :
    op'.maintain = op.maintain ∧ op'.sbagent = op.sbagent
      ∧ (EndsBlank op.sessions → site.ReadsBack r →
        site.sessions op' = site.sessions op ++ [r] ∧ EndsBlank op'.sessions) := by
  obtain ⟨file, hfile, rfl⟩ := Option.map_eq_some_iff.mp h
  refine ⟨rfl, rfl, fun hends hback => ?_⟩
  unfold appendStep at hfile
  split at hfile
  case h_1 file' hok =>
    obtain rfl := Option.some.inj hfile
    obtain ⟨text, htext, rfl⟩ := appendLedger_ok hok
    unfold Site.sessions
    exact records_line (SessionRecord.fromLedgerLine_readsLine (hback text htext)) hends
  case h_2 => cases hfile

/-- Events that are appended are read as so many more records. -/
theorem records_events {left : List MaintEvent} {path : String} {file file' : Option RawText}
    (hback : ∀ e ∈ left, site.ReadsBackEvent e) (hends : EndsBlank file)
    (hrun : Runs.run (appendStep (appendEvent site.maintSerde AppendIo.smooth path)) file left
      = some file') :
    records (MaintEvent.fromLedgerLine site.maintSerde) (file'.getD [])
        = records (MaintEvent.fromLedgerLine site.maintSerde) (file.getD []) ++ left
      ∧ EndsBlank file' := by
  induction left generalizing file with
  | nil =>
    obtain rfl : file = file' := Option.some.inj hrun
    exact ⟨(List.append_nil _).symm, hends⟩
  | cons e left ih =>
    obtain ⟨hback₁, hback⟩ := List.forall_mem_cons.mp hback
    obtain ⟨file₁, hstep, hrest⟩ := Runs.run_cons_eq_some_iff.mp hrun
    unfold appendStep at hstep
    split at hstep
    case h_2 => cases hstep
    case h_1 file₂ hok =>
      obtain rfl := Option.some.inj hstep
      obtain ⟨hvalid, text, htext, rfl⟩ := appendEvent_ok hok
      obtain ⟨hone, hends₁⟩ :=
        records_line (MaintEvent.fromLedgerLine_readsLine hvalid (hback₁ text htext)) hends
      obtain ⟨hall, hends'⟩ := ih hback hends₁ hrest
      refine ⟨?_, hends'⟩
      rw [hall, Option.getD_some, hone, List.append_assoc, List.singleton_append]

/-- **Observations are added to the observations.** -/
theorem observe_cases {left : List MaintEvent} (h : site.observe op left = some op') :
    op'.sessions = op.sessions ∧ op'.sbagent = op.sbagent
      ∧ (EndsBlank op.maintain → (∀ e ∈ left, site.ReadsBackEvent e) →
        site.events op' = site.events op ++ left ∧ EndsBlank op'.maintain) := by
  obtain ⟨file, hfile, rfl⟩ := Option.map_eq_some_iff.mp h
  refine ⟨rfl, rfl, fun hends hback => ?_⟩
  unfold Site.events
  exact records_events hback hends hfile

end Adding

/-! ## What a start does -/

section Start

open Autonomy

variable {site : Site} {op : Operator} {write : AppendIo} {now : ClockTime}

/-- What the gates have seen of a repository when they let a start in. -/
structure LetIn (site : Site) (op : Operator) : Prop where
  notPaused : op.pause = none
  fewOpen : (openPrUrls (HistoryProjection.fromLedgers (site.sessions op)
    (site.events op))).size < site.settings.maxOpenAgentPrs
  notTripped : ¬ Trips site.settings (site.sessions op)

/-- Pausing touches the pause file, and no ledger. -/
theorem pauseNow_ledgers (io : AppendIo) (n : ℕ) (window : List SessionRecord)
    (now : ClockTime) (root : String) (op : Operator) :
    (pauseNow io n window now root op).snd.sessions = op.sessions
      ∧ (pauseNow io n window now root op).snd.maintain = op.maintain := by
  have hwrite : ∀ body, (writePauseFile io root body op.withParent).snd.sessions = op.sessions
      ∧ (writePauseFile io root body op.withParent).snd.maintain = op.maintain := by
    intro body
    unfold writePauseFile
    cases io.openFile with
    | error e => exact ⟨rfl, rfl⟩
    | ok _ => exact ⟨rfl, rfl⟩
  unfold pauseNow
  cases io.createParent.context s!"creating pause-file parent {root}/.sbagent" with
  | error e => exact ⟨rfl, rfl⟩
  | ok _ =>
    cases Timestamps.Autonomy.formatSystemTime now.val with
    | error e => exact ⟨rfl, rfl⟩
    | ok stamp => exact hwrite _

/-- What the gates read is what the ledgers hold. -/
theorem readOperatorProjection_eq {io : AutonomyIo} {history : HistoryProjection}
    (hsessions : io.sessionSerde = site.sessionSerde) (hmaint : io.maintSerde = site.maintSerde)
    (h : readOperatorProjection io site.root op = Except.ok history) :
    history = HistoryProjection.fromLedgers (site.sessions op) (site.events op) := by
  unfold readOperatorProjection at h
  simp only [bind_ok_iff, context_ok_iff] at h
  obtain ⟨sessions, hread, maintain, hread', h⟩ := h
  obtain rfl := Except.ok.inj h
  unfold Site.sessions Site.events
  rw [← hsessions, ← hmaint, ← records_eq_of_readAll hread, ← records_eq_of_readAll hread']

/-- A start that meets no gate is let in. -/
theorem letIn_of_readingGates {history : HistoryProjection}
    (h : readingGates (site.io write) site.settings now site.root op = Except.ok (history, []))
    (hnot : ¬ Trips site.settings history.sessions) : LetIn site op := by
  obtain ⟨read, hread, h⟩ := checked_bind_ok_iff.mp h
  obtain ⟨interval, -, h⟩ := checked_bind_ok_iff.mp h
  obtain ⟨rfl, hblocks⟩ := Prod.mk.inj (Except.ok.inj h)
  obtain rfl : read = HistoryProjection.fromLedgers (site.sessions op) (site.events op) :=
    readOperatorProjection_eq rfl rfl (context_ok_iff.mp (lift_ok_iff.mp hread))
  obtain ⟨hblocks, -⟩ := List.append_eq_nil_iff.mp hblocks
  obtain ⟨hpause, hopen⟩ := List.append_eq_nil_iff.mp hblocks
  refine ⟨?_, ?_, hnot⟩
  · unfold checkPauseFile at hpause
    split_ifs at hpause with hsome
    exact Option.not_isSome_iff_eq_none.mp hsome
  · unfold checkOpenPrLimit at hopen
    dsimp only at hopen
    split_ifs at hopen with hle
    exact not_le.mp hle

/-- **A start leaves the ledgers alone**, and is let in only past all gates. -/
theorem enforce_cases (site : Site) (op : Operator) (now : ClockTime) (write : AppendIo) :
    (enforceOperatorGates (site.io write) site.settings now site.root op).snd.sessions
        = op.sessions
      ∧ (enforceOperatorGates (site.io write) site.settings now site.root op).snd.maintain
        = op.maintain
      ∧ ((enforceOperatorGates (site.io write) site.settings now site.root op).fst
          = Except.ok [] → LetIn site op) := by
  unfold enforceOperatorGates
  cases hreading : readingGates (site.io write) site.settings now site.root op with
  | error e =>
    rw [inner_error hreading]
    exact ⟨rfl, rfl, fun h => nomatch h⟩
  | ok read =>
    obtain ⟨history, blocks⟩ := read
    rw [inner_ok hreading]
    obtain ⟨hnot, heq⟩ | ⟨-, -, block, heq, -⟩ | ⟨-, -, -, window, heq⟩ :=
      breaker_cases (site.io write).write BreakerAction.writePause site.settings
        history.sessions now site.root op
    · rw [heq]
      refine ⟨rfl, rfl, fun h => ?_⟩
      obtain rfl : blocks = [] := (List.append_nil blocks).symm.trans (Except.ok.inj h)
      exact letIn_of_readingGates hreading hnot
    · rw [heq]
      refine ⟨rfl, rfl, fun h => ?_⟩
      have hnil : blocks ++ [block] = [] := Except.ok.inj h
      exact absurd hnil (by simp)
    · rw [heq]
      obtain ⟨hsessions, hmaintain⟩ := pauseNow_ledgers (site.io write).write
        site.settings.zeroAcceptedCircuitBreaker window now site.root op
      refine ⟨hsessions, hmaintain, fun h => ?_⟩
      obtain ⟨-, ⟨block, hblock, -⟩, -⟩ | ⟨-, e, he⟩ := pauseNow_cases (site.io write).write
        site.settings.zeroAcceptedCircuitBreaker window now site.root op
      · rw [hblock] at h
        have hnil : blocks ++ [block] = [] := Except.ok.inj h
        exact absurd hnil (by simp)
      · rw [he] at h
        cases h

/-- A ledger that ends blank can be read. -/
theorem exists_readAll {ρ : Type} {file : Option RawText} (read : String → Fallible ρ)
    (context : String) (h : EndsBlank file) : ∃ rep, readAll read context file = Except.ok rep := by
  cases file with
  | none => exact ⟨_, rfl⟩
  | some raw =>
    obtain ⟨rep, hrep, -⟩ := readAll_some_iff.mpr ⟨(h raw rfl).left, rfl⟩
    exact ⟨rep, hrep⟩

/-- Ledgers that end blank can be read. -/
theorem readOperatorProjection_of_ends (hends : EndsBlank op.sessions)
    (hendsMaintain : EndsBlank op.maintain) :
    readOperatorProjection (site.io write) site.root op
      = Except.ok (HistoryProjection.fromLedgers (site.sessions op) (site.events op)) := by
  obtain ⟨sessions, hsessions⟩ : ∃ rep, readSessionLedger (site.io write).sessionSerde
      s!"{site.root}/sessions.jsonl" op.sessions = Except.ok rep := exists_readAll _ _ hends
  obtain ⟨maintain, hmaintain⟩ : ∃ rep, readMaintLedger (site.io write).maintSerde
      s!"{site.root}/maintain.jsonl" op.maintain = Except.ok rep :=
    exists_readAll _ _ hendsMaintain
  unfold readOperatorProjection Site.sessions Site.events
  rw [show records (SessionRecord.fromLedgerLine site.sessionSerde) (op.sessions.getD [])
      = sessions.records from (records_eq_of_readAll hsessions).symm,
    show records (MaintEvent.fromLedgerLine site.maintSerde) (op.maintain.getD [])
      = maintain.records from (records_eq_of_readAll hmaintain).symm]
  refine bind_ok_iff.mpr ⟨sessions, context_ok_iff.mpr hsessions, ?_⟩
  exact bind_ok_iff.mpr ⟨maintain, context_ok_iff.mpr hmaintain, rfl⟩

/-- **Where no gate is shut, a start is let in**, and nothing is written. -/
theorem enforce_of_letIn (h : LetIn site op) (hends : EndsBlank op.sessions)
    (hendsMaintain : EndsBlank op.maintain)
    (hinterval : site.settings.minSessionIntervalHours = 0) :
    enforceOperatorGates (site.io write) site.settings now site.root op
      = (Except.ok [], op) := by
  unfold enforceOperatorGates
  rw [inner_ok (readingGates_clear now (readOperatorProjection_of_ends hends hendsMaintain)
    h.notPaused h.fewOpen hinterval)]
  obtain ⟨-, heq⟩ | ⟨htrips, -⟩ | ⟨htrips, -⟩ :=
    breaker_cases (site.io write).write BreakerAction.writePause site.settings
      (HistoryProjection.fromLedgers (site.sessions op) (site.events op)).sessions now
      site.root op
  · rw [heq]
    rfl
  · exact absurd htrips h.notTripped
  · exact absurd htrips h.notTripped

end Start

/-! ## What a step does -/

/-- What a step does to the ledgers and to the sessions that are running. -/
inductive Effect (site : Site) (w w' : Unattended) : Event → Prop where
  | letIn {now : ClockTime} {write : AppendIo} {passes : Bool} (hgates : LetIn site w.op)
      (hsessions : w'.op.sessions = w.op.sessions) (hmaintain : w'.op.maintain = w.op.maintain)
      (hrunning : w'.running = w.running + 1) (hadmitted : w'.admitted = w.admitted + 1) :
      Effect site w w' (Event.start now write passes)
  | refused {now : ClockTime} {write : AppendIo} {passes : Bool}
      (hsessions : w'.op.sessions = w.op.sessions) (hmaintain : w'.op.maintain = w.op.maintain)
      (hrunning : w'.running = w.running) (hadmitted : w'.admitted = w.admitted) :
      Effect site w w' (Event.start now write passes)
  | unchecked (hop : w'.op = w.op) (hrunning : w'.running = w.running + 1)
      (hadmitted : w'.admitted = w.admitted) : Effect site w w' Event.startUnchecked
  | archived {r : SessionRecord} (hop : site.archive w.op r = some w'.op)
      (hrunning : w.running = w'.running + 1) (hadmitted : w'.admitted = w.admitted) :
      Effect site w w' (Event.archive r)
  | observed {round : Round} {left : List MaintEvent}
      (hsub : left.Sublist (round.news (site.events w.op)))
      (hop : site.observe w.op left = some w'.op) (hrunning : w'.running = w.running)
      (hadmitted : w'.admitted = w.admitted) : Effect site w w' (Event.maintain round left)
  | paused {raw : Option RawText} (hsessions : w'.op.sessions = w.op.sessions)
      (hmaintain : w'.op.maintain = w.op.maintain) (hrunning : w'.running = w.running)
      (hadmitted : w'.admitted = w.admitted) : Effect site w w' (Event.pause raw)

theorem effect_of_step {site : Site} {w w' : Unattended} {e : Event}
    (h : step site w e = some w') : Effect site w w' e := by
  unfold step at h
  cases e with
  | start now write passes =>
    obtain ⟨hsessions, hmaintain, hgates⟩ := enforce_cases site w.op now write
    dsimp only at h
    split at h
    · split_ifs at h
      · obtain rfl := Option.some.inj h
        exact Effect.letIn (hgates ‹_›) hsessions hmaintain rfl rfl
      · obtain rfl := Option.some.inj h
        exact Effect.refused hsessions hmaintain rfl rfl
    · obtain rfl := Option.some.inj h
      exact Effect.refused hsessions hmaintain rfl rfl
  | startUnchecked =>
    obtain rfl := Option.some.inj h
    exact Effect.unchecked rfl rfl rfl
  | archive r =>
    dsimp only at h
    split_ifs at h with hzero
    obtain ⟨op, hop, rfl⟩ := Option.map_eq_some_iff.mp h
    exact Effect.archived hop (Nat.succ_pred_eq_of_ne_zero hzero).symm rfl
  | maintain round left =>
    dsimp only at h
    split_ifs at h with hsub
    obtain ⟨op, hop, rfl⟩ := Option.map_eq_some_iff.mp h
    exact Effect.observed hsub hop rfl rfl
  | pause raw =>
    obtain rfl := Option.some.inj h
    exact Effect.paused rfl rfl rfl rfl

/-- A start is let in. -/
def LetsIn (site : Site) (w : Unattended) (e : Event) : Prop :=
  ∃ w', step site w e = some w' ∧ w.admitted < w'.admitted

/-- Only a start that is checked can be. -/
theorem isStart_of_letsIn {site : Site} {w : Unattended} {e : Event} (h : LetsIn site w e) :
    ∃ now write, e = Event.start now write true := by
  obtain ⟨w', hstep, hlt⟩ := h
  cases effect_of_step hstep with
  | @letIn now write passes =>
    cases passes with
    | true => exact ⟨now, write, rfl⟩
    | false =>
      -- one of the other checks does not pass, and nothing is counted
      refine absurd hlt ?_
      unfold step at hstep
      dsimp only at hstep
      split at hstep
      · obtain rfl := Option.some.inj hstep
        exact lt_irrefl _
      · obtain rfl := Option.some.inj hstep
        exact lt_irrefl _
  | refused _ _ _ hadmitted => exact absurd hlt hadmitted.le.not_gt
  | unchecked _ _ hadmitted => exact absurd hlt hadmitted.le.not_gt
  | archived _ _ hadmitted => exact absurd hlt hadmitted.le.not_gt
  | observed _ _ _ hadmitted => exact absurd hlt hadmitted.le.not_gt
  | paused _ _ _ hadmitted => exact absurd hlt hadmitted.le.not_gt

/-- A start that is let in is counted as running. -/
theorem step_of_letIn {site : Site} {w : Unattended} {now : ClockTime} {write : AppendIo}
    (h : LetIn site w.op) (hends : EndsBlank w.op.sessions)
    (hendsMaintain : EndsBlank w.op.maintain)
    (hinterval : site.settings.minSessionIntervalHours = 0) :
    step site w (Event.start now write true)
      = some { w with running := w.running + 1, admitted := w.admitted + 1 } := by
  unfold step
  dsimp only
  rw [enforce_of_letIn h hends hendsMaintain hinterval]
  rfl

/-! ## The breaker is a latch -/

section Latch

open Autonomy

variable {site : Site} {w w' : Unattended} {es : List Event} {m : ℕ}

/-- The sessions depend on their ledger only. -/
theorem sessions_congr {op op' : Operator} (h : op'.sessions = op.sessions) :
    site.sessions op' = site.sessions op := by
  unfold Site.sessions
  rw [h]

/-- The breaker has tripped. -/
structure Tripped (site : Site) (w : Unattended) : Prop where
  ends : EndsBlank w.op.sessions
  trips : Trips site.settings (site.sessions w.op)

/-- The breaker depends on the ledger of the sessions only. -/
theorem Tripped.of_eq (h : Tripped site w) (heq : w'.op.sessions = w.op.sessions) :
    Tripped site w' :=
  ⟨heq ▸ h.ends, (sessions_congr heq).symm ▸ h.trips⟩

/-- Once the breaker has tripped, an event leaves it so and lets nobody in. -/
theorem tripped_step {e : Event} (h : Tripped site w)
    (hbarren : ∀ r, e = Event.archive r → site.ReadsBack r ∧ FindsNothing r)
    (hstep : step site w e = some w') :
    Tripped site w' ∧ w'.admitted = w.admitted
      ∧ (w.running = 0 → e ≠ Event.startUnchecked →
        w'.running = 0 ∧ w'.op.sessions = w.op.sessions) := by
  cases effect_of_step hstep with
  | letIn hgates => exact absurd h.trips hgates.notTripped
  | refused hsessions _ hrunning hadmitted =>
    exact ⟨h.of_eq hsessions, hadmitted, fun hzero _ => ⟨hrunning.trans hzero, hsessions⟩⟩
  | unchecked hop _ hadmitted =>
    exact ⟨h.of_eq (congrArg Operator.sessions hop), hadmitted, fun _ hne => absurd rfl hne⟩
  | archived hop hrunning hadmitted =>
    obtain ⟨hback, hnothing⟩ := hbarren _ rfl
    obtain ⟨hsessions, hends⟩ := (archive_cases hop).right.right h.ends hback
    refine ⟨⟨hends, h.trips.left, ?_⟩, hadmitted, fun hzero => ?_⟩
    · rw [hsessions]
      exact h.trips.right.append hnothing
    · rw [hzero] at hrunning
      cases hrunning
  | observed _ hop hrunning hadmitted =>
    have hsessions := (observe_cases hop).left
    exact ⟨h.of_eq hsessions, hadmitted, fun hzero _ => ⟨hrunning.trans hzero, hsessions⟩⟩
  | paused hsessions _ hrunning hadmitted =>
    exact ⟨h.of_eq hsessions, hadmitted, fun hzero _ => ⟨hrunning.trans hzero, hsessions⟩⟩

/-- **The breaker is a latch.** When it has tripped, no start is let in until a session with
an accepted target is archived, whatever the operator does to the pause file. And when no
session is running, none will be, unless the checks are turned off for it. -/
theorem latched (hrun : Runs.run (step site) w es = some w') (h : Tripped site w)
    (hbarren : ∀ r, Event.archive r ∈ es → site.ReadsBack r ∧ FindsNothing r) :
    w'.admitted = w.admitted ∧ Tripped site w'
      ∧ (w.running = 0 → Event.startUnchecked ∉ es →
        w'.running = 0 ∧ w'.op.sessions = w.op.sessions) := by
  have hkeeps : ∀ q e q', (q.admitted = w.admitted ∧ Tripped site q
        ∧ (w.running = 0 → Event.startUnchecked ∉ es →
          q.running = 0 ∧ q.op.sessions = w.op.sessions)) → e ∈ es → step site q e = some q' →
      q'.admitted = w.admitted ∧ Tripped site q'
        ∧ (w.running = 0 → Event.startUnchecked ∉ es →
          q'.running = 0 ∧ q'.op.sessions = w.op.sessions) := by
    rintro q e q' ⟨hadmitted, hq, hidle⟩ he hstep
    obtain ⟨hq', hadmitted', hidle'⟩ :=
      tripped_step hq (fun r hr => hbarren r (hr ▸ he)) hstep
    refine ⟨hadmitted'.trans hadmitted, hq', fun hzero hno => ?_⟩
    obtain ⟨hrunning, hsessions⟩ := hidle hzero hno
    obtain ⟨hrunning', hsessions'⟩ := hidle' hrunning fun heq => hno (heq ▸ he)
    exact ⟨hrunning', hsessions'.trans hsessions⟩
  exact Runs.run_invariant hkeeps ⟨rfl, h, fun hzero _ => ⟨hzero, rfl⟩⟩
    (Runs.throughout_of_forall_mem fun e he => he) hrun

/-- A site whose breaker trips at the first session that finds nothing. -/
def triageSite : Site := ⟨failedInTriageSerde, seenOpenSerde, ⟨10, 0, 1⟩, "op"⟩

/-- The timer goes off, and nothing is wrong with the disk. -/
def timer : Event := Event.start newYear AppendIo.smooth true

theorem readsBack_failedInTriage : triageSite.ReadsBack failedInTriage := by
  intro text htext
  obtain rfl := Except.ok.inj htext
  exact failedInTriage_keeps

theorem endsBlank_triageOperator : EndsBlank triageOperator.sessions := by
  have hends : EndsBlank (some (Option.getD none [] ++ line failedInTriageText)) :=
    endsBlank_append_line rfl failedInTriageText
  rwa [Option.getD_none, List.nil_append] at hends

theorem sessions_triageOperator : triageSite.sessions triageOperator = [failedInTriage] := by
  have hread : Autonomy.readOperatorProjection (triageIo AppendIo.smooth) "op" triageOperator
      = Except.ok (HistoryProjection.fromLedgers [failedInTriage] []) :=
    read_triageOperator AppendIo.smooth none
  exact (sessions_eq hread).symm

/-- The timer may go off at any time. -/
theorem exists_step_start (site : Site) (w : Unattended) (now : ClockTime) (write : AppendIo)
    (passes : Bool) : ∃ w', step site w (Event.start now write passes) = some w' := by
  unfold step
  dsimp only
  split
  · split_ifs
    · exact ⟨_, rfl⟩
    · exact ⟨_, rfl⟩
  · exact ⟨_, rfl⟩

/-- The operator removes the pause file between two starts. -/
theorem latched_removed : ∃ w, Runs.run (step triageSite) ⟨triageOperator, 0, 0⟩
      [timer, Event.pause none, timer] = some w ∧ w.admitted = 0 ∧ w.running = 0 := by
  obtain ⟨w₁, h₁⟩ := exists_step_start triageSite ⟨triageOperator, 0, 0⟩ newYear
    AppendIo.smooth true
  obtain ⟨w₂, h₂⟩ := exists_step_start triageSite { w₁ with op := w₁.op.withPause none } newYear
    AppendIo.smooth true
  have hrun : Runs.run (step triageSite) ⟨triageOperator, 0, 0⟩
      [timer, Event.pause none, timer] = some w₂ :=
    Runs.run_cons_eq_some_iff.mpr ⟨w₁, h₁, Runs.run_cons_eq_some_iff.mpr
      ⟨_, rfl, Runs.run_cons_eq_some_iff.mpr ⟨w₂, h₂, rfl⟩⟩⟩
  have htrips : Trips triageSite.settings (triageSite.sessions triageOperator) := by
    rw [sessions_triageOperator]
    exact trips_failedInTriage
  obtain ⟨hadmitted, -, hidle⟩ := latched hrun ⟨endsBlank_triageOperator, htrips⟩
    fun r hr => by simp [timer] at hr
  exact ⟨w₂, hrun, hadmitted, (hidle rfl (by simp [timer])).left⟩

/-! ## How many find nothing -/

/-- Sessions end as ones that count, find nothing and started after all others that count,
and with the one that is let in no more of them than some number run. -/
structure InTurn (site : Site) (m : ℕ) (w : Unattended) (e : Event) : Prop where
  archives : ∀ r, e = Event.archive r → site.ReadsBack r ∧ r.status ≠ SessionStatus.aborted
    ∧ sessionHasAcceptedTarget r = false
    ∧ ∀ s ∈ counted (site.sessions w.op), s.startedAt < r.startedAt
  few : LetsIn site w e → w.running < m

/-- What is known of the starts that were let in, when so many sessions were archived. -/
structure Counted (site : Site) (m : ℕ) (w₀ w : Unattended) (archived : ℕ) : Prop where
  ends : EndsBlank w.op.sessions
  zeroAccepted : ZeroAccepted archived (site.sessions w.op)
  balance : w.admitted + w₀.running ≤ w₀.admitted + archived + w.running
  admitted : w.admitted + 1 ≤ w₀.admitted + site.settings.zeroAcceptedCircuitBreaker + m

/-- The count depends on the ledger of the sessions only. -/
theorem Counted.of_eq {w₀ : Unattended} {a : ℕ} (h : Counted site m w₀ w a)
    (hsessions : w'.op.sessions = w.op.sessions) (hrunning : w.running ≤ w'.running)
    (hadmitted : w'.admitted = w.admitted) : Counted site m w₀ w' a where
  ends := hsessions ▸ h.ends
  zeroAccepted := (sessions_congr hsessions).symm ▸ h.zeroAccepted
  balance := by
    have hbalance := h.balance
    omega
  admitted := hadmitted ▸ h.admitted

/-- An event in turn keeps the count. -/
theorem counted_step {w₀ : Unattended} {e : Event} {a : ℕ}
    (hn : site.settings.zeroAcceptedCircuitBreaker ≠ 0) (h : Counted site m w₀ w a)
    (hturn : InTurn site m w e) (hstep : step site w e = some w') :
    ∃ a', Counted site m w₀ w' a' := by
  cases effect_of_step hstep with
  | letIn hgates hsessions _ hrunning hadmitted =>
    -- the breaker is open, so few sessions were archived that found nothing
    have hfew : a < site.settings.zeroAcceptedCircuitBreaker := by
      by_contra hge
      exact hgates.notTripped ⟨hn, h.zeroAccepted.mono (not_lt.mp hge)⟩
    have hrun := hturn.few ⟨w', hstep, by omega⟩
    have hbalance := h.balance
    refine ⟨a, hsessions ▸ h.ends, (sessions_congr hsessions).symm ▸ h.zeroAccepted, ?_, ?_⟩
    · omega
    · omega
  | refused hsessions _ hrunning hadmitted =>
    exact ⟨a, h.of_eq hsessions hrunning.ge hadmitted⟩
  | unchecked hop hrunning hadmitted =>
    exact ⟨a, h.of_eq (congrArg Operator.sessions hop) (by omega) hadmitted⟩
  | archived hop hrunning hadmitted =>
    obtain ⟨hback, hstatus, hnone, hlate⟩ := hturn.archives _ rfl
    obtain ⟨hsessions, hends⟩ := (archive_cases hop).right.right h.ends hback
    have hbalance := h.balance
    refine ⟨a + 1, hends, ?_, ?_, hadmitted ▸ h.admitted⟩
    · rw [hsessions]
      exact h.zeroAccepted.succ hstatus hnone hlate
    · omega
  | observed _ hop hrunning hadmitted =>
    exact ⟨a, h.of_eq (observe_cases hop).left hrunning.ge hadmitted⟩
  | paused hsessions _ hrunning hadmitted =>
    exact ⟨a, h.of_eq hsessions hrunning.ge hadmitted⟩

/-- A site whose breaker trips at the second session that finds nothing. -/
def pairSite : Site := ⟨failedInTriageSerde, seenOpenSerde, ⟨10, 0, 2⟩, "op"⟩

/-- A repository that has no ledgers yet, and the one in which the first session has failed
in triage. -/
def beforeFirst : Unattended := ⟨freshOperator, 0, 0⟩

def afterFirst : Unattended := ⟨triageOperator, 0, 1⟩

/-- The first session starts, finds nothing, and the next one starts. -/
def twoStarts : List Event := [timer, Event.archive failedInTriage, timer]

theorem step_beforeFirst :
    step pairSite beforeFirst timer = some ⟨freshOperator, 1, 1⟩ := by
  have hletIn : LetIn pairSite freshOperator :=
    ⟨rfl, (show (openPrUrls (HistoryProjection.fromLedgers [] [])).size < 10 by decide +kernel),
      (show ¬ Trips ⟨10, 0, 2⟩ [] by decide +kernel)⟩
  exact step_of_letIn hletIn (fun _ h => nomatch h) (fun _ h => nomatch h) rfl

theorem archive_freshOperator :
    pairSite.archive freshOperator failedInTriage = some triageOperator := by
  have happend : ∀ path, appendLedger failedInTriageSerde AppendIo.smooth path none failedInTriage
      = (Except.ok (), some (Option.getD none [] ++ line failedInTriageText)) := fun _ => rfl
  unfold Site.archive appendStep freshOperator pairSite
  dsimp only
  rw [happend, Option.getD_none, List.nil_append]
  rfl

theorem step_archiveFirst :
    step pairSite ⟨freshOperator, 1, 1⟩ (Event.archive failedInTriage) = some afterFirst := by
  show (pairSite.archive freshOperator failedInTriage).map (fun op => Unattended.mk op 0 1)
    = some afterFirst
  rw [archive_freshOperator]
  rfl

theorem step_afterFirst :
    step pairSite afterFirst timer = some ⟨triageOperator, 1, 2⟩ := by
  have hsessions : pairSite.sessions triageOperator = [failedInTriage] :=
    sessions_triageOperator
  have hletIn : LetIn pairSite triageOperator := by
    refine ⟨rfl, ?_, ?_⟩
    · rw [hsessions]
      show (openPrUrls (HistoryProjection.fromLedgers [failedInTriage] [])).size < 10
      decide +kernel
    · rw [hsessions]
      show ¬ Trips ⟨10, 0, 2⟩ [failedInTriage]
      decide +kernel
  exact step_of_letIn hletIn endsBlank_triageOperator (fun _ h => nomatch h) rfl

end Latch

/-! ## How many pull requests are open -/

section Open

open Std (ExtTreeSet)

variable {sessions : List SessionRecord} {events left : List MaintEvent} {url : String}
  {kind : MaintEventKind} {r : SessionRecord}

/-- The pull requests that a session has opened. -/
def prUrls (r : SessionRecord) : List String := r.targets.filterMap fun t => t.prUrl

/-- A pull request was last seen merged or closed. -/
def IsClosed (events : List MaintEvent) (url : String) : Prop :=
  latestKind events url = some MaintEventKind.prMerged
    ∨ latestKind events url = some MaintEventKind.prClosedUnmerged

instance : DecidablePred (IsClosed events) := fun _ => inferInstanceAs (Decidable (_ ∨ _))

/-- The pull requests that count as open. -/
def openUrls (sessions : List SessionRecord) (events : List MaintEvent) : Finset String :=
  (sessions.flatMap prUrls).toFinset.filter fun url => ¬ IsClosed events url

/-- A pull request is closed by its latest state exactly when the ledger closes it. -/
theorem any_latestArtifactState :
    ((HistoryProjection.fromLedgers sessions events).latestArtifactState url).any
        (fun s => s.kind = MaintEventKind.prMerged || s.kind = MaintEventKind.prClosedUnmerged)
      = decide (IsClosed events url) := by
  rw [Bool.eq_iff_iff, decide_eq_true_iff, IsClosed,
    ← HistoryProjection.kind_latestArtifactState sessions events]
  cases (HistoryProjection.fromLedgers sessions events).latestArtifactState url <;> simp

/-- **What the gate counts.** -/
theorem size_openPrUrls :
    (openPrUrls (HistoryProjection.fromLedgers sessions events)).size
      = (openUrls sessions events).card := by
  let opened := openPrUrls (HistoryProjection.fromLedgers sessions events)
  have hnodup : opened.toList.Nodup := by
    refine ExtTreeSet.distinct_toList.imp fun {a b} hne heq => ?_
    rw [heq] at hne
    exact hne Std.ReflCmp.compare_self
  have hmem : opened.toList.toFinset = openUrls sessions events := by
    ext url
    rw [List.mem_toFinset]
    show url ∈ (openPrUrls (HistoryProjection.fromLedgers sessions events)).toList ↔ _
    unfold openPrUrls openUrls
    rw [ExtTreeSet.toList_filter, List.mem_filter, ExtTreeSet.mem_toList,
      ExtTreeSet.mem_ofList, List.contains_iff_mem, Finset.mem_filter, List.mem_toFinset,
      any_latestArtifactState, Bool.not_eq_true', decide_eq_false_iff_not]
    rfl
  rw [← hmem, List.toFinset_card_of_nodup hnodup]
  exact ExtTreeSet.length_toList.symm

/-- A session adds as many as it has opened. -/
theorem card_openUrls_append : (openUrls (sessions ++ [r]) events).card
    ≤ (openUrls sessions events).card + (prUrls r).length := by
  have hsub : openUrls (sessions ++ [r]) events
      ⊆ openUrls sessions events ∪ (prUrls r).toFinset := by
    intro url hurl
    obtain ⟨hmem, hopen⟩ := Finset.mem_filter.mp hurl
    rw [List.mem_toFinset, List.flatMap_append, List.flatMap_singleton,
      List.mem_append] at hmem
    refine Finset.mem_union.mpr (hmem.imp (fun h => ?_) List.mem_toFinset.mpr)
    exact Finset.mem_filter.mpr ⟨List.mem_toFinset.mpr h, hopen⟩
  calc (openUrls (sessions ++ [r]) events).card
      ≤ (openUrls sessions events ∪ (prUrls r).toFinset).card := Finset.card_le_card hsub
    _ ≤ (openUrls sessions events).card + (prUrls r).toFinset.card := Finset.card_union_le _ _
    _ ≤ (openUrls sessions events).card + (prUrls r).length :=
        Nat.add_le_add_left (List.toFinset_card_le _) _

/-- What was last seen depends on the events about it alone. -/
theorem latestKind_congr {events' : List MaintEvent} (h : about url events' = about url events) :
    latestKind events' url = latestKind events url := by
  have hfilter : ∀ l : List MaintEvent, (sortBy compareObserved l).filter
      (fun e => e.url = some url) = sortBy compareObserved (about url l) := fun l =>
    haveI : IsTrans MaintEvent fun a b => (compareObserved a b).isLE = true :=
      ⟨fun _ _ _ => Std.TransCmp.isLE_trans⟩
    haveI : Std.Total fun a b : MaintEvent => (compareObserved a b).isLE = true := ⟨fun a b => by
      have hswap : compareObserved b a = (compareObserved a b).swap := Std.OrientedCmp.eq_swap
      rw [hswap]
      cases compareObserved a b <;> simp⟩
    StableSort.filter_insertionSort _ l
  unfold latestKind latestEvent
  rw [hfilter, hfilter, h]

/-- Nothing was recorded about an artifact after it was over. -/
def OverLast (events : List MaintEvent) : Prop :=
  ∀ url, ∀ e ∈ about url events, e.kind.isTerminal = true →
    isTerminalIn (projectEvents events) url = true

/-- A call keeps to that, over rows with different pull requests and issues. -/
theorem OverLast.append (h : OverLast events) {round : Round}
    (hdistinct : DistinctCandidates round.sessions) (hsub : left.Sublist (round.news events)) :
    OverLast (events ++ left) := by
  intro url e he hover
  rw [about_append] at he
  have hleft : about url left = [] ∨ ∃ e, about url left = [e] := by
    have hsub' : (about url left).Sublist (about url (round.news events)) := hsub.filter _
    cases hcands : candidatesFromSessions round.sessions with
    | error msg =>
      rw [news_of_error hcands] at hsub'
      exact Or.inl (List.sublist_nil.mp hsub')
    | ok candidates =>
      obtain hnil | ⟨-, -, -, -, -, e, -, hone⟩ := about_news hdistinct hcands events url
      · rw [hnil] at hsub'
        exact Or.inl (List.sublist_nil.mp hsub')
      · rw [hone] at hsub'
        exact (List.sublist_singleton.mp hsub').imp_right fun h => ⟨e, h⟩
  obtain hnil | ⟨e', hone⟩ := hleft
  · rw [hnil, List.append_nil] at he
    rw [isTerminalIn_append_of_about_nil hnil]
    exact h url e he hover
  · rw [isTerminalIn_append_of_about_singleton hone]
    obtain he | he := List.mem_append.mp he
    · -- what was over before is not reported about
      have hnil : about url left = [] := by
        rw [← List.sublist_nil, ← about_news_of_terminal (h url e he hover) round]
        exact hsub.filter _
      rw [hnil] at hone
      cases hone
    · rw [hone] at he
      rwa [← List.mem_singleton.mp he]

/-- **No call opens anything again.** -/
theorem openUrls_append (h : OverLast events) {round : Round}
    (hsub : left.Sublist (round.news events)) :
    openUrls sessions (events ++ left) ⊆ openUrls sessions events := by
  refine Finset.monotone_filter_right _ fun url _ hopen hclosed => hopen ?_
  have hterminal : ∃ e ∈ about url events, e.kind.isTerminal = true := by
    have hkind : ∃ kind, latestKind events url = some kind ∧ kind.isTerminal = true := by
      obtain hmerged | hunmerged := hclosed
      · exact ⟨_, hmerged, rfl⟩
      · exact ⟨_, hunmerged, rfl⟩
    obtain ⟨kind, hkind, hterminal⟩ := hkind
    obtain ⟨e, he, rfl⟩ := Option.map_eq_some_iff.mp hkind
    obtain ⟨hmem, hurl⟩ := List.mem_filter.mp (List.mem_of_getLast? he)
    exact ⟨e, List.mem_filter.mpr ⟨(sortBy_perm _ _).mem_iff.mp hmem, hurl⟩, hterminal⟩
  obtain ⟨e, he, hover⟩ := hterminal
  have hnil : about url left = [] := by
    rw [← List.sublist_nil, ← about_news_of_terminal (h url e he hover) round]
    exact hsub.filter _
  have hsame : about url (events ++ left) = about url events := by
    rw [about_append, hnil, List.append_nil]
  unfold IsClosed at hclosed ⊢
  rwa [latestKind_congr hsame]

end Open

section Bounded

open Autonomy

variable {site : Site} {w w' : Unattended} {es : List Event} {m p bound : ℕ}

/-- How many pull requests the gate counts. -/
def opened (site : Site) (w : Unattended) : ℕ :=
  (openPrUrls (HistoryProjection.fromLedgers (site.sessions w.op) (site.events w.op))).size

/-- With the one that is let in no more sessions than some number run, no session opens
more pull requests than some number, and a call asks about no artifact twice. -/
structure Sized (site : Site) (m p : ℕ) (w : Unattended) (e : Event) : Prop where
  checked : e ≠ Event.startUnchecked
  archives : ∀ r, e = Event.archive r → site.ReadsBack r ∧ (prUrls r).length ≤ p
  calls : ∀ round left, e = Event.maintain round left →
    DistinctCandidates round.sessions ∧ ∀ e ∈ left, site.ReadsBackEvent e
  few : LetsIn site w e → w.running < m

/-- What is open, and what the sessions that are running may still open. -/
structure Bounded (site : Site) (p bound : ℕ) (w : Unattended) : Prop where
  ends : EndsBlank w.op.sessions
  endsMaintain : EndsBlank w.op.maintain
  overLast : OverLast (site.events w.op)
  le : opened site w + p * w.running ≤ bound

/-- The open pull requests that are counted are those of the ledgers. -/
theorem opened_eq (site : Site) (w : Unattended) :
    opened site w = (openUrls (site.sessions w.op) (site.events w.op)).card :=
  size_openPrUrls

/-- The events depend on their ledger only. -/
theorem events_congr {op op' : Operator} (h : op'.maintain = op.maintain) :
    site.events op' = site.events op := by
  unfold Site.events
  rw [h]

/-- The bound depends on the ledgers and the running sessions only. -/
theorem Bounded.of_eq (h : Bounded site p bound w) (hsessions : w'.op.sessions = w.op.sessions)
    (hmaintain : w'.op.maintain = w.op.maintain) (hrunning : w'.running = w.running) :
    Bounded site p bound w' where
  ends := hsessions ▸ h.ends
  endsMaintain := hmaintain ▸ h.endsMaintain
  overLast := (events_congr hmaintain).symm ▸ h.overLast
  le := by
    have hle := h.le
    unfold opened at hle ⊢
    rwa [sessions_congr hsessions, events_congr hmaintain, hrunning]

/-- An event of the right size keeps the bound. -/
theorem bounded_step {e : Event}
    (hbound : site.settings.maxOpenAgentPrs - 1 + p * m ≤ bound) (h : Bounded site p bound w)
    (hsized : Sized site m p w e) (hstep : step site w e = some w') :
    Bounded site p bound w' := by
  cases effect_of_step hstep with
  | letIn hgates hsessions hmaintain hrunning hadmitted =>
    refine ⟨hsessions ▸ h.ends, hmaintain ▸ h.endsMaintain,
      (events_congr hmaintain).symm ▸ h.overLast, ?_⟩
    -- the gate has just counted the open requests, whatever was there before
    have hopen : opened site w' ≤ site.settings.maxOpenAgentPrs - 1 := by
      unfold opened
      rw [sessions_congr hsessions, events_congr hmaintain]
      exact Nat.le_sub_one_of_lt hgates.fewOpen
    have hfew : w'.running ≤ m := by
      rw [hrunning]
      exact hsized.few ⟨w', hstep, hadmitted ▸ Nat.lt_succ_self _⟩
    calc opened site w' + p * w'.running
        ≤ site.settings.maxOpenAgentPrs - 1 + p * m :=
          Nat.add_le_add hopen (Nat.mul_le_mul_left p hfew)
      _ ≤ bound := hbound
  | refused hsessions hmaintain hrunning _ => exact h.of_eq hsessions hmaintain hrunning
  | unchecked => exact absurd rfl hsized.checked
  | @archived r hop hrunning _ =>
    obtain ⟨hback, hfew⟩ := hsized.archives _ rfl
    obtain ⟨hmaintain, -, hadds⟩ := archive_cases hop
    obtain ⟨hsessions, hends⟩ := hadds h.ends hback
    refine ⟨hends, hmaintain ▸ h.endsMaintain, (events_congr hmaintain).symm ▸ h.overLast, ?_⟩
    have hle := h.le
    rw [opened_eq] at hle ⊢
    rw [hsessions, events_congr hmaintain]
    calc (openUrls (site.sessions w.op ++ [r]) (site.events w.op)).card + p * w'.running
        ≤ (openUrls (site.sessions w.op) (site.events w.op)).card + (prUrls r).length
            + p * w'.running := Nat.add_le_add_right card_openUrls_append _
      _ ≤ (openUrls (site.sessions w.op) (site.events w.op)).card + p * w.running := by
          rw [hrunning, Nat.mul_succ]
          omega
      _ ≤ bound := hle
  | observed hsub hop hrunning _ =>
    obtain ⟨hdistinct, hback⟩ := hsized.calls _ _ rfl
    obtain ⟨hsessions, -, hadds⟩ := observe_cases hop
    obtain ⟨hevents, hends⟩ := hadds h.endsMaintain hback
    refine ⟨hsessions ▸ h.ends, hends, ?_, ?_⟩
    · rw [hevents]
      exact h.overLast.append hdistinct hsub
    · have hle := h.le
      rw [opened_eq] at hle ⊢
      rw [sessions_congr hsessions, hevents, hrunning]
      exact (Nat.add_le_add_right
        (Finset.card_le_card (openUrls_append h.overLast hsub)) _).trans hle
  | paused hsessions hmaintain hrunning _ => exact h.of_eq hsessions hmaintain hrunning

/-- The session that has opened a pull request, as `sessions.jsonl` holds it. -/
def publishedText : String :=
  "\x7b\"kind\":\"session_completed\",\"schema_version\":3,\"id\":\"s1\","
    ++ "\"artifact_branch\":\"session/s1\",\"artifact_sha\":\"0123456\","
    ++ "\"started_at\":\"2026-06-14T00:00:00Z\",\"finished_at\":\"2026-06-14T01:00:00Z\","
    ++ "\"status\":\"succeeded\",\"sbagent_version\":\"0.1.0\","
    ++ "\"range\":\x7b\"network\":\"mainnet\"\x7d,\"baseline_run_ids\":[1,2],"
    ++ "\"phase_durations_secs\":\x7b\x7d,\"targets\":[\x7b\"id\":\"fix\","
    ++ "\"family_id\":\"family\",\"bucket\":\"block_processing\","
    ++ "\"delivery_mode\":\"normal_pr\",\"status\":\"accepted\","
    ++ "\"pr_url\":\"https://github.com/o/r/pull/1\"\x7d]\x7d"

/-- The session as a JSON value. -/
def publishedJson : Json :=
  Json.object [("kind", Json.string "session_completed"), ("schema_version", Json.nat 3),
    ("id", Json.string "s1"), ("artifact_branch", Json.string "session/s1"),
    ("artifact_sha", Json.string "0123456"),
    ("started_at", Json.string "2026-06-14T00:00:00Z"),
    ("finished_at", Json.string "2026-06-14T01:00:00Z"), ("status", Json.string "succeeded"),
    ("sbagent_version", Json.string "0.1.0"),
    ("range", Json.object [("network", Json.string "mainnet")]),
    ("baseline_run_ids", Json.array [Json.nat 1, Json.nat 2]),
    ("phase_durations_secs", Json.object []),
    ("targets", Json.array [Json.object [("id", Json.string "fix"),
      ("family_id", Json.string "family"), ("bucket", Json.string "block_processing"),
      ("delivery_mode", Json.string "normal_pr"), ("status", Json.string "accepted"),
      ("pr_url", Json.string "https://github.com/o/r/pull/1")]])]

/-- The session as a record. -/
def published : SessionRecord :=
  MaintainReconciler.publishedSession "s1" "https://github.com/o/r/pull/1"

/-- How the session's record is written and read. -/
def publishedSerde : Serde SessionRecord := loneSerde publishedText publishedJson published

set_option maxRecDepth 8000 in
theorem publishedText_isObject : IsObjectText publishedText := by
  unfold publishedText
  constructor
  · simp only [String.toList_append]
    iterate 9 rw [String.toList_ofList]
    decide
  · simp only [String.toList_append]
    iterate 9 rw [String.toList_ofList]
    rfl
  · simp only [String.toList_append]
    iterate 9 rw [String.toList_ofList]
    rfl

/-- A site at which one pull request may be open, and the breaker is disabled. -/
def onePullSite : Site := ⟨publishedSerde, pullOpenedSerde, ⟨1, 0, 0⟩, "op"⟩

theorem readsBack_published : onePullSite.ReadsBack published := by
  intro text htext
  obtain rfl := Except.ok.inj htext
  exact loneSerde_keeps publishedText_isObject rfl

theorem readsBackEvent_pullOpened : onePullSite.ReadsBackEvent pullOpened := by
  intro text htext
  obtain rfl := Except.ok.inj htext
  exact pullOpened_keeps

/-- The call that sees the pull request. -/
def firstCall : Round := ⟨MaintainReconciler.openGithub 5000, [published], 50⟩

/-- The repository after the session, and after the call. -/
def afterSession : Operator := ⟨some (line publishedText), none, none⟩

def afterCall : Operator := ⟨some (line publishedText), some (line pullOpenedText), none⟩

theorem step_onePull : step onePullSite beforeFirst timer = some ⟨freshOperator, 1, 1⟩ := by
  have hletIn : LetIn onePullSite freshOperator :=
    ⟨rfl, (show (openPrUrls (HistoryProjection.fromLedgers [] [])).size < 1 by decide +kernel),
      fun htrips => htrips.left rfl⟩
  exact step_of_letIn hletIn (fun _ h => nomatch h) (fun _ h => nomatch h) rfl

theorem archive_published :
    onePullSite.archive freshOperator published = some afterSession := by
  have happend : ∀ path, appendLedger publishedSerde AppendIo.smooth path none published
      = (Except.ok (), some (Option.getD none [] ++ line publishedText)) := fun _ => rfl
  unfold Site.archive appendStep freshOperator onePullSite
  dsimp only
  rw [happend, Option.getD_none, List.nil_append]
  rfl

theorem step_published : step onePullSite ⟨freshOperator, 1, 1⟩ (Event.archive published)
    = some ⟨afterSession, 0, 1⟩ := by
  show (onePullSite.archive freshOperator published).map (fun op => Unattended.mk op 0 1) = _
  rw [archive_published]
  rfl

theorem observe_pullOpened : onePullSite.observe afterSession [pullOpened] = some afterCall := by
  have happend : ∀ path, appendEvent pullOpenedSerde AppendIo.smooth path none pullOpened
      = (Except.ok (), some (Option.getD none [] ++ line pullOpenedText)) := fun _ => rfl
  unfold Site.observe afterSession onePullSite
  dsimp only
  rw [Runs.run, appendStep, happend, Option.getD_none, List.nil_append]
  rfl

theorem step_firstCall : step onePullSite ⟨afterSession, 0, 1⟩
    (Event.maintain firstCall [pullOpened]) = some ⟨afterCall, 0, 1⟩ := by
  have hevents : onePullSite.events afterSession = [] := rfl
  have hnews : firstCall.news [] = [pullOpened] := by decide +kernel
  unfold step
  dsimp only
  rw [hevents, hnews, if_pos (List.Sublist.refl _), observe_pullOpened]
  rfl

/-- A session starts, opens the one pull request that may be open, and a call sees it. -/
def onePull : List Event :=
  [timer, Event.archive published, Event.maintain firstCall [pullOpened]]

end Bounded

end Unattended
