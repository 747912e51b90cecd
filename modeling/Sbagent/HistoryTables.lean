import Sbagent.FloatText
import Sbagent.Ledger
import Sbagent.MarkdownTable
import Sbagent.TimestampReaders

/-!
# The tables of a report

A report on the history has a table of the sessions and, where there is something to show,
one of the pull requests, one of the issues, and one of the verdicts with a caveat. What
agents and operators have written is put into their cells as it is. Only the tables are
modelled, not the lines between them.
-/

open MarkdownTable

namespace HistoryReport

/-- How the targets of a session ended. -/
structure TargetOutcomeCounts where
  accepted : ℕ
  rejected : ℕ
  aborted : ℕ
  mixed : ℕ

/-- A row of the sessions. -/
structure ReportSession where
  id : String
  startedAt : String
  status : SessionStatus
  targetOutcomes : TargetOutcomeCounts
  wallClockSecs : F64
  prCount : ℕ
  issueCount : ℕ

/-- A row of the pull requests or issues. -/
structure LifecycleRow where
  url : String
  sessionId : String
  latestState : String
  observedAt : String

/-- A row of the verdicts with a caveat. -/
structure MixedVerdictRow where
  sessionId : String
  targetId : String
  reason : String

/-- What a report shows in tables. -/
structure ReportView where
  sessions : List ReportSession
  prLifecycle : List LifecycleRow
  issueLifecycle : List LifecycleRow
  mixedVerdicts : List MixedVerdictRow

/-! ## Tables with columns of equal width -/

/-- A cell with spaces behind it, up to the width of its column. -/
def padTo (cell : String) (w : ℕ) : String :=
  cell ++ String.ofList (List.replicate (w - cell.length) ' ')

/-- The cells of a row, each as wide as its column. -/
def padRow (widths : List ℕ) (row : List String) : List String := row.zipWith padTo widths

/-- The width of each column, in bytes. -/
def widths (headers : List String) (rows : List (List String)) : List ℕ :=
  headers.mapIdx fun col header =>
    max (max ((rows.map fun r => Text.byteLen (r.getD col "")).foldl max 0)
      (Text.byteLen header)) 4

@[simp] theorem length_widths (headers : List String) (rows : List (List String)) :
    (widths headers rows).length = headers.length := List.length_mapIdx

/-- A cell is as clean as it was before it was padded. -/
theorem clean_padTo_iff {cell : String} {w : ℕ} :
    Clean (padTo cell w).toList ↔ Clean cell.toList := by
  unfold padTo
  rw [String.toList_append, String.toList_ofList]
  refine clean_append_plain fun d hd => ?_
  rw [List.eq_of_mem_replicate hd]
  rfl

/-- So are the cells of a row that has as many as there are columns. -/
theorem clean_padRow_iff {ws : List ℕ} {row : List String} (h : row.length = ws.length) :
    (∀ c ∈ padRow ws row, Clean c.toList) ↔ ∀ c ∈ row, Clean c.toList := by
  induction row generalizing ws with
  | nil => exact Iff.rfl
  | cons c row ih =>
    obtain ⟨w, ws, rfl⟩ := List.exists_cons_of_length_eq_add_one h.symm
    unfold padRow at ih ⊢
    rw [List.zipWith_cons_cons, List.forall_mem_cons, List.forall_mem_cons, clean_padTo_iff,
      ih (Nat.succ.inj h)]

/-- Padding leaves a row as long as it is. -/
theorem length_padRow {ws : List ℕ} {row : List String} (h : row.length = ws.length) :
    (padRow ws row).length = ws.length := by
  unfold padRow
  rw [List.length_zipWith, h, min_self]

/-- A table whose columns are as wide as their longest cell. -/
def writeMarkdownTable (headers : List String) (rows : List (List String))
    (hclean : ∀ c ∈ headers, Clean c.toList) (hwidth : ∀ row ∈ rows, row.length = headers.length) :
    Table where
  header := padRow (widths headers rows) headers
  delimiter := padRow (widths headers rows)
    ((widths headers rows).map fun w => String.ofList (List.replicate w '-'))
  rows := rows.map (padRow (widths headers rows))
  clean := (clean_padRow_iff (length_widths headers rows).symm).mpr hclean
  delimited := by
    rw [length_padRow (List.length_map _), length_padRow (length_widths headers rows).symm]
  width := by
    rw [List.forall_mem_map]
    intro row hrow
    have hlength := (hwidth row hrow).trans (length_widths headers rows).symm
    rw [length_padRow hlength, length_padRow (length_widths headers rows).symm]

/-- What is written is a table exactly when the cells of its rows are clean. -/
theorem sound_writeMarkdownTable_iff {headers : List String} {rows : List (List String)}
    {hclean : ∀ c ∈ headers, Clean c.toList}
    {hwidth : ∀ row ∈ rows, row.length = headers.length} :
    (writeMarkdownTable headers rows hclean hwidth).Sound
      ↔ ∀ row ∈ rows, ∀ c ∈ row, Clean c.toList := by
  rw [Table.sound_iff]
  show (∀ row ∈ rows.map (padRow (widths headers rows)), _) ↔ _
  rw [List.forall_mem_map]
  exact forall₂_congr fun row hrow =>
    clean_padRow_iff ((hwidth row hrow).trans (length_widths headers rows).symm)

/-! ## The tables of the report -/

/-- The status of a session in a report. -/
def sessionStatusText : SessionStatus → String
  | SessionStatus.succeeded => "succeeded"
  | SessionStatus.failed => "failed"
  | SessionStatus.aborted => "aborted"

/-- A duration in hours, minutes and seconds. -/
def formatWallClock (secs : F64) : String :=
  let total := secs.toU64
  let hours := total / 3600
  let mins := total % 3600 / 60
  let s := total % 60
  if 0 < hours then
    String.ofList (Nat.toDigits 10 hours ++ ':' :: F64.zeroPadded 2 mins
      ++ ':' :: F64.zeroPadded 2 s)
  else String.ofList (Nat.toDigits 10 mins ++ ':' :: F64.zeroPadded 2 s)

/-- The targets of a session, by how they ended. -/
def TargetOutcomeCounts.text (o : TargetOutcomeCounts) : String :=
  s!"{o.accepted}/{o.rejected}/{o.aborted}"

/-- The row of a session, with the date on which it began. -/
def sessionRow (s : ReportSession) (started : List Char) : List String :=
  [s.id, String.ofList started, sessionStatusText s.status, s.targetOutcomes.text,
    formatWallClock s.wallClockSecs, toString s.prCount, toString s.issueCount]

/-- The table of the sessions. -/
def writeSessions (view : ReportView) : Checked Table := do
  let started ← view.sessions.mapM fun s => Timestamps.Report.startedAtPrefix s.startedAt
  return writeMarkdownTable
    ["id", "started_at", "status", "targets", "wall-clock", "prs", "issues"]
    ((view.sessions.zip started).map fun p => sessionRow p.1 p.2) (by decide)
    (List.forall_mem_map.mpr fun _ _ => rfl)

/-- The table of the pull requests, or of the issues. -/
def writeLifecycleSection (rows : List LifecycleRow) : Table :=
  writeMarkdownTable ["state", "url", "session", "observed_at"]
    (rows.map fun r => [r.latestState, r.url, r.sessionId, r.observedAt]) (by decide)
    (List.forall_mem_map.mpr fun _ _ => rfl)

/-- The table of the verdicts that do not say the same. -/
def writeMixedVerdictsSection (rows : List MixedVerdictRow) : Table :=
  writeMarkdownTable ["session", "target", "reason"]
    (rows.map fun r => [r.sessionId, r.targetId, r.reason]) (by decide)
    (List.forall_mem_map.mpr fun _ _ => rfl)

/-- The tables of a report, in order. A report on no sessions has none. -/
def renderMarkdown (view : ReportView) : Checked (List Table) := do
  if view.sessions.isEmpty then return []
  let sessions ← writeSessions view
  return sessions :: (if view.prLifecycle.isEmpty then [] else
      [writeLifecycleSection view.prLifecycle])
    ++ (if view.issueLifecycle.isEmpty then [] else
      [writeLifecycleSection view.issueLifecycle])
    ++ if view.mixedVerdicts.isEmpty then [] else
      [writeMixedVerdictsSection view.mixedVerdicts]

/-- The texts of a row of the pull requests or issues. -/
def LifecycleRow.texts (r : LifecycleRow) : List String :=
  [r.latestState, r.url, r.sessionId, r.observedAt]

/-- The texts of a row of the mixed verdicts. -/
def MixedVerdictRow.texts (r : MixedVerdictRow) : List String :=
  [r.sessionId, r.targetId, r.reason]

/-- No text that a report puts into its tables has a line break or a bar. -/
structure ReportView.Clean (view : ReportView) : Prop where
  sessions : ∀ s ∈ view.sessions, MarkdownTable.Clean s.id.toList
    ∧ ∀ started, Timestamps.Report.startedAtPrefix s.startedAt = Except.ok started →
      MarkdownTable.Clean started
  lifecycle : ∀ r ∈ view.prLifecycle ++ view.issueLifecycle, ∀ text ∈ r.texts,
    MarkdownTable.Clean text.toList
  mixed : ∀ r ∈ view.mixedVerdicts, ∀ text ∈ r.texts, MarkdownTable.Clean text.toList

/-! ## Cells -/

/-- The characters of a float are plain. -/
theorem isPlain_of_isNumeral {c : Char} (h : F64.isNumeral c = true) : isPlain c = true := by
  rw [isPlain_iff]
  refine ⟨?_, ?_, ?_⟩
  · by_contra hbreak
    obtain rfl | rfl : c = '\n' ∨ c = '\r' := by
      rwa [Bool.not_eq_false, isBreak, Bool.or_eq_true, decide_eq_true_eq,
        decide_eq_true_eq] at hbreak
    · exact absurd h (by decide)
    · exact absurd h (by decide)
  · rintro rfl
    exact absurd h (by decide)
  · rintro rfl
    exact absurd h (by decide)

/-- So are the digits of a number. -/
theorem isPlain_of_mem_toDigits {n : ℕ} {c : Char} (h : c ∈ Nat.toDigits 10 n) :
    isPlain c = true :=
  isPlain_of_isNumeral (F64.isNumeral_of_mem_toDigits h)

/-- The text of a number is its digits. -/
theorem toList_toString (n : ℕ) : (toString n).toList = Nat.toDigits 10 n :=
  String.toList_ofList

theorem isPlain_of_mem_toString {n : ℕ} {c : Char} (h : c ∈ (toString n).toList) :
    isPlain c = true :=
  isPlain_of_mem_toDigits (by rwa [toList_toString] at h)

/-- A number is clean. -/
theorem clean_toString (n : ℕ) : Clean (toString n).toList :=
  clean_of_isPlain fun _ h => isPlain_of_mem_toString h

/-- A duration is clean. -/
theorem clean_formatWallClock (secs : F64) : Clean (formatWallClock secs).toList := by
  refine clean_of_isPlain fun c hc => ?_
  have hpadded {w n : ℕ} (h : c ∈ F64.zeroPadded w n) : isPlain c = true :=
    isPlain_of_isNumeral (F64.isNumeral_of_mem_zeroPadded h)
  unfold formatWallClock at hc
  dsimp only at hc
  split at hc
  · simp only [String.toList_ofList, List.mem_append, List.mem_cons] at hc
    obtain (hc | rfl | hc) | rfl | hc := hc
    · exact isPlain_of_mem_toDigits hc
    · rfl
    · exact hpadded hc
    · rfl
    · exact hpadded hc
  · simp only [String.toList_ofList, List.mem_append, List.mem_cons] at hc
    obtain hc | rfl | hc := hc
    · exact isPlain_of_mem_toDigits hc
    · rfl
    · exact hpadded hc

/-- The row of a session is as clean as its id and the day it started on. -/
theorem clean_sessionRow_iff {s : ReportSession} {started : List Char} :
    (∀ c ∈ sessionRow s started, Clean c.toList) ↔ Clean s.id.toList ∧ Clean started := by
  have hstatus : Clean (sessionStatusText s.status).toList := by
    cases s.status <;> decide
  have htargets : Clean s.targetOutcomes.text.toList := by
    refine clean_of_isPlain fun c hc => ?_
    unfold TargetOutcomeCounts.text at hc
    simp only [String.toList_append, List.mem_append] at hc
    obtain (((hc | hc) | hc) | hc) | hc := hc
    · exact isPlain_of_mem_toString hc
    · obtain rfl := List.mem_singleton.mp hc
      rfl
    · exact isPlain_of_mem_toString hc
    · obtain rfl := List.mem_singleton.mp hc
      rfl
    · exact isPlain_of_mem_toString hc
  unfold sessionRow
  simp only [List.forall_mem_cons, String.toList_ofList]
  constructor
  · intro h
    exact ⟨h.left, h.right.left⟩
  · rintro ⟨hid, hstarted⟩
    exact ⟨hid, hstarted, hstatus, htargets, clean_formatWallClock _, clean_toString _,
      clean_toString _, fun c hc => absurd hc List.not_mem_nil⟩

section Report

variable {view : ReportView} {tables : List Table}

/-- What a list is mapped to stands next to it. -/
theorem forall₂_of_mapM {α β : Type} {f : α → Checked β} {l : List α} {bs : List β}
    (h : l.mapM f = Except.ok bs) : List.Forall₂ (fun a b => f a = Except.ok b) l bs := by
  induction l generalizing bs with
  | nil =>
    obtain rfl := Except.ok.inj h
    exact List.Forall₂.nil
  | cons a l ih =>
    rw [List.mapM_cons] at h
    cases ha : f a with
    | error e =>
      rw [ha] at h
      cases h
    | ok b =>
      cases hl : l.mapM f with
      | error e =>
        rw [ha, hl] at h
        cases h
      | ok cs =>
        rw [ha, hl] at h
        obtain rfl := Except.ok.inj h
        exact List.Forall₂.cons ha (ih hl)

/-- The rows of all sessions. -/
theorem clean_sessionRows_iff {sessions : List ReportSession} {starts : List (List Char)}
    (h : List.Forall₂ (fun s started =>
      Timestamps.Report.startedAtPrefix s.startedAt = Except.ok started) sessions starts) :
    (∀ p ∈ sessions.zip starts, ∀ c ∈ sessionRow p.1 p.2, Clean c.toList)
      ↔ ∀ s ∈ sessions, Clean s.id.toList
        ∧ ∀ started, Timestamps.Report.startedAtPrefix s.startedAt = Except.ok started →
          Clean started := by
  induction h with
  | nil => simp
  | cons hs hall ih =>
    rw [List.zip_cons_cons, List.forall_mem_cons, List.forall_mem_cons, ih,
      clean_sessionRow_iff]
    refine and_congr_left fun _ => and_congr_right fun _ => ?_
    rw [hs]
    exact ⟨fun hclean _ heq => Except.ok.inj heq ▸ hclean, fun hclean => hclean _ rfl⟩

/-- The table of the sessions is one when their ids and days are clean. -/
theorem sound_writeSessions_iff {t : Table} (h : writeSessions view = Except.ok t) :
    t.Sound ↔ ∀ s ∈ view.sessions, Clean s.id.toList
      ∧ ∀ started, Timestamps.Report.startedAtPrefix s.startedAt = Except.ok started →
        Clean started := by
  unfold writeSessions at h
  cases hstarted : view.sessions.mapM fun s => Timestamps.Report.startedAtPrefix s.startedAt with
  | error e =>
    rw [hstarted] at h
    cases h
  | ok started =>
    rw [hstarted] at h
    obtain rfl := Except.ok.inj h
    rw [sound_writeMarkdownTable_iff, List.forall_mem_map]
    exact clean_sessionRows_iff (forall₂_of_mapM hstarted)

/-- The table of the pull requests or issues is one when their texts are clean. -/
theorem sound_writeLifecycleSection_iff {rows : List LifecycleRow} :
    (writeLifecycleSection rows).Sound ↔ ∀ r ∈ rows, ∀ text ∈ r.texts, Clean text.toList := by
  unfold writeLifecycleSection
  rw [sound_writeMarkdownTable_iff, List.forall_mem_map]
  rfl

/-- So is the table of the mixed verdicts. -/
theorem sound_writeMixedVerdictsSection_iff {rows : List MixedVerdictRow} :
    (writeMixedVerdictsSection rows).Sound
      ↔ ∀ r ∈ rows, ∀ text ∈ r.texts, Clean text.toList := by
  unfold writeMixedVerdictsSection
  rw [sound_writeMarkdownTable_iff, List.forall_mem_map]
  rfl

/-- A table that is left out when there is nothing to show. -/
theorem forall_mem_ite_isEmpty {α : Type} {rows : List α} {t : Table} {P : Table → Prop}
    (h : rows = [] → P t) :
    (∀ t' ∈ (if rows.isEmpty then [] else [t]), P t') ↔ P t := by
  cases rows with
  | nil => exact iff_of_true (fun t' ht' => absurd ht' List.not_mem_nil) (h rfl)
  | cons r rows => exact List.forall_mem_singleton

/-- **The tables of a report are tables exactly if what is put into them is clean**, for a
report that shows a session. -/
theorem sound_renderMarkdown_iff (h : renderMarkdown view = Except.ok tables)
    (hne : view.sessions ≠ []) : (∀ t ∈ tables, t.Sound) ↔ view.Clean := by
  unfold renderMarkdown at h
  rw [if_neg (by rwa [List.isEmpty_iff])] at h
  cases hsessions : writeSessions view with
  | error e =>
    rw [hsessions] at h
    cases h
  | ok t =>
    rw [hsessions] at h
    obtain rfl := Except.ok.inj h
    rw [List.forall_mem_append, List.forall_mem_append, List.forall_mem_cons,
      forall_mem_ite_isEmpty, forall_mem_ite_isEmpty, forall_mem_ite_isEmpty,
      sound_writeSessions_iff hsessions, sound_writeLifecycleSection_iff,
      sound_writeLifecycleSection_iff, sound_writeMixedVerdictsSection_iff]
    · constructor
      · rintro ⟨⟨⟨hs, hpr⟩, hissue⟩, hmixed⟩
        exact ⟨hs, List.forall_mem_append.mpr ⟨hpr, hissue⟩, hmixed⟩
      · intro hclean
        obtain ⟨hpr, hissue⟩ := List.forall_mem_append.mp hclean.lifecycle
        exact ⟨⟨⟨hclean.sessions, hpr⟩, hissue⟩, hclean.mixed⟩
    · intro hnil
      rw [hnil, sound_writeMixedVerdictsSection_iff]
      exact fun r hr => absurd hr List.not_mem_nil
    · intro hnil
      rw [hnil, sound_writeLifecycleSection_iff]
      exact fun r hr => absurd hr List.not_mem_nil
    · intro hnil
      rw [hnil, sound_writeLifecycleSection_iff]
      exact fun r hr => absurd hr List.not_mem_nil

end Report

end HistoryReport
