import Sbagent.JsonValue
import Sbagent.Jsonl
import Sbagent.Ledger
import Sbagent.Runs

/-!
# The two ledgers as files

`sessions.jsonl` and `maintain.jsonl` hold one JSON record a line. Both are
appended to without a look at what they hold, and both are read line by line: a
line that is no record is reported, and passed over. A line of an older schema
is a record too, of the present one.

What an append adds is therefore found again only where it begins a line. A
write that was cut off leaves a line without its line feed, and the next record
is appended to that line. The record that was to be added is then not in the
ledger, and a record that only lacked its line feed is lost with it. An append
does what it is for exactly when the file `EndsBlank`.

Reading JSON is a parameter (`Serde`). What is asked of it is asked of the text
of one record (`Serde.Keeps`): that it is one line, that it is read as the
record also where white space precedes it, and that it is part of no other JSON
text that ends with it.
-/

open Fallible Jsonl

/-! ## Records as JSON -/

namespace Json

/-- The version of the schema that a record says it is of. -/
def schemaVersion (v : Json) : ℕ := ((v.get "schema_version").bind asU64).getD 1

end Json

/-- White space between the tokens of a JSON text. -/
def isJsonSpace (c : Char) : Bool := c = ' ' || c = '\t' || c = '\n' || c = '\r'

theorem isWhiteSpace_of_isJsonSpace {c : Char} (h : isJsonSpace c = true) :
    Text.isWhiteSpace c = true := by
  simp only [isJsonSpace, Bool.or_eq_true, decide_eq_true_eq] at h
  obtain ((rfl | rfl) | rfl) | rfl := h <;> decide

theorem head_not_isJsonSpace {text : String} (h : IsObjectText text) :
    text.toList.head?.any isJsonSpace = false := by
  rw [h.first]
  rfl

/-- How records of a type are written as JSON, and read. -/
structure Serde (ρ : Type) where
  toJson : ρ → Fallible String
  fromStr : String → Fallible Json
  fromValue : Json → Fallible ρ

/-- The last message of a failure, as it is shown in another one. -/
def shown (e : List String) : String := e.headD ""

/-- A text is what is written of a record, and is read as it: by itself and
behind white space, and behind nothing else. -/
structure Serde.Keeps {ρ : Type} (c : Serde ρ) (version : ℕ) (r : ρ) (text : String) :
    Prop where
  isLine : IsLine text
  notBlank : Text.isBlank text = false
  reads : ∀ ws : String, ws.toList.all isJsonSpace = true →
    ∃ v, c.fromStr (ws ++ text) = Except.ok v ∧ v.schemaVersion = version
      ∧ c.fromValue v = Except.ok r
  refuses : ∀ before : String, before.toList.all isJsonSpace = false →
    (c.fromStr (before ++ text)).isOk = false

/-! ## Lines of the ledgers -/

/-- Read a line of `sessions.jsonl`. -/
def SessionRecord.fromLedgerLine (c : Serde SessionRecord) (line : String) :
    Fallible SessionRecord :=
  match c.fromStr line with
  | Except.error e => bail s!"ledger line is not valid JSON: {shown e}"
  | Except.ok value =>
    match value.schemaVersion with
    | 1 | 2 =>
      match c.fromValue ((value.insert "schema_version" (Json.nat 3)).remove
          "stacks_core_base_sha") with
      | Except.error e =>
        bail s!"v{value.schemaVersion} ledger line failed v3 promotion: {shown e}"
      | Except.ok rec => Except.ok rec
    | 3 =>
      match c.fromValue value with
      | Except.error e => bail s!"v3 ledger line: {shown e}"
      | Except.ok rec => Except.ok rec
    | other =>
      bail s!"unsupported sessions.jsonl schema_version {other}; expected 1, 2, or 3"

/-- Read a line of `maintain.jsonl`. -/
def MaintEvent.fromLedgerLine (c : Serde MaintEvent) (line : String) :
    Fallible MaintEvent :=
  match c.fromStr line with
  | Except.error e => bail s!"maintain ledger line is not valid JSON: {shown e}"
  | Except.ok value =>
    match value.schemaVersion with
    | 1 =>
      match c.fromValue value with
      | Except.error e => bail s!"v1 maintain ledger line: {shown e}"
      | Except.ok event => do
        event.validateModel
        return event
    | other => bail s!"unsupported maintain.jsonl schema_version {other}; expected 1"

/-- A reader of lines takes a record's text for the record, by itself and behind
white space, and behind nothing else. -/
structure ReadsLine {ρ : Type} (read : String → Fallible ρ) (text : String) (r : ρ) :
    Prop where
  isLine : IsLine text
  notBlank : Text.isBlank text = false
  reads : ∀ ws : String, ws.toList.all isJsonSpace = true →
    read (ws ++ text) = Except.ok r
  refuses : ∀ before : String, before.toList.all isJsonSpace = false →
    (read (before ++ text)).isOk = false

section FromLedgerLine

variable {line text : String}

theorem SessionRecord.fromLedgerLine_readsLine {c : Serde SessionRecord}
    {r : SessionRecord} (h : c.Keeps 3 r text) :
    ReadsLine (SessionRecord.fromLedgerLine c) text r where
  isLine := h.isLine
  notBlank := h.notBlank
  reads ws hws := by
    obtain ⟨v, hv, hversion, hr⟩ := h.reads ws hws
    simp only [fromLedgerLine, hv, hversion, hr]
  refuses before hbefore := by
    have herr := h.refuses before hbefore
    unfold fromLedgerLine
    split
    case h_1 => rfl
    case h_2 value hvalue =>
      rw [hvalue] at herr
      cases herr

theorem MaintEvent.fromLedgerLine_readsLine {c : Serde MaintEvent} {e : MaintEvent}
    (hvalid : e.validateModel = Except.ok ()) (h : c.Keeps 1 e text) :
    ReadsLine (MaintEvent.fromLedgerLine c) text e where
  isLine := h.isLine
  notBlank := h.notBlank
  reads ws hws := by
    obtain ⟨v, hv, hversion, he⟩ := h.reads ws hws
    simp only [fromLedgerLine, hv, hversion, he, hvalid]
    rfl
  refuses before hbefore := by
    have herr := h.refuses before hbefore
    unfold fromLedgerLine
    split
    case h_1 => rfl
    case h_2 value hvalue =>
      rw [hvalue] at herr
      cases herr

end FromLedgerLine

/-! ## Reading a ledger -/

/-- What was read of a ledger: its records, and for each line that is neither
blank nor a record its number and what was wrong with it. -/
structure LedgerReadReport (ρ : Type) where
  records : List ρ
  skipped : List (ℕ × String)

section Reading

variable {ρ : Type}

/-- Read the lines of a ledger, the first of which has the given number. -/
def readLines (read : String → Fallible ρ) : ℕ → List String → LedgerReadReport ρ
  | _, [] => ⟨[], []⟩
  | n, line :: ls =>
    let rest := readLines read (n + 1) ls
    if Text.isBlank line = true then rest
    else
      match read line with
      | Except.ok r => { rest with records := r :: rest.records }
      | Except.error e => { rest with skipped := (n, ": ".intercalate e) :: rest.skipped }

/-- Read a ledger, if there is one. A file that is no text cannot be read. -/
def readAll (read : String → Fallible ρ) (context : String) (file : Option RawText) :
    Fallible (LedgerReadReport ρ) :=
  match file with
  | none => Except.ok ⟨[], []⟩
  | some raw =>
    match decode raw with
    | none => Except.error [context, "stream did not contain valid UTF-8"]
    | some s => Except.ok (readLines read 1 (Text.lines s))

theorem readLines_records (read : String → Fallible ρ) (n : ℕ) (ls : List String) :
    (readLines read n ls).records = ls.filterMap fun l => entry read (ofString l) := by
  induction ls generalizing n with
  | nil => rfl
  | cons l ls ih =>
    rw [List.filterMap_cons, readLines, ← ih (n + 1), entry, decode_ofString,
      Option.bind_some]
    split
    · rfl
    · cases hl : read l <;> simp [Except.toOption]

/-- **A ledger that is a text is read, and its records are those of its
lines.** -/
theorem readAll_some_iff {read : String → Fallible ρ} {context : String}
    {raw : RawText} {rs : List ρ} :
    (∃ rep, readAll read context (some raw) = Except.ok rep ∧ rep.records = rs)
      ↔ (decode raw).isSome = true ∧ records read raw = rs := by
  rw [readAll]
  cases hraw : decode raw with
  | none => simp
  | some s =>
    have hlines : records read raw = (readLines read 1 (Text.lines s)).records := by
      rw [decode_eq_some_iff.mp hraw, records, lines_ofString, List.filterMap_map,
        readLines_records]
      rfl
    simp [hlines]

/-- The records of a ledger are those of its lines. -/
theorem records_eq_of_readAll {read : String → Fallible ρ} {context : String}
    {file : Option RawText} {rep : LedgerReadReport ρ}
    (h : readAll read context file = Except.ok rep) :
    rep.records = records read (file.getD []) := by
  cases file with
  | none =>
    obtain rfl := Except.ok.inj h
    rfl
  | some raw => exact (readAll_some_iff.mp ⟨rep, h, rfl⟩).right.symm

end Reading

/-- Read `sessions.jsonl`. -/
def readSessionLedger (c : Serde SessionRecord) (path : String) :
    Option RawText → Fallible (LedgerReadReport SessionRecord) :=
  readAll (SessionRecord.fromLedgerLine c) s!"reading sessions.jsonl at {path}"

/-- Read `maintain.jsonl`. -/
def readMaintLedger (c : Serde MaintEvent) (path : String) :
    Option RawText → Fallible (LedgerReadReport MaintEvent) :=
  readAll (MaintEvent.fromLedgerLine c) s!"reading maintain.jsonl at {path}"

/-- A line of `sessions.jsonl` is a record of a session. -/
def lineNames (c : Serde SessionRecord) (id line : String) : Bool :=
  if Text.isBlank line = true then false
  else
    match SessionRecord.fromLedgerLine c line with
    | Except.error _ => false
    | Except.ok rec => rec.id == id

/-- Whether `sessions.jsonl` has a record of a session. Lines that are no records
are passed over. -/
def fileContainsId (c : Serde SessionRecord) (path id : String)
    (file : Option RawText) : Fallible Bool :=
  match file with
  | none => Except.ok false
  | some raw =>
    match decode raw with
    | none => Except.error [s!"reading {path}", "stream did not contain valid UTF-8"]
    | some s => Except.ok ((Text.lines s).any (lineNames c id))

theorem lineNames_iff {c : Serde SessionRecord} {id line : String} :
    lineNames c id line = true
      ↔ ∃ r, entry (SessionRecord.fromLedgerLine c) (ofString line) = some r
        ∧ r.id = id := by
  rw [entry, decode_ofString, Option.bind_some, lineNames]
  split
  · simp
  · cases SessionRecord.fromLedgerLine c line <;> simp [Except.toOption]

/-- **A session is found in the ledger exactly when the ledger is read and one
of its records is the session's.** -/
theorem fileContainsId_true_iff {c : Serde SessionRecord} {path id : String}
    {file : Option RawText} : fileContainsId c path id file = Except.ok true
      ↔ ∃ rep, readSessionLedger c path file = Except.ok rep
        ∧ ∃ r ∈ rep.records, r.id = id := by
  cases file with
  | none => simp [fileContainsId, readSessionLedger, readAll]
  | some raw =>
    cases hraw : decode raw with
    | none => simp [fileContainsId, readSessionLedger, readAll, hraw]
    | some s =>
      simp only [fileContainsId, readSessionLedger, readAll, hraw, Except.ok.injEq,
        exists_eq_left', List.any_eq_true, lineNames_iff, readLines_records,
        List.mem_filterMap]
      constructor
      · rintro ⟨l, hl, r, hr, hid⟩
        exact ⟨r, ⟨l, hl, hr⟩, hid⟩
      · rintro ⟨r, ⟨l, hl, hr⟩, hid⟩
        exact ⟨l, hl, r, hr, hid⟩

/-! ## Appending to a ledger -/

/-- What the file system does to an append. -/
structure AppendIo where
  /-- Create the directory of the file. -/
  createParent : Fallible Unit
  /-- Open the file, which creates it. -/
  openFile : Fallible Unit
  /-- After how many characters writing failed, if it did, and how. -/
  cutOff : Option (ℕ × String)
  deriving DecidableEq

namespace AppendIo

/-- Write at the end of a file that was opened. -/
def writeAll (io : AppendIo) (file : Option RawText) (written : RawText) :
    Fallible Unit × Option RawText :=
  match io.cutOff with
  | none => (Except.ok (), some (file.getD [] ++ written))
  | some (n, msg) => (bail msg, some (file.getD [] ++ written.take n))

/-- Nothing goes wrong. -/
def smooth : AppendIo := ⟨Except.ok (), Except.ok (), none⟩

end AppendIo

/-- Append a record to `sessions.jsonl`. The text of the record and its line feed
are written one after the other: writing may fail between them too. -/
def appendLedger (c : Serde SessionRecord) (io : AppendIo) (path : String)
    (file : Option RawText) (r : SessionRecord) : Fallible Unit × Option RawText :=
  match (c.toJson r).context "serializing SessionRecord" with
  | Except.error e => (Except.error e, file)
  | Except.ok text =>
    match io.openFile.context s!"opening {path} for append" with
    | Except.error e => (Except.error e, file)
    | Except.ok () => io.writeAll file (line text)

/-- Append an event to `maintain.jsonl`, when it is valid. -/
def appendEvent (c : Serde MaintEvent) (io : AppendIo) (path : String)
    (file : Option RawText) (e : MaintEvent) : Fallible Unit × Option RawText :=
  match e.validateModel.context "validating maintain event before append" with
  | Except.error err => (Except.error err, file)
  | Except.ok () =>
    match io.createParent.context s!"creating maintain.jsonl parent of {path}" with
    | Except.error err => (Except.error err, file)
    | Except.ok () =>
      match (c.toJson e).context "serializing maintain event" with
      | Except.error err => (Except.error err, file)
      | Except.ok text =>
        match io.openFile.context s!"opening maintain.jsonl for append at {path}" with
        | Except.error err => (Except.error err, file)
        | Except.ok () =>
          let written := io.writeAll file (line text)
          (written.fst.context s!"appending maintain event to {path}", written.snd)

/-- Nothing but white space is behind the last line feed of a file, and the file
is a text. -/
def EndsBlank (file : Option RawText) : Prop :=
  ∀ raw ∈ file, (decode raw).isSome = true
    ∧ ∀ c ∈ unfinished raw, c.any isJsonSpace = true

instance : DecidablePred EndsBlank := fun file =>
  match file with
  | none => isTrue fun _ h => nomatch h
  | some raw => decidable_of_iff ((decode raw).isSome = true
      ∧ ∀ c ∈ unfinished raw, c.any isJsonSpace = true) (by simp [EndsBlank])

/-- One reading of a ledger yields the records of another one, and one more. -/
def Extends {ρ : Type} (before after : Fallible (LedgerReadReport ρ)) (r : ρ) : Prop :=
  ∃ rep rep', before = Except.ok rep ∧ after = Except.ok rep'
    ∧ rep'.records = rep.records ++ [r]

section Appending

variable {ρ : Type} {read : String → Fallible ρ} {context path text : String}
  {file file' : Option RawText} {raw : RawText} {r : ρ} {io : AppendIo}

theorem writeAll_ok (h : (io.writeAll file raw).fst = Except.ok ()) :
    (io.writeAll file raw).snd = some (file.getD [] ++ raw) := by
  unfold AppendIo.writeAll at h ⊢
  split at h
  case h_1 hcut => rfl
  case h_2 hcut => cases h

/-- Appending to `sessions.jsonl` adds a line. -/
theorem appendLedger_ok {c : Serde SessionRecord} {r : SessionRecord}
    (h : appendLedger c io path file r = (Except.ok (), file')) :
    ∃ text, c.toJson r = Except.ok text ∧ file' = some (file.getD [] ++ line text) := by
  unfold appendLedger at h
  split at h
  case h_1 => cases congrArg Prod.fst h
  case h_2 text htext =>
    split at h
    case h_1 => cases congrArg Prod.fst h
    case h_2 =>
      obtain ⟨hok, rfl⟩ := Prod.mk.inj h
      exact ⟨text, context_ok_iff.mp htext, writeAll_ok hok⟩

/-- Appending to `maintain.jsonl` adds a line, for a valid event. -/
theorem appendEvent_ok {c : Serde MaintEvent} {e : MaintEvent}
    (h : appendEvent c io path file e = (Except.ok (), file')) :
    e.validateModel = Except.ok ()
      ∧ ∃ text, c.toJson e = Except.ok text
        ∧ file' = some (file.getD [] ++ line text) := by
  unfold appendEvent at h
  split at h
  case h_1 => cases congrArg Prod.fst h
  case h_2 hvalid =>
    split at h
    case h_1 => cases congrArg Prod.fst h
    case h_2 =>
      split at h
      case h_1 => cases congrArg Prod.fst h
      case h_2 text htext =>
        split at h
        case h_1 => cases congrArg Prod.fst h
        case h_2 =>
          obtain ⟨hok, rfl⟩ := Prod.mk.inj h
          exact ⟨context_ok_iff.mp hvalid, text, context_ok_iff.mp htext,
            writeAll_ok (context_ok_iff.mp hok)⟩

theorem decode_append_line (raw : RawText) (text : String) :
    (decode (raw ++ line text)).isSome = (decode raw).isSome := by
  have hline : line text = ofString (text ++ "\n") := by simp [line, ofString]
  rw [decode_append, hline, decode_ofString]
  cases decode raw <;> rfl

theorem decode_unfinished (h : (decode raw).isSome = true) :
    ∃ s, unfinished raw = ofString s := by
  rw [← finished_append_unfinished raw, decode_append] at h
  obtain ⟨s, hs⟩ := Option.isSome_iff_exists.mp h
  obtain ⟨a, -, hb⟩ := Option.bind_eq_some_iff.mp hs
  obtain ⟨b, hb, -⟩ := Option.map_eq_some_iff.mp hb
  exact ⟨b, decode_eq_some_iff.mp hb⟩

theorem isBlank_of_isJsonSpace {s : String} (h : s.toList.all isJsonSpace = true) :
    Text.isBlank s = true := by
  rw [Text.isBlank, List.all_eq_true]
  exact fun c hc => isWhiteSpace_of_isJsonSpace (List.all_eq_true.mp h c hc)

/-- What is behind white space on a line is the record of that line; what is
behind anything else is none. -/
theorem ReadsLine.entry_append (h : ReadsLine read text r) (s : String) :
    entry read (ofString s) = none ∧ entry read (ofString s ++ ofString text) = some r
      ↔ s.toList.all isJsonSpace = true := by
  have happ : ofString s ++ ofString text = ofString (s ++ text) := by simp [ofString]
  rw [happ, entry, entry, decode_ofString, decode_ofString, Option.bind_some,
    Option.bind_some, Text.isBlank_append, h.notBlank, Bool.and_false]
  constructor
  · rintro ⟨-, hr⟩
    by_contra hs
    have hread := h.refuses s (Bool.eq_false_iff.mpr hs)
    have hok : read (s ++ text) = Except.ok r := ok_of_toOption hr
    rw [hok] at hread
    cases hread
  · intro hs
    rw [if_pos (isBlank_of_isJsonSpace hs), h.reads s hs]
    exact ⟨rfl, rfl⟩

/-- **A line that was appended to a ledger adds its record to those that were
there exactly when the ledger ended blank.** -/
theorem extends_append_line_iff (h : ReadsLine read text r) :
    Extends (readAll read context file)
        (readAll read context (some (file.getD [] ++ line text))) r
      ↔ EndsBlank file := by
  have hafter : ∀ rs, (∃ rep, readAll read context (some (file.getD [] ++ line text))
        = Except.ok rep ∧ rep.records = rs)
      ↔ (decode (file.getD [])).isSome = true
        ∧ records read (file.getD [] ++ line text) = rs := by
    intro rs
    rw [readAll_some_iff, decode_append_line]
  cases file with
  | none =>
    have hentry := (h.entry_append "").mpr rfl
    have hrecords : records read ([] ++ line text) = [r] :=
      (records_append_iff h.isLine [] r).mpr hentry
    obtain ⟨rep', hrep', hr⟩ := (hafter [r]).mpr ⟨rfl, hrecords⟩
    exact iff_of_true ⟨_, rep', rfl, hrep', hr⟩ fun _ hraw => nomatch hraw
  | some raw =>
    have hends : EndsBlank (some raw) ↔ (decode raw).isSome = true
        ∧ ∀ c ∈ unfinished raw, c.any isJsonSpace = true := by simp [EndsBlank]
    rw [hends]
    constructor
    · -- the record is there, so what was behind the last line feed did not spoil its line
      rintro ⟨rep, rep', hrep, hrep', hr⟩
      obtain ⟨htext, hbefore⟩ := readAll_some_iff.mp ⟨rep, hrep, rfl⟩
      obtain ⟨s, hs⟩ := decode_unfinished htext
      have hall := (hafter _).mp ⟨rep', hrep', hr⟩
      rw [Option.getD_some, ← hbefore, records_append_iff h.isLine, hs,
        h.entry_append] at hall
      refine ⟨htext, fun c hc => ?_⟩
      rw [hs] at hc
      obtain ⟨d, hd, rfl⟩ := List.mem_map.mp hc
      exact List.all_eq_true.mp hall.right d hd
    · rintro ⟨htext, hblank⟩
      obtain ⟨s, hs⟩ := decode_unfinished htext
      have hspace : s.toList.all isJsonSpace = true := by
        refine List.all_eq_true.mpr fun d hd => ?_
        exact hblank (some d) (hs ▸ List.mem_map_of_mem hd)
      have hread : ∃ rep, readAll read context (some raw) = Except.ok rep
          ∧ rep.records = records read raw := readAll_some_iff.mpr ⟨htext, rfl⟩
      obtain ⟨rep, hrep, hbefore⟩ := hread
      obtain ⟨rep', hrep', hr⟩ := (hafter (records read raw ++ [r])).mpr
        ⟨htext, (records_append_iff h.isLine raw r).mpr
          (hs ▸ (h.entry_append s).mpr hspace)⟩
      exact ⟨rep, rep', hrep, hrep', hbefore ▸ hr⟩

/-- What was appended ends the file with a line feed. -/
theorem endsBlank_append_line (htext : (decode (file.getD [])).isSome = true)
    (text : String) : EndsBlank (some (file.getD [] ++ line text)) := by
  intro raw hraw
  obtain rfl := Option.some.inj hraw
  refine ⟨(decode_append_line _ text).trans htext, fun c hc => ?_⟩
  rw [unfinished_append_line] at hc
  cases hc

/-- Append records one after the other. -/
def appendStep (append : Option RawText → ρ → Fallible Unit × Option RawText)
    (file : Option RawText) (r : ρ) : Option (Option RawText) :=
  match append file r with
  | (Except.ok (), file') => some file'
  | (Except.error _, _) => none

/-- **Records that are appended to a ledger that ends blank are read after
those that were there, in their order.** -/
theorem readAll_run_appendStep
    {append : Option RawText → ρ → Fallible Unit × Option RawText}
    (happend : ∀ file r file', append file r = (Except.ok (), file') →
      ∃ text, ReadsLine read text r ∧ file' = some (file.getD [] ++ line text))
    {rep : LedgerReadReport ρ} (hends : EndsBlank file)
    (hread : readAll read context file = Except.ok rep) {rs : List ρ}
    (hrun : Runs.run (appendStep append) file rs = some file') :
    ∃ rep', readAll read context file' = Except.ok rep'
      ∧ rep'.records = rep.records ++ rs := by
  induction rs generalizing file rep with
  | nil =>
    obtain rfl : file = file' := Option.some.inj hrun
    exact ⟨rep, hread, (List.append_nil _).symm⟩
  | cons r rs ih =>
    obtain ⟨file₁, hstep, hrest⟩ := Runs.run_cons_eq_some_iff.mp hrun
    unfold appendStep at hstep
    split at hstep
    case h_2 => cases hstep
    case h_1 file₂ hok =>
      obtain rfl := Option.some.inj hstep
      obtain ⟨text, htext, rfl⟩ := happend _ _ _ hok
      obtain ⟨rep₀, rep₁, hrep₀, hrep₁, hrecords⟩ :=
        (extends_append_line_iff htext).mpr hends
      obtain rfl : rep = rep₀ := Except.ok.inj (hread.symm.trans hrep₀)
      have hdecode : (decode (file.getD [])).isSome = true := by
        cases file with
        | none => rfl
        | some raw => exact (hends raw rfl).left
      obtain ⟨rep', hrep', hall⟩ :=
        ih (endsBlank_append_line hdecode text) hrep₁ hrest
      refine ⟨rep', hrep', ?_⟩
      rw [hall, hrecords, List.append_assoc, List.singleton_append]

end Appending

/-! ## A record that lacks its line feed -/

/-- The reading and writing of one record. -/
def loneSerde {ρ : Type} (text : String) (v : Json) (r : ρ) : Serde ρ where
  toJson _ := Except.ok text
  fromStr s :=
    if s.toList.dropWhile isJsonSpace = text.toList then Except.ok v
    else bail "expected value"
  fromValue _ := Except.ok r

section LoneSerde

variable {ρ : Type} {text : String} {v : Json} {r : ρ} {version : ℕ}

theorem loneSerde_keeps (hobject : IsObjectText text) (hv : v.schemaVersion = version) :
    (loneSerde text v r).Keeps version r text where
  isLine := hobject.isLine
  notBlank := hobject.not_isBlank
  reads ws hws := by
    refine ⟨v, if_pos ?_, hv, rfl⟩
    rw [String.toList_append, List.dropWhile_append_of_pos (List.all_eq_true.mp hws)]
    have hhead := head_not_isJsonSpace hobject
    cases htext : text.toList with
    | nil => rfl
    | cons c cs =>
      rw [htext] at hhead
      exact List.dropWhile_cons_of_neg (Bool.eq_false_iff.mp hhead)
  refuses before hbefore := by
    have hne : before.toList.dropWhile isJsonSpace ≠ [] := by
      intro hnil
      rw [List.dropWhile_eq_nil_iff] at hnil
      rw [List.all_eq_true.mpr hnil] at hbefore
      cases hbefore
    have hcut : (before ++ text).toList.dropWhile isJsonSpace ≠ text.toList := by
      intro h
      rw [String.toList_append, List.dropWhile_append,
        if_neg (by simpa using hne)] at h
      exact hne (List.append_left_eq_self.mp h)
    show isOk (if _ then _ else _) = false
    rw [if_neg hcut]
    rfl

end LoneSerde

/-- The first observation of an open pull request. -/
def seenOpen : MaintEvent where
  kind := MaintEventKind.prOpen
  observedAt := "2026-06-13T12:00:00Z"
  sessionId := "20260611-172955"
  targetId := some "target-a"
  familyId := none
  fixSignature := none
  prUrl := some "https://github.com/owner/repo/pull/1"
  issueUrl := none
  priorState := none
  newState := "open"
  headSha := none

/-- The event as `maintain.jsonl` holds it. -/
def seenOpenText : String :=
  "\x7b\"schema_version\":1,\"kind\":\"pr_open\","
    ++ "\"observed_at\":\"2026-06-13T12:00:00Z\",\"session_id\":\"20260611-172955\","
    ++ "\"target_id\":\"target-a\",\"pr_url\":\"https://github.com/owner/repo/pull/1\","
    ++ "\"new_state\":\"open\"\x7d"

/-- The event as a JSON value. -/
def seenOpenJson : Json :=
  Json.object [("schema_version", Json.nat 1), ("kind", Json.string "pr_open"),
    ("observed_at", Json.string "2026-06-13T12:00:00Z"),
    ("session_id", Json.string "20260611-172955"), ("target_id", Json.string "target-a"),
    ("pr_url", Json.string "https://github.com/owner/repo/pull/1"),
    ("new_state", Json.string "open")]

/-- A session that failed in triage. -/
def failedInTriage : SessionRecord where
  id := "20260611-172955"
  artifactBranch := "session/20260611-172955"
  artifactSha := "cafebabe"
  artifactUrl := none
  startedAt := "2026-06-11T17:29:55Z"
  finishedAt := "2026-06-11T18:00:00Z"
  status := SessionStatus.failed
  failurePhase := some "triage"
  failureReason := none
  sbagentVersion := "0.3.0"
  sbagentGitSha := none
  range := ⟨none, none, none, none, "mainnet"⟩
  baselineRunIds := []
  phaseDurationsSecs := ∅
  targets := []
  sourceUrl := none
  sourceBranch := none
  sourceSha := none
  sourceFetchedAt := none

/-- The session's record as `sessions.jsonl` holds it. -/
def failedInTriageText : String :=
  "\x7b\"kind\":\"session_completed\",\"schema_version\":3,\"id\":\"20260611-172955\","
    ++ "\"artifact_branch\":\"session/20260611-172955\",\"artifact_sha\":\"cafebabe\","
    ++ "\"started_at\":\"2026-06-11T17:29:55Z\",\"finished_at\":\"2026-06-11T18:00:00Z\","
    ++ "\"status\":\"failed\",\"failure_phase\":\"triage\",\"sbagent_version\":\"0.3.0\","
    ++ "\"range\":\x7b\"network\":\"mainnet\"\x7d,\"baseline_run_ids\":[],"
    ++ "\"phase_durations_secs\":\x7b\x7d,\"targets\":[]\x7d"

/-- The session's record as a JSON value. -/
def failedInTriageJson : Json :=
  Json.object [("kind", Json.string "session_completed"), ("schema_version", Json.nat 3),
    ("id", Json.string "20260611-172955"),
    ("artifact_branch", Json.string "session/20260611-172955"),
    ("artifact_sha", Json.string "cafebabe"),
    ("started_at", Json.string "2026-06-11T17:29:55Z"),
    ("finished_at", Json.string "2026-06-11T18:00:00Z"), ("status", Json.string "failed"),
    ("failure_phase", Json.string "triage"), ("sbagent_version", Json.string "0.3.0"),
    ("range", Json.object [("network", Json.string "mainnet")]),
    ("baseline_run_ids", Json.array []), ("phase_durations_secs", Json.object []),
    ("targets", Json.array [])]

/-- How the event is written and read. -/
def seenOpenSerde : Serde MaintEvent := loneSerde seenOpenText seenOpenJson seenOpen

/-- How the session's record is written and read. -/
def failedInTriageSerde : Serde SessionRecord :=
  loneSerde failedInTriageText failedInTriageJson failedInTriage

set_option maxRecDepth 8000 in
theorem seenOpenText_isObject : IsObjectText seenOpenText := by
  unfold seenOpenText
  constructor
  · simp only [String.toList_append]
    iterate 4 rw [String.toList_ofList]
    decide
  · simp only [String.toList_append]
    iterate 4 rw [String.toList_ofList]
    rfl
  · simp only [String.toList_append]
    iterate 4 rw [String.toList_ofList]
    rfl

theorem seenOpen_keeps : seenOpenSerde.Keeps 1 seenOpen seenOpenText :=
  loneSerde_keeps seenOpenText_isObject rfl

set_option maxRecDepth 8000 in
theorem failedInTriageText_isObject : IsObjectText failedInTriageText := by
  unfold failedInTriageText
  constructor
  · simp only [String.toList_append]
    iterate 6 rw [String.toList_ofList]
    decide
  · simp only [String.toList_append]
    iterate 6 rw [String.toList_ofList]
    rfl
  · simp only [String.toList_append]
    iterate 6 rw [String.toList_ofList]
    rfl

theorem failedInTriage_keeps : failedInTriageSerde.Keeps 3 failedInTriage failedInTriageText :=
  loneSerde_keeps failedInTriageText_isObject rfl

theorem seenOpen_kept (text : String)
    (h : seenOpenSerde.toJson seenOpen = Except.ok text) :
    seenOpenSerde.Keeps 1 seenOpen text := by
  obtain rfl : seenOpenText = text := Except.ok.inj h
  exact seenOpen_keeps

theorem failedInTriage_kept (text : String)
    (h : failedInTriageSerde.toJson failedInTriage = Except.ok text) :
    failedInTriageSerde.Keeps 3 failedInTriage text := by
  obtain rfl : failedInTriageText = text := Except.ok.inj h
  exact failedInTriage_keeps

/-- A file that holds a line without its line feed does not end blank. -/
theorem not_endsBlank_of_isLine {text : String} (h : IsLine text)
    (hspace : text.toList.head?.any isJsonSpace = false) :
    ¬ EndsBlank (some (ofString text)) := by
  intro hends
  have hun : unfinished (ofString text) = ofString text := by
    rw [unfinished, List.rtakeWhile_eq_self_iff]
    exact fun c hc => decide_eq_true (ne_of_mem_ofString h hc)
  cases htext : text.toList with
  | nil => exact h.notEmpty (String.toList_eq_nil_iff.mp htext)
  | cons c cs =>
    have hc : some c ∈ ofString text := by
      rw [ofString, htext]
      exact List.mem_cons_self
    have hspace' := (hends _ rfl).right (some c) (by rw [hun]; exact hc)
    rw [htext] at hspace
    exact absurd hspace' (Bool.eq_false_iff.mp hspace)

theorem seenOpen_appended (raw : RawText) :
    appendEvent seenOpenSerde AppendIo.smooth "maintain.jsonl" (some raw) seenOpen
      = (Except.ok (), some (raw ++ line seenOpenText)) := rfl

theorem failedInTriage_appended (raw : RawText) :
    appendLedger failedInTriageSerde AppendIo.smooth "sessions.jsonl" (some raw)
        failedInTriage
      = (Except.ok (), some (raw ++ line failedInTriageText)) := rfl

/-- What is appended behind a line that lacks its line feed is not read. -/
theorem not_extends_append_line {ρ : Type} {read : String → Fallible ρ}
    {context text : String} {r : ρ} (h : ReadsLine read text r)
    (hspace : text.toList.head?.any isJsonSpace = false) :
    ¬ Extends (readAll read context (some (ofString text)))
      (readAll read context (some (ofString text ++ line text))) r := by
  intro hext
  have hends : EndsBlank (some (ofString text)) := (extends_append_line_iff h).mp hext
  exact not_endsBlank_of_isLine h.isLine hspace hends

/-- **What an append to either ledger adds is read again, behind what was read
before, exactly when the ledger ended blank.** -/
theorem append_extends_iff {ce : Serde MaintEvent} {cs : Serde SessionRecord}
    {e : MaintEvent} {r : SessionRecord}
    (he : ∀ text, ce.toJson e = Except.ok text → ce.Keeps 1 e text)
    (hr : ∀ text, cs.toJson r = Except.ok text → cs.Keeps 3 r text) (io : AppendIo)
    (path : String) (file : Option RawText) :
    (∀ file', appendEvent ce io path file e = (Except.ok (), file') →
      (Extends (readMaintLedger ce path file) (readMaintLedger ce path file') e
        ↔ EndsBlank file))
    ∧ ∀ file', appendLedger cs io path file r = (Except.ok (), file') →
      (Extends (readSessionLedger cs path file) (readSessionLedger cs path file') r
        ↔ EndsBlank file) := by
  constructor
  · intro file' h
    obtain ⟨hvalid, text, htext, rfl⟩ := appendEvent_ok h
    exact extends_append_line_iff
      (MaintEvent.fromLedgerLine_readsLine hvalid (he text htext))
  · intro file' h
    obtain ⟨text, htext, rfl⟩ := appendLedger_ok h
    exact extends_append_line_iff
      (SessionRecord.fromLedgerLine_readsLine (hr text htext))

/-- A record is appended to a ledger that holds it already. -/
theorem append_extends_iff_again :
    (Extends
        (readMaintLedger seenOpenSerde "maintain.jsonl" (some (line seenOpenText)))
        (readMaintLedger seenOpenSerde "maintain.jsonl"
          (some (line seenOpenText ++ line seenOpenText))) seenOpen
      ↔ EndsBlank (some (line seenOpenText)))
    ∧ (Extends
        (readSessionLedger failedInTriageSerde "sessions.jsonl"
          (some (line failedInTriageText)))
        (readSessionLedger failedInTriageSerde "sessions.jsonl"
          (some (line failedInTriageText ++ line failedInTriageText))) failedInTriage
      ↔ EndsBlank (some (line failedInTriageText))) :=
  ⟨(append_extends_iff seenOpen_kept failedInTriage_kept AppendIo.smooth "maintain.jsonl"
      (some (line seenOpenText))).left _ (seenOpen_appended _),
    (append_extends_iff seenOpen_kept failedInTriage_kept AppendIo.smooth "sessions.jsonl"
      (some (line failedInTriageText))).right _ (failedInTriage_appended _)⟩

/-- A record that lacks nothing but its line feed, in either ledger: the next
one is appended to it, and is not read. -/
theorem append_merges_records :
    (∃ file', appendEvent seenOpenSerde AppendIo.smooth "maintain.jsonl"
        (some (ofString seenOpenText)) seenOpen = (Except.ok (), file')
      ∧ ¬ Extends
        (readMaintLedger seenOpenSerde "maintain.jsonl" (some (ofString seenOpenText)))
        (readMaintLedger seenOpenSerde "maintain.jsonl" file') seenOpen)
    ∧ ∃ file', appendLedger failedInTriageSerde AppendIo.smooth "sessions.jsonl"
        (some (ofString failedInTriageText)) failedInTriage = (Except.ok (), file')
      ∧ ¬ Extends
        (readSessionLedger failedInTriageSerde "sessions.jsonl"
          (some (ofString failedInTriageText)))
        (readSessionLedger failedInTriageSerde "sessions.jsonl" file') failedInTriage :=
  ⟨⟨_, seenOpen_appended _, not_extends_append_line
      (MaintEvent.fromLedgerLine_readsLine rfl seenOpen_keeps)
      (head_not_isJsonSpace seenOpenText_isObject)⟩,
    ⟨_, failedInTriage_appended _, not_extends_append_line
      (SessionRecord.fromLedgerLine_readsLine failedInTriage_keeps)
      (head_not_isJsonSpace failedInTriageText_isObject)⟩⟩
