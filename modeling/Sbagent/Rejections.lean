import Sbagent.Jsonl
import Sbagent.Locks
import Sbagent.Runs
import Sbagent.Slices

/-!
# The ledger of analyzed rejections

Families that an analyzer ruled out are kept in `analyzed-rejections.jsonl`, one
record a line. An append writes at the end of the file. A trim loads the records,
passes them through a filter, writes what is left to a temporary file and renames
that over the ledger. Both are done inside one exclusive lock, and so no trim
overlooks a record that was appended meanwhile: what a trim renames is what its
filter makes of the records that are in the file at that moment. Before it waits for
the lock, it looks whether there is anything to drop, and does nothing if there is not.

Three things are lost all the same. An append does not look at how the file
ends, and merges its record with a line that was not finished. A trim writes
back only what it could parse. And what a filter returns is written in the
order in which the filter returns it: `--keep-last` sorts by time, the newest
first. In a run without these (`KeepsLedger`) the file holds, at every moment,
what is owed to it (`State.Kept`).
-/

open Fallible Jsonl

namespace Rejections

/-! ## Records -/

/-- Why a family was ruled out. -/
inductive Outcome where
  | rejected
  | notActionable
  deriving DecidableEq

/-- One record of the ledger. -/
structure Record where
  ts : String
  sessionId : String
  familyId : String
  lens : String
  outcome : Outcome
  kind : String
  suspectedSpans : List String
  contractFunction : Option String
  fingerprint : String
  stacksCoreSha : Option String
  reason : String
  evidencePath : Option String
  deriving DecidableEq

/-- The contract of a family, unless it is blank. -/
def canonicalContract (contract : Option String) : Option String :=
  contract.filter fun c => !Text.isBlank c

/-- A family without spans and without a contract has the fingerprint of many. -/
def fingerprintSpecificEnough (spans : List String) (contract : Option String) : Bool :=
  (spans.any fun s => !Text.isBlank s) || (canonicalContract contract).isSome

/-- How records are written as JSON, and read. -/
structure Codec where
  toJson : Record → Fallible String
  fromJson : String → Fallible Record

/-- A text is what is written of a record: one line, with no white space around
it, that is read as the record, and no beginning of which is a record. -/
structure Codec.Keeps (c : Codec) (r : Record) (text : String) : Prop where
  isLine : IsLine text
  first : text.toList.head?.any Text.isWhiteSpace = false
  last : text.toList.getLast?.any Text.isWhiteSpace = false
  reads : c.fromJson text = Except.ok r
  beginningFails : ∀ l, l <+: text.toList → l ≠ text.toList →
    (c.fromJson (String.ofList l)).isOk = false

/-- Whatever is written is kept. -/
def Codec.Faithful (c : Codec) : Prop :=
  ∀ r text, c.toJson r = Except.ok text → c.Keeps r text

/-- Read a line, without the white space around it. -/
def Codec.read (c : Codec) (line : String) : Fallible Record := c.fromJson (Text.trim line)

/-! ## Filters -/

/-- The date of a record. -/
def datePart (r : Record) : String :=
  ((Slices.takeBytes 10 r.ts.toList).map String.ofList).getD ""

/-- A record is at least as new as another one. -/
def Newer (a b : Record) : Prop := b.ts ≤ a.ts

instance : DecidableRel Newer := fun a b => inferInstanceAs (Decidable (b.ts ≤ a.ts))

instance : Std.Total Newer := ⟨fun a b => le_total b.ts a.ts⟩

instance : IsTrans Record Newer := ⟨fun _ _ _ hab hbd => le_trans hbd hab⟩

/-- The newest first. Records of the same time stay in their order. -/
def newestFirst (rs : List Record) : List Record := rs.insertionSort Newer

/-- Keep the newest records of each family. -/
def keepLastPerFamily (rs : List Record) (n : ℕ) : List Record :=
  let families := (rs.map Record.familyId).dedup.insertionSort fun a b => a ≤ b
  newestFirst (families.flatMap fun id =>
    (newestFirst (rs.filter fun r => r.familyId = id)).take n)

/-- What the commands that drop records are asked for. -/
inductive Filter where
  /-- `rejections trim`: before a date, before a revision, or beyond a number. -/
  | trim (before beforeSha : Option String) (keepLast : Option ℕ)
  /-- `rejections remove`, by family. -/
  | removeFamily (familyId : String)
  /-- `rejections remove --fingerprint`. -/
  | removeFingerprint (fingerprint : String)
  deriving DecidableEq

namespace Filter

/-- A record is not before the date. -/
def fromDate (before : Option String) (r : Record) : Bool :=
  match before with
  | none => true
  | some date => decide (date ≤ datePart r)

/-- A record is of a revision, and not of one that is to be dropped. -/
def ofOtherSha (beforeSha : Option String) (r : Record) : Bool :=
  match beforeSha with
  | none => true
  | some sha => r.stacksCoreSha.any fun s => !Text.startsWith s sha

/-- What a filter leaves of some records. -/
def apply (rs : List Record) : Filter → List Record
  | trim before beforeSha keepLast =>
    let left := (rs.filter (fromDate before)).filter (ofOtherSha beforeSha)
    match keepLast with
    | none => left
    | some n => keepLastPerFamily left n
  | removeFamily familyId => rs.filter fun r => r.familyId ≠ familyId
  | removeFingerprint fingerprint => rs.filter fun r => r.fingerprint ≠ fingerprint

/-- The records that a filter leaves, in the order in which they were. -/
def kept (rs : List Record) (f : Filter) : List Record := rs.bagInter (f.apply rs)

/-- A filter leaves records in the order in which they were. -/
def KeepsOrder (rs : List Record) (f : Filter) : Prop := f.apply rs = f.kept rs

instance (rs : List Record) : DecidablePred (KeepsOrder rs) :=
  fun f => inferInstanceAs (Decidable (f.apply rs = f.kept rs))

end Filter

/-! ## Loading and writing -/

/-- The records of some lines. A line that is no text cannot be read, and one
that is no record is passed over. -/
def loadLines (c : Codec) : List RawText → Fallible (List Record)
  | [] => Except.ok []
  | l :: ls =>
    match decode l with
    | none => bail "stream did not contain valid UTF-8"
    | some line => do
      let rest ← loadLines c ls
      if Text.isBlank line = true then return rest
      else
        match c.read line with
        | Except.ok r => return r :: rest
        | Except.error _ => return rest

/-- The records of the ledger, if there is one. -/
def loadAllLocked (c : Codec) (file : Option RawText) : Fallible (List Record) :=
  match file with
  | none => Except.ok []
  | some raw => loadLines c (lines raw)

/-- Write records, one a line. Writing stops at a record that cannot be written. -/
def writeRecords (c : Codec) : List Record → Fallible Unit × RawText
  | [] => (Except.ok (), [])
  | r :: rs =>
    match (c.toJson r).context "serializing record during rewrite" with
    | Except.error e => (Except.error e, [])
    | Except.ok text =>
      let rest := writeRecords c rs
      (rest.fst, line text ++ rest.snd)

/-! ## Processes -/

/-- What a process does to the ledger. -/
inductive Op where
  | append (r : Record)
  | rewrite (f : Filter)
  deriving DecidableEq

/-- How far a process is. -/
inductive Phase where
  | idle
  /-- It is going to look whether a filter drops anything. -/
  | previewing (f : Filter)
  /-- It waits for the lock. -/
  | waiting (op : Op)
  /-- It has the lock. -/
  | holding (op : Op)
  /-- The records were loaded, and filtered. -/
  | loaded (f : Filter) (after : List Record)
  /-- The temporary file is written. -/
  | written (f : Filter) (after : List Record)
  /-- It is done, and has the lock still. -/
  | finishing
  deriving DecidableEq

/-- A process is inside the one lock of the memory files. -/
def Phase.inside : Phase → Option Unit
  | idle | previewing _ | waiting _ => none
  | holding _ | loaded _ _ | written _ _ | finishing => some ()

/-- The files, the lock and the processes. -/
structure State where
  /-- The ledger. -/
  file : Option RawText
  /-- The temporary file of a rewrite. -/
  tmp : Option RawText
  held : Locks.Holders Unit
  phase : ℕ → Phase
  /-- The records that were in the ledger at first or were appended, without those
  that a filter has selected since. -/
  owed : List Record
  /-- The lines that a trim found and could not parse. -/
  unparsed : List RawText

/-- What can happen next. -/
inductive Event where
  /-- A process is asked to do something. -/
  | call (p : ℕ) (op : Op)
  | preview (p : ℕ)
  | acquire (p : ℕ)
  /-- A record is appended, or only some of its characters are. -/
  | write (p : ℕ) (cut : Option ℕ)
  | load (p : ℕ)
  /-- The temporary file is written, or only some of it is. -/
  | writeTmp (p : ℕ) (cut : Option ℕ)
  | rename (p : ℕ)
  /-- A step fails before it has done anything, or the operator has not confirmed what
  there is to drop. -/
  | fail (p : ℕ)
  | release (p : ℕ)
  /-- A process ends, wherever it is. -/
  | die (p : ℕ)
  deriving DecidableEq

namespace State

/-- The contents of the ledger: those of an empty file if there is none. -/
def raw (s : State) : RawText := s.file.getD []

/-- A process goes on. -/
def enter (s : State) (p : ℕ) (x : Phase) : State :=
  { s with phase := Function.update s.phase p x }

/-- Nobody does anything, and what the ledger holds is owed to it. -/
def start (c : Codec) (file tmp : Option RawText) : State where
  file := file
  tmp := tmp
  held := fun _ => none
  phase := fun _ => Phase.idle
  owed := records c.read (file.getD [])
  unparsed := []

/-- A record is written at the end of the ledger, as far as writing goes. It is
owed from then on if its whole text was written. -/
def appendText (s : State) (r : Record) (text : String) (cut : Option ℕ) : State :=
  match cut with
  | none =>
    { s with
      file := some (s.raw ++ line text)
      owed := s.owed ++ [r] }
  | some n =>
    { s with
      file := some (s.raw ++ (line text).take n)
      owed := if text.length ≤ n then s.owed ++ [r] else s.owed }

end State

/-- One event. -/
def step (c : Codec) (s : State) : Event → Option State
  | Event.call p op =>
    match s.phase p, op with
    | Phase.idle, Op.append r =>
      if fingerprintSpecificEnough r.suspectedSpans r.contractFunction = true then
        some (s.enter p (Phase.waiting op))
      else some s
    | Phase.idle, Op.rewrite f => some (s.enter p (Phase.previewing f))
    | _, _ => none
  | Event.preview p =>
    match s.phase p, s.held () with
    | Phase.previewing f, none =>
      match loadAllLocked c s.file with
      | Except.error _ => some (s.enter p Phase.idle)
      | Except.ok before =>
        if (f.apply before).length = before.length then some (s.enter p Phase.idle)
        else some (s.enter p (Phase.waiting (Op.rewrite f)))
    | _, _ => none
  | Event.acquire p =>
    match s.phase p, s.held () with
    | Phase.waiting op, none => some
      { s.enter p (Phase.holding op) with held := Function.update s.held () (some p) }
    | _, _ => none
  | Event.write p cut =>
    match s.phase p with
    | Phase.holding (Op.append r) =>
      match c.toJson r with
      -- the file was opened, and is there from then on
      | Except.error _ => some { s.enter p Phase.finishing with file := some s.raw }
      | Except.ok text => some ((s.appendText r text cut).enter p Phase.finishing)
    | _ => none
  | Event.load p =>
    match s.phase p with
    | Phase.holding (Op.rewrite f) =>
      match loadAllLocked c s.file with
      | Except.error _ => some (s.enter p Phase.finishing)
      | Except.ok before => some
        { s.enter p (Phase.loaded f (f.apply before)) with
          unparsed := s.unparsed ++ junk c.read s.raw }
    | _ => none
  | Event.writeTmp p cut =>
    match s.phase p with
    | Phase.loaded f after =>
      match writeRecords c after, cut with
      | (Except.ok (), text), none => some
        { s.enter p (Phase.written f after) with tmp := some text }
      | (Except.ok (), text), some n => some
        { s.enter p Phase.finishing with tmp := some (text.take n) }
      | (Except.error _, text), _ => some
        { s.enter p Phase.finishing with tmp := some text }
    | _ => none
  | Event.rename p =>
    match s.phase p, s.tmp with
    | Phase.written f _, some text => some
      { s.enter p Phase.finishing with
        file := some text
        tmp := none
        owed := f.kept s.owed }
    | _, _ => none
  | Event.fail p =>
    match s.phase p with
    | Phase.previewing _ => some (s.enter p Phase.idle)
    | Phase.holding _ | Phase.loaded _ _ | Phase.written _ _ =>
      some (s.enter p Phase.finishing)
    | _ => none
  | Event.release p =>
    match s.phase p with
    | Phase.finishing => some
      { s.enter p Phase.idle with held := Function.update s.held () none }
    | _ => none
  | Event.die p => some
    { s.enter p Phase.idle with held := Locks.drop s.held (s.phase p).inside }

/-! ## What is owed to the ledger -/

/-- The ledger holds exactly the records that are owed to it, in their order,
and every line that a trim could not parse. -/
def State.Kept (c : Codec) (s : State) : Prop :=
  records c.read s.raw = s.owed ∧ ∀ l ∈ s.unparsed, l ∈ junk c.read s.raw

/-- The condition on an event. An append finds only white space behind the last
line feed of the ledger, unless it writes nothing; and what a trim puts in the
ledger's place is put there when each line of the ledger is a record or blank,
and when the filter leaves them in their order. -/
def KeepsLedger (c : Codec) (s : State) : Event → Prop
  | Event.write _ cut =>
    cut = some 0 ∨ (decode (unfinished s.raw)).any Text.isBlank = true
  | Event.rename p =>
    match s.phase p with
    | Phase.written f _ =>
      junk c.read s.raw = [] ∧ f.KeepsOrder (records c.read s.raw)
    | _ => True
  | _ => True

instance (c : Codec) (s : State) (e : Event) : Decidable (KeepsLedger c s e) :=
  match e with
  | Event.write _ _ => inferInstanceAs (Decidable (_ ∨ _))
  | Event.rename p =>
    match h : s.phase p with
    | Phase.written f _ => decidable_of_iff
        (junk c.read s.raw = [] ∧ f.KeepsOrder (records c.read s.raw))
        (by simp only [KeepsLedger, h])
    | Phase.idle | Phase.previewing _ | Phase.waiting _ | Phase.holding _ | Phase.loaded _ _
    | Phase.finishing => isTrue (by simp only [KeepsLedger, h])
  | Event.call _ _ | Event.preview _ | Event.acquire _ | Event.load _ | Event.writeTmp _ _
  | Event.fail _ | Event.release _ | Event.die _ => isTrue trivial

/-! ## Lines that are read without the white space around them -/

section Lines

variable {c : Codec} {r : Record} {text s : String}

theorem Codec.Keeps.trim_eq (h : c.Keeps r text) : Text.trim text = text :=
  Text.trim_eq_self h.first h.last

theorem Codec.Keeps.toList_ne_nil (h : c.Keeps r text) : text.toList ≠ [] :=
  fun hnil => h.isLine.notEmpty (String.toList_eq_nil_iff.mp hnil)

theorem not_isBlank_of_first {t : String} (hne : t.toList ≠ [])
    (h : t.toList.head?.any Text.isWhiteSpace = false) : Text.isBlank t = false := by
  unfold Text.isBlank
  cases ht : t.toList with
  | nil => exact absurd ht hne
  | cons d l =>
    rw [ht] at h
    rw [List.all_cons, show Text.isWhiteSpace d = false from h, Bool.false_and]

/-- What is written of a record is read as the record. -/
theorem Codec.Keeps.writes (h : c.Keeps r text) : Writes c.read text r where
  isLine := h.isLine
  notBlank := not_isBlank_of_first h.toList_ne_nil h.first
  reads := by
    rw [Codec.read, h.trim_eq]
    exact h.reads

/-- White space in front of a line does not change what is on it. -/
theorem entry_append_of_isBlank (h : Text.isBlank s = true) (t : String) :
    entry c.read (ofString s ++ ofString t) = entry c.read (ofString t) := by
  have happ : ofString s ++ ofString t = ofString (s ++ t) := by simp [ofString]
  rw [happ, entry, entry, decode_ofString, decode_ofString, Option.bind_some,
    Option.bind_some, Text.isBlank_append, h, Bool.true_and]
  unfold Codec.read
  rw [Text.trim_append_of_isBlank h]

/-- The beginning of a record is no record. -/
theorem Codec.Keeps.entry_take (h : c.Keeps r text) {n : ℕ} (hn : n < text.length) :
    entry c.read (ofString (String.ofList (text.toList.take n))) = none := by
  rw [entry, decode_ofString, Option.bind_some]
  split
  case isTrue => rfl
  case isFalse hblank =>
    have hfirst : (String.ofList (text.toList.take n)).toList.head?.any Text.isWhiteSpace
        = false := by
      have htext := h.first
      rw [String.toList_ofList]
      cases n with
      | zero => rfl
      | succ n =>
        cases ht : text.toList with
        | nil => rfl
        | cons d l =>
          rw [ht] at htext
          exact htext
    have hpre : (Text.trim (String.ofList (text.toList.take n))).toList
        <+: text.toList.take n := by
      rw [Text.trim_eq_trimEnd hfirst, Text.trimEnd_toList, String.toList_ofList]
      exact List.rdropWhile_prefix _ _
    have hne : (Text.trim (String.ofList (text.toList.take n))).toList ≠ text.toList := by
      intro heq
      have hlen := hpre.length_le
      rw [heq, List.length_take, String.length_toList] at hlen
      omega
    have hfails := h.beginningFails _ (hpre.trans (List.take_prefix n _)) hne
    rw [String.ofList_toList] at hfails
    unfold Codec.read
    cases hread : c.fromJson (Text.trim (String.ofList (text.toList.take n))) with
    | error e => rfl
    | ok r' =>
      rw [hread] at hfails
      cases hfails

end Lines

/-! ## What loading and writing do -/

section Files

variable {c : Codec} {rs : List Record} {raw : RawText} {file : Option RawText}

theorem loadLines_ok {ls : List RawText} (h : loadLines c ls = Except.ok rs) :
    rs = ls.filterMap (entry c.read) := by
  induction ls generalizing rs with
  | nil => exact (Except.ok.inj h).symm
  | cons l ls ih =>
    rw [loadLines] at h
    cases hl : decode l with
    | none =>
      rw [hl] at h
      cases h
    | some line =>
      rw [hl] at h
      obtain ⟨rest, hrest, hrs⟩ := bind_ok_iff.mp h
      rw [List.filterMap_cons, entry, hl, Option.bind_some, ← ih hrest]
      split at hrs
      case isTrue hblank =>
        rw [if_pos hblank]
        exact (pure_ok_iff.mp hrs).symm
      case isFalse hblank =>
        rw [if_neg hblank]
        cases hread : c.read line with
        | ok r =>
          rw [hread] at hrs
          exact (pure_ok_iff.mp hrs).symm
        | error e =>
          rw [hread] at hrs
          exact (pure_ok_iff.mp hrs).symm

/-- What is loaded are the records of the ledger. -/
theorem loadAllLocked_ok (h : loadAllLocked c file = Except.ok rs) :
    rs = records c.read (file.getD []) := by
  cases file with
  | none => exact (Except.ok.inj h).symm
  | some raw => exact loadLines_ok h

/-- A ledger whose lines are texts can be loaded. -/
theorem loadLines_eq {ls : List RawText} (h : ∀ l ∈ ls, (decode l).isSome = true) :
    loadLines c ls = Except.ok (ls.filterMap (entry c.read)) := by
  induction ls with
  | nil => rfl
  | cons l ls ih =>
    obtain ⟨hl, hls⟩ := List.forall_mem_cons.mp h
    obtain ⟨line, hline⟩ := Option.isSome_iff_exists.mp hl
    rw [loadLines, hline, List.filterMap_cons, entry, hline, Option.bind_some, ih hls]
    show (if Text.isBlank line = true then Except.ok _ else _) = _
    split_ifs
    · rfl
    · show (match c.read line with
        | Except.ok r => Except.ok (r :: _)
        | Except.error _ => Except.ok _) = _
      cases c.read line <;> rfl

theorem loadAllLocked_render {texts : List String} (h : ∀ t ∈ texts, IsLine t) :
    loadAllLocked c (some (render texts)) = Except.ok (records c.read (render texts)) := by
  refine loadLines_eq fun l hl => ?_
  rw [lines_render h] at hl
  obtain ⟨t, -, rfl⟩ := List.mem_map.mp hl
  rw [decode_ofString]
  rfl

/-- What is written are the records. -/
theorem writeRecords_ok (hc : c.Faithful) (h : writeRecords c rs = (Except.ok (), raw)) :
    ∃ texts, List.Forall₂ (Writes c.read) texts rs ∧ raw = render texts := by
  induction rs generalizing raw with
  | nil => exact ⟨[], List.Forall₂.nil, (congrArg Prod.snd h).symm⟩
  | cons r rs ih =>
    rw [writeRecords] at h
    split at h
    case h_1 => cases congrArg Prod.fst h
    case h_2 text htext =>
      obtain ⟨hrest, rfl⟩ := Prod.mk.inj h
      obtain ⟨texts, htexts, hraw⟩ := ih (Prod.ext hrest rfl)
      have hwrites := (hc r text (context_ok_iff.mp htext)).writes
      exact ⟨text :: texts, List.Forall₂.cons hwrites htexts,
        congrArg (fun tail => line text ++ tail) hraw⟩

theorem writeRecords_eq {textOf : Record → String}
    (h : ∀ r ∈ rs, c.toJson r = Except.ok (textOf r)) :
    writeRecords c rs = (Except.ok (), render (rs.map textOf)) := by
  induction rs with
  | nil => rfl
  | cons r rs ih =>
    obtain ⟨hr, hrs⟩ := List.forall_mem_cons.mp h
    rw [writeRecords, hr, ih hrs]
    rfl

end Files

section Filters

variable {rs : List Record} {f : Filter}

theorem bagInter_filter (p : Record → Bool) (rs : List Record) :
    rs.bagInter (rs.filter p) = rs.filter p := by
  induction rs with
  | nil => rfl
  | cons r rs ih =>
    by_cases hr : p r = true
    · rw [List.filter_cons_of_pos hr, List.cons_bagInter_of_mem _ List.mem_cons_self,
        List.erase_cons_head, ih]
    · have hnot : r ∉ rs.filter p := fun hmem => hr (List.mem_filter.mp hmem).right
      rw [List.filter_cons_of_neg hr, List.cons_bagInter_of_not_mem _ hnot, ih]

/-- **A filter keeps the order unless it keeps the last of each family.** -/
theorem keepsOrder_of_keepLast_eq_none
    (h : ∀ before beforeSha n, f ≠ Filter.trim before beforeSha (some n)) :
    f.KeepsOrder rs := by
  unfold Filter.KeepsOrder Filter.kept
  cases f with
  | trim before beforeSha keepLast =>
    cases keepLast with
    | some n => exact absurd rfl (h before beforeSha n)
    | none =>
      show (rs.filter _).filter _ = rs.bagInter ((rs.filter _).filter _)
      rw [List.filter_filter, bagInter_filter]
  | removeFamily familyId => exact (bagInter_filter _ rs).symm
  | removeFingerprint fingerprint => exact (bagInter_filter _ rs).symm

end Filters

/-! ## Runs -/

section Appending

variable {c : Codec} {s : State} {r : Record} {text u : String}

/-- The records of a ledger that ends blank are those of its finished part. -/
theorem records_of_blank (hu : unfinished s.raw = ofString u)
    (hblank : Text.isBlank u = true) :
    records c.read s.raw = records c.read (finished s.raw) := by
  have hentry : entry c.read (ofString u) = none := by
    rw [entry, decode_ofString, Option.bind_some, if_pos hblank]
  rw [records_eq, hu, hentry]
  exact List.append_nil _

/-- A record that is appended behind white space is the next one. -/
theorem records_append_of_blank (hu : unfinished s.raw = ofString u)
    (hblank : Text.isBlank u = true) (h : c.Keeps r text) :
    records c.read (s.raw ++ line text) = records c.read s.raw ++ [r] := by
  rw [records_append_line h.isLine, records_of_blank hu hblank, hu,
    entry_append_of_isBlank hblank, h.writes.entry_eq]
  rfl

/-- What is appended of a record behind white space is the record, if it is the
whole of its text, and nothing otherwise. -/
theorem records_append_take (hu : unfinished s.raw = ofString u)
    (hblank : Text.isBlank u = true) (h : c.Keeps r text) (n : ℕ) :
    records c.read (s.raw ++ (line text).take n)
      = if text.length ≤ n then records c.read s.raw ++ [r]
        else records c.read s.raw := by
  have hlen : (ofString text).length = text.length := by
    rw [ofString, List.length_map, String.length_toList]
  obtain hn | hn := Nat.lt_or_ge text.length n
  · have htake : (line text).take n = line text := by
      refine List.take_of_length_le ?_
      rw [line, List.length_append, hlen]
      exact hn
    rw [if_pos hn.le, htake, records_append_of_blank hu hblank h]
  · have htake : (line text).take n = ofString (String.ofList (text.toList.take n)) := by
      rw [line, List.take_append_of_le_length (hlen ▸ hn), ofString, ofString,
        String.toList_ofList, List.map_take]
    have hfeed : ∀ d ∈ ofString (String.ofList (text.toList.take n)), d ≠ some '\n' := by
      rw [← htake, line, List.take_append_of_le_length (hlen ▸ hn)]
      exact fun d hd => ne_of_mem_ofString h.isLine (List.mem_of_mem_take hd)
    rw [htake, records_append_of_noFeed hfeed, records_of_blank hu hblank, hu,
      entry_append_of_isBlank hblank]
    obtain hlt | rfl := Nat.lt_or_eq_of_le hn
    · rw [if_neg (Nat.not_le.mpr hlt), h.entry_take hlt]
      exact List.append_nil _
    · rw [if_pos le_rfl, ← String.length_toList, List.take_length, String.ofList_toList,
        h.writes.entry_eq]
      rfl

/-- An append keeps what is owed to the ledger. -/
theorem kept_appendText (hkept : s.Kept c) (h : c.Keeps r text) {cut : Option ℕ}
    (hcut : cut = some 0 ∨ (decode (unfinished s.raw)).any Text.isBlank = true) :
    (s.appendText r text cut).Kept c := by
  by_cases hzero : cut = some 0
  · subst hzero
    have hlen : ¬ text.length ≤ 0 := by
      rw [← String.length_toList, Nat.le_zero, List.length_eq_zero_iff]
      exact h.toList_ne_nil
    show records c.read (s.raw ++ []) = (if text.length ≤ 0 then s.owed ++ [r] else s.owed)
      ∧ ∀ l ∈ s.unparsed, l ∈ junk c.read (s.raw ++ [])
    rw [if_neg hlen, List.append_nil]
    exact hkept
  · obtain ⟨u, hdecode, hblank⟩ :=
      (Option.any_eq_true _ _).mp (hcut.resolve_left hzero)
    have hu : unfinished s.raw = ofString u := decode_eq_some_iff.mp hdecode
    have hjunk : isJunk c.read (unfinished s.raw) = false := by
      rw [isJunk, hdecode, Option.any_some, hblank]
      rfl
    cases cut with
    | none =>
      refine ⟨?_, fun l hl => mem_junk_append hjunk (hkept.right l hl) _⟩
      show records c.read (s.raw ++ line text) = s.owed ++ [r]
      rw [records_append_of_blank hu hblank h, hkept.left]
    | some n =>
      refine ⟨?_, fun l hl => mem_junk_append hjunk (hkept.right l hl) _⟩
      show records c.read (s.raw ++ (line text).take n)
        = if text.length ≤ n then s.owed ++ [r] else s.owed
      rw [records_append_take hu hblank h, hkept.left]

end Appending

/-- What is true of a process that is in the middle of a trim. -/
def Phase.Ready (c : Codec) (raw : RawText) (tmp : Option RawText) : Phase → Prop
  | loaded f after => after = f.apply (records c.read raw)
  | written f after => after = f.apply (records c.read raw)
      ∧ ∃ text ∈ tmp, records c.read text = after ∧ junk c.read text = []
  | _ => True

/-- What is kept by every event that meets the condition: those who are at work
hold the lock, the ledger holds what is owed to it, and a trim has what its
filter makes of the records that are in the ledger now. -/
structure Inv (c : Codec) (s : State) : Prop where
  exclusive : Locks.Exclusive Phase.inside s.phase s.held
  kept : s.Kept c
  ready : ∀ p, (s.phase p).Ready c s.raw s.tmp

section Runs

variable {c : Codec} {s s' : State} {p : ℕ} {x : Phase}

theorem ready_of_inside_eq_none {raw : RawText} {tmp : Option RawText}
    (h : x.inside = none) : x.Ready c raw tmp := by
  cases x with
  | idle => exact trivial
  | previewing f => exact trivial
  | waiting op => exact trivial
  | holding op => cases h
  | loaded f after => cases h
  | written f after => cases h
  | finishing => cases h

/-- A process goes on, and the files are as they were. -/
theorem Inv.ready_enter (h : Inv c s) (hx : x.Ready c s.raw s.tmp) (q : ℕ) :
    (Function.update s.phase p x q).Ready c s.raw s.tmp := by
  by_cases hqp : q = p
  · subst hqp
    rw [Function.update_self]
    exact hx
  · rw [Function.update_of_ne hqp]
    exact h.ready q

/-- A process that is inside the lock goes on, whatever it did to the files: all
others are outside. -/
theorem Inv.ready_alone (h : Inv c s) (hp : (s.phase p).inside = some ())
    {raw : RawText} {tmp : Option RawText} (hx : x.Ready c raw tmp) (q : ℕ) :
    (Function.update s.phase p x q).Ready c raw tmp := by
  by_cases hqp : q = p
  · subst hqp
    rw [Function.update_self]
    exact hx
  · rw [Function.update_of_ne hqp]
    refine ready_of_inside_eq_none ?_
    have hq := h.exclusive.inside_ne_of_ne hp hqp
    cases hins : (s.phase q).inside with
    | none => rfl
    | some u => exact absurd hins hq

theorem inv_start (c : Codec) (file tmp : Option RawText) :
    Inv c (State.start c file tmp) where
  exclusive := fun _ _ h => nomatch h
  kept := ⟨rfl, fun _ h => nomatch h⟩
  ready := fun _ => trivial

/-- **What is renamed over the ledger is what the filter keeps of what is owed.** -/
theorem kept_rename {f : Filter} {after : List Record} {text : RawText} (h : Inv c s)
    (hp : s.phase p = Phase.written f after) (htmp : s.tmp = some text)
    (hjunk : junk c.read s.raw = []) (horder : f.KeepsOrder (records c.read s.raw)) :
    records c.read text = f.kept s.owed ∧ ∀ l ∈ s.unparsed, l ∈ junk c.read text := by
  have hready := h.ready p
  rw [hp] at hready
  obtain ⟨hafter, text', htext', hrecords, -⟩ := hready
  obtain rfl : text = text' := Option.some.inj (htmp.symm.trans htext')
  constructor
  · rw [hrecords, hafter, horder, h.kept.left]
  · intro l hl
    have hmem := h.kept.right l hl
    rw [hjunk] at hmem
    cases hmem

/-- **One event keeps the invariant, when it meets the condition.** -/
theorem step_inv (hc : c.Faithful) (s : State) (e : Event) (s' : State) (h : Inv c s)
    (hok : KeepsLedger c s e) (hstep : step c s e = some s') : Inv c s' := by
  cases e with
  | call p op =>
    simp only [step] at hstep
    split at hstep
    case h_1 r hp =>
      split at hstep
      case isTrue =>
        obtain rfl := Option.some.inj hstep
        exact ⟨h.exclusive.leave rfl, h.kept, h.ready_enter trivial⟩
      case isFalse =>
        obtain rfl := Option.some.inj hstep
        exact h
    case h_2 f hp =>
      obtain rfl := Option.some.inj hstep
      exact ⟨h.exclusive.leave rfl, h.kept, h.ready_enter trivial⟩
    case h_3 => cases hstep
  | preview p =>
    simp only [step] at hstep
    split at hstep
    case h_1 f hp hfree =>
      -- it only reads, and goes on or ends
      split at hstep
      case h_1 =>
        obtain rfl := Option.some.inj hstep
        exact ⟨h.exclusive.leave rfl, h.kept, h.ready_enter trivial⟩
      case h_2 before hbefore =>
        split_ifs at hstep
        · obtain rfl := Option.some.inj hstep
          exact ⟨h.exclusive.leave rfl, h.kept, h.ready_enter trivial⟩
        · obtain rfl := Option.some.inj hstep
          exact ⟨h.exclusive.leave rfl, h.kept, h.ready_enter trivial⟩
    case h_2 => cases hstep
  | acquire p =>
    simp only [step] at hstep
    split at hstep
    case h_1 op hp hfree =>
      obtain rfl := Option.some.inj hstep
      exact ⟨h.exclusive.acquire hfree rfl, h.kept, h.ready_enter trivial⟩
    case h_2 => cases hstep
  | write p cut =>
    simp only [step] at hstep
    split at hstep
    case h_1 r hp =>
      have hinside : (s.phase p).inside = some () := congrArg Phase.inside hp
      split at hstep
      case h_1 =>
        obtain rfl := Option.some.inj hstep
        exact ⟨h.exclusive.stay hinside.symm, h.kept, h.ready_enter trivial⟩
      case h_2 text htext =>
        obtain rfl := Option.some.inj hstep
        have hkept := kept_appendText h.kept (hc r text htext) hok
        cases cut with
        | none =>
          exact ⟨h.exclusive.stay hinside.symm, hkept, h.ready_alone hinside trivial⟩
        | some n =>
          exact ⟨h.exclusive.stay hinside.symm, hkept, h.ready_alone hinside trivial⟩
    case h_2 => cases hstep
  | load p =>
    simp only [step] at hstep
    split at hstep
    case h_1 f hp =>
      have hinside : (s.phase p).inside = some () := congrArg Phase.inside hp
      split at hstep
      case h_1 =>
        obtain rfl := Option.some.inj hstep
        exact ⟨h.exclusive.stay hinside.symm, h.kept, h.ready_enter trivial⟩
      case h_2 before hbefore =>
        obtain rfl := Option.some.inj hstep
        refine ⟨h.exclusive.stay hinside.symm, ⟨h.kept.left, ?_⟩, h.ready_enter ?_⟩
        · intro l hl
          obtain hl | hl := List.mem_append.mp hl
          · exact h.kept.right l hl
          · exact hl
        · exact congrArg f.apply (loadAllLocked_ok hbefore)
    case h_2 => cases hstep
  | writeTmp p cut =>
    simp only [step] at hstep
    split at hstep
    case h_1 f after hp =>
      have hinside : (s.phase p).inside = some () := congrArg Phase.inside hp
      have hready := h.ready p
      rw [hp] at hready
      split at hstep
      case h_1 text hwrite =>
        obtain rfl := Option.some.inj hstep
        obtain ⟨texts, htexts, rfl⟩ := writeRecords_ok hc hwrite
        refine ⟨h.exclusive.stay hinside.symm, h.kept, h.ready_alone hinside ?_⟩
        exact ⟨hready, _, rfl, records_render htexts, junk_render htexts⟩
      case h_2 =>
        obtain rfl := Option.some.inj hstep
        exact ⟨h.exclusive.stay hinside.symm, h.kept, h.ready_alone hinside trivial⟩
      case h_3 =>
        obtain rfl := Option.some.inj hstep
        exact ⟨h.exclusive.stay hinside.symm, h.kept, h.ready_alone hinside trivial⟩
    case h_2 => cases hstep
  | rename p =>
    simp only [step] at hstep
    split at hstep
    case h_1 f after text hp htmp =>
      have hinside : (s.phase p).inside = some () := congrArg Phase.inside hp
      obtain rfl := Option.some.inj hstep
      simp only [KeepsLedger, hp] at hok
      exact ⟨h.exclusive.stay hinside.symm, kept_rename h hp htmp hok.left hok.right,
        h.ready_alone hinside trivial⟩
    case h_2 => cases hstep
  | fail p =>
    simp only [step] at hstep
    split at hstep
    case h_1 f hp =>
      obtain rfl := Option.some.inj hstep
      exact ⟨h.exclusive.leave rfl, h.kept, h.ready_enter trivial⟩
    case h_2 op hp =>
      have hinside : (s.phase p).inside = some () := congrArg Phase.inside hp
      obtain rfl := Option.some.inj hstep
      exact ⟨h.exclusive.stay hinside.symm, h.kept, h.ready_enter trivial⟩
    case h_3 f after hp =>
      have hinside : (s.phase p).inside = some () := congrArg Phase.inside hp
      obtain rfl := Option.some.inj hstep
      exact ⟨h.exclusive.stay hinside.symm, h.kept, h.ready_enter trivial⟩
    case h_4 f after hp =>
      have hinside : (s.phase p).inside = some () := congrArg Phase.inside hp
      obtain rfl := Option.some.inj hstep
      exact ⟨h.exclusive.stay hinside.symm, h.kept, h.ready_enter trivial⟩
    case h_5 => cases hstep
  | release p =>
    simp only [step] at hstep
    split at hstep
    case h_1 hp =>
      have hinside : (s.phase p).inside = some () := congrArg Phase.inside hp
      obtain rfl := Option.some.inj hstep
      have hreleased := h.exclusive.release hinside (show Phase.idle.inside = none from rfl)
      exact ⟨hreleased, h.kept, h.ready_enter trivial⟩
    case h_2 => cases hstep
  | die p =>
    simp only [step] at hstep
    obtain rfl := Option.some.inj hstep
    exact ⟨h.exclusive.die rfl, h.kept, h.ready_enter trivial⟩

end Runs

/-! ## The writing and reading of some records -/

/-- Some records can be written, and their texts are all that can be read. -/
def tableCodec (table : List Record) (textOf : Record → String) : Codec where
  toJson r := if r ∈ table then Except.ok (textOf r) else bail "not one of these records"
  fromJson s := ((table.find? fun r => (textOf r).toList = s.toList).map Except.ok).getD
    (bail "expected value")

/-- The texts of some records are objects, and none is the beginning of another one's. -/
structure Tabled (table : List Record) (textOf : Record → String) : Prop where
  isObject : ∀ r ∈ table, IsObjectText (textOf r)
  apart : ∀ r ∈ table, ∀ r' ∈ table, (textOf r').toList <+: (textOf r).toList → r' = r

section TableCodec

variable {table rs : List Record} {textOf : Record → String} {r : Record} {text line : String}

theorem tableCodec_toJson (h : ∀ r ∈ rs, r ∈ table) :
    ∀ r ∈ rs, (tableCodec table textOf).toJson r = Except.ok (textOf r) :=
  fun r hr => if_pos (h r hr)

/-- A text that is not one of these is no record. -/
theorem tableCodec_fromJson (hne : ∀ r ∈ table, (textOf r).toList ≠ text.toList) :
    (tableCodec table textOf).fromJson text = bail "expected value" := by
  have hnone : (table.find? fun r => (textOf r).toList = text.toList) = none :=
    List.find?_eq_none.mpr fun r hr => by simpa using hne r hr
  show ((table.find? _).map _).getD _ = _
  rw [hnone]
  rfl

theorem tableCodec_faithful (h : Tabled table textOf) :
    (tableCodec table textOf).Faithful := by
  intro r text hwrite
  have hmem : r ∈ table ∧ textOf r = text := by
    change (if r ∈ table then _ else _) = _ at hwrite
    split_ifs at hwrite with hr
    · exact ⟨hr, Except.ok.inj hwrite⟩
    · cases hwrite
  obtain ⟨hr, rfl⟩ := hmem
  have hobject := h.isObject r hr
  refine ⟨hobject.isLine, hobject.head_not_isWhiteSpace, hobject.last_not_isWhiteSpace, ?_,
    fun l hl hne => ?_⟩
  · show ((table.find? _).map _).getD _ = _
    cases hfind : table.find? fun r' => (textOf r').toList = (textOf r).toList with
    | none => exact absurd (decide_eq_true rfl) (List.find?_eq_none.mp hfind r hr)
    | some r' =>
      have hsame : (textOf r').toList = (textOf r).toList := by
        simpa using List.find?_some hfind
      obtain rfl := h.apart r hr r' (List.mem_of_find?_eq_some hfind)
        (hsame ▸ List.prefix_refl _)
      rfl
  · rw [tableCodec_fromJson fun r' hr' heq => ?_]
    · rfl
    · rw [String.toList_ofList] at heq
      obtain rfl := h.apart r hr r' hr' (heq ▸ hl)
      exact hne heq.symm

theorem tableCodec_records (h : Tabled table textOf) (hrs : ∀ r ∈ rs, r ∈ table) :
    List.Forall₂ (Writes (tableCodec table textOf).read) (rs.map textOf) rs := by
  rw [List.forall₂_map_left_iff, List.forall₂_same]
  intro r hr
  exact (tableCodec_faithful h r _ (tableCodec_toJson hrs r hr)).writes

/-- A line that is none of these texts is no record. -/
theorem tableCodec_entry (hline : Text.isBlank line = false)
    (hne : ∀ r ∈ table, (textOf r).toList ≠ (Text.trim line).toList) :
    entry (tableCodec table textOf).read (ofString line) = none
      ∧ isJunk (tableCodec table textOf).read (ofString line) = true := by
  have hread : (tableCodec table textOf).read line = bail "expected value" :=
    tableCodec_fromJson hne
  constructor
  · rw [entry, decode_ofString, Option.bind_some, hline, hread]
    rfl
  · rw [isJunk, entry, decode_ofString, Option.bind_some, Option.any_some, hline, hread]
    rfl

end TableCodec

/-- One record can be written, and its text is all that can be read. -/
def loneCodec (r : Record) (text : String) : Codec := tableCodec [r] (Function.const _ text)

theorem loneCodec_tabled {r : Record} {text : String} (h : IsObjectText text) :
    Tabled [r] (Function.const _ text) where
  isObject _ _ := h
  apart := by
    intro r₁ h₁ r₂ h₂ _
    rw [List.mem_singleton.mp h₁, List.mem_singleton.mp h₂]

/-- A family that was ruled out for one of its spans. -/
def ruledOut (familyId ts : String) (sha : Option String) : Record where
  ts := ts
  sessionId := "20260611-172955"
  familyId := familyId
  lens := "tx_latency"
  outcome := Outcome.rejected
  kind := "tx_family"
  suspectedSpans := ["map_get"]
  contractFunction := none
  fingerprint := "tx_latency|tx_family|map_get|*"
  stacksCoreSha := sha
  reason := "cached"
  evidencePath := none

/-- A text as JSON, where nothing is to be escaped, or no text. -/
def shaText (sha : Option String) : String := (sha.map fun s => "\"" ++ s ++ "\"").getD "null"

/-- Its record as the ledger holds it. -/
def ruledOutText (r : Record) : String :=
  "\x7b\"ts\":\"" ++ (r.ts
    ++ ("\",\"session_id\":\"20260611-172955\",\"family_id\":\"" ++ (r.familyId
    ++ ("\",\"lens\":\"tx_latency\",\"outcome\":\"rejected\","
      ++ "\"kind\":\"tx_family\",\"suspected_spans\":[\"map_get\"],"
      ++ "\"contract_function\":null,\"fingerprint\":\"tx_latency|tx_family|map_get|*\","
      ++ "\"stacks_core_sha\":" ++ (shaText r.stacksCoreSha
    ++ ",\"reason\":\"cached\",\"evidence_path\":null\x7d")))))

/-- The fields of a record that are written as they are have no line feed. -/
def OneLine (r : Record) : Prop :=
  '\n' ∉ r.ts.toList ∧ '\n' ∉ r.familyId.toList ∧ '\n' ∉ (shaText r.stacksCoreSha).toList

instance : DecidablePred OneLine := fun _ => inferInstanceAs (Decidable (_ ∧ _ ∧ _))

set_option maxRecDepth 8000 in
theorem ruledOutText_isObject {r : Record} (h : OneLine r) : IsObjectText (ruledOutText r) := by
  obtain ⟨hts, hfamily, hsha⟩ := h
  unfold ruledOutText
  constructor
  · simp only [String.toList_append, List.mem_append, not_or]
    refine ⟨?_, hts, ?_, hfamily, ⟨⟨⟨?_, ?_⟩, ?_⟩, ?_⟩, hsha, ?_⟩
    all_goals decide
  · simp only [String.toList_append]
    rfl
  · simp only [String.toList_append, List.getLast?_append]
    rfl

/-- Records of different times, which are all as long, are told apart. -/
theorem ruledOut_tabled {table : List Record} {n : ℕ}
    (h : ∀ r ∈ table, OneLine r ∧ r.ts.toList.length = n)
    (hnodup : (table.map Record.ts).Nodup) : Tabled table ruledOutText where
  isObject := fun r hr => ruledOutText_isObject (h r hr).left
  apart := by
    intro r hr r' hr' hpre
    refine List.inj_on_of_nodup_map hnodup hr' hr (String.toList_injective ?_)
    have hsplit : ∀ r, ∃ rest, (ruledOutText r).toList
        = "\x7b\"ts\":\"".toList ++ (r.ts.toList ++ rest) := by
      intro r
      unfold ruledOutText
      rw [String.toList_append, String.toList_append]
      exact ⟨_, rfl⟩
    obtain ⟨rest', hrest'⟩ := hsplit r'
    obtain ⟨rest, hrest⟩ := hsplit r
    rw [hrest', hrest, List.prefix_append_right_inj] at hpre
    have htake := hpre.take n
    rw [List.take_append_of_le_length (h r' hr').right.ge,
      List.take_append_of_le_length (h r hr).right.ge,
      List.take_of_length_le (h r' hr').right.le, List.take_of_length_le (h r hr).right.le]
      at htake
    exact htake.eq_of_length ((h r' hr').right.trans (h r hr).right.symm)

/-- A family that was ruled out. -/
def slowMap : Record := ruledOut "slow-map" "2026-06-13T12:00:00Z" none

/-- The same family, a day later. -/
def slowMapAgain : Record := ruledOut "slow-map" "2026-06-14T12:00:00Z" none

/-- Another family. -/
def hotLoop : Record := ruledOut "hot-loop" "2026-06-15T12:00:00Z" none

/-- How these records are written and read. -/
def threeCodec : Codec := tableCodec [slowMap, hotLoop, slowMapAgain] ruledOutText

theorem three_tabled : Tabled [slowMap, hotLoop, slowMapAgain] ruledOutText :=
  ruledOut_tabled (n := 20) (by decide) (by decide)

theorem threeCodec_faithful : threeCodec.Faithful := tableCodec_faithful three_tabled

theorem three_toJson {r : Record} (h : r ∈ [slowMap, hotLoop, slowMapAgain]) :
    threeCodec.toJson r = Except.ok (ruledOutText r) := if_pos h

theorem three_records {rs : List Record} (h : ∀ r ∈ rs, r ∈ [slowMap, hotLoop, slowMapAgain]) :
    List.Forall₂ (Writes threeCodec.read) (rs.map ruledOutText) rs :=
  tableCodec_records three_tabled h

/-- **In every run whose events meet the condition, the ledger holds at every
moment exactly what is owed to it**: the records that were there or were
appended and were not selected by a trim since, each once and in the order in
which they were appended, and every line that a trim could not parse. -/
theorem run_kept {c : Codec} (hc : c.Faithful) {file tmp : Option RawText} {s : State}
    {es : List Event}
    (hok : Runs.Throughout (step c) (KeepsLedger c) (State.start c file tmp) es)
    (hrun : Runs.run (step c) (State.start c file tmp) es = some s) : s.Kept c :=
  (Runs.run_invariant (step_inv hc) (inv_start c file tmp) hok hrun).kept

/-- What a filter leaves of the records that are looked at, the first time. -/
theorem step_preview {c : Codec} {s : State} {p : ℕ} {f : Filter} {before : List Record}
    (hp : s.phase p = Phase.previewing f) (hfree : s.held () = none)
    (hload : loadAllLocked c s.file = Except.ok before)
    (hdrops : (f.apply before).length ≠ before.length) :
    step c s (Event.preview p) = some (s.enter p (Phase.waiting (Op.rewrite f))) := by
  simp only [step, hp, hfree, hload, if_neg hdrops]

theorem step_append {c : Codec} {s : State} {p : ℕ} {r : Record} (hp : s.phase p = Phase.idle)
    (hspecific : fingerprintSpecificEnough r.suspectedSpans r.contractFunction = true) :
    step c s (Event.call p (Op.append r)) = some (s.enter p (Phase.waiting (Op.append r))) := by
  simp only [step, hp, if_pos hspecific]

/-- And what it leaves inside of the lock. -/
theorem step_load {c : Codec} {s : State} {p : ℕ} {f : Filter} {before : List Record}
    (hp : s.phase p = Phase.holding (Op.rewrite f))
    (hload : loadAllLocked c s.file = Except.ok before) :
    step c s (Event.load p) = some { s.enter p (Phase.loaded f (f.apply before)) with
      unparsed := s.unparsed ++ junk c.read s.raw } := by
  simp only [step, hp, hload]

theorem step_writeTmp {c : Codec} {s : State} {p : ℕ} {f : Filter} {after : List Record}
    {text : RawText} (hp : s.phase p = Phase.loaded f after)
    (hwrite : writeRecords c after = (Except.ok (), text)) :
    step c s (Event.writeTmp p none)
      = some { s.enter p (Phase.written f after) with tmp := some text } := by
  simp only [step, hp, hwrite]

theorem keepsLedger_rename {c : Codec} {s : State} {p : ℕ} {f : Filter} {after : List Record}
    (hp : s.phase p = Phase.written f after)
    (h : junk c.read s.raw = [] ∧ f.KeepsOrder (records c.read s.raw)) :
    KeepsLedger c s (Event.rename p) := by
  simp only [KeepsLedger, hp]
  exact h

theorem step_rename {c : Codec} {s : State} {p : ℕ} {f : Filter} {after : List Record}
    {text : RawText} (hp : s.phase p = Phase.written f after) (htmp : s.tmp = some text) :
    step c s (Event.rename p) = some { s.enter p Phase.finishing with
      file := some text, tmp := none, owed := f.kept s.owed } := by
  simp only [step, hp, htmp]

theorem step_write {c : Codec} {s : State} {p : ℕ} {r : Record} {text : String}
    (hp : s.phase p = Phase.holding (Op.append r)) (hwrite : c.toJson r = Except.ok text) :
    step c s (Event.write p none)
      = some ((s.appendText r text none).enter p Phase.finishing) := by
  simp only [step, hp, hwrite]

/-- A ledger of two families. -/
def twoFamilies : RawText := render ([slowMap, hotLoop].map ruledOutText)

theorem load_three {rs : List Record} (h : ∀ r ∈ rs, r ∈ [slowMap, hotLoop, slowMapAgain]) :
    loadAllLocked threeCodec (some (render (rs.map ruledOutText))) = Except.ok rs := by
  have hlines := fun t ht => (isLine_of_writes (three_records h) t ht).left
  exact (loadAllLocked_render hlines).trans
    (congrArg Except.ok (records_render (three_records h)))

/-- A family is removed, while an append waits for it. -/
def trimThenAppend (f : Filter) (r : Record) : List Event :=
  [Event.call 1 (Op.rewrite f), Event.preview 1, Event.call 2 (Op.append r), Event.acquire 1,
    Event.load 1, Event.writeTmp 1 none, Event.rename 1, Event.release 1, Event.acquire 2,
    Event.write 2 none, Event.release 2]

theorem run_trimThenAppend {c : Codec} {raw text : RawText} {f : Filter} {r : Record}
    {before : List Record} {added : String}
    (hspecific : fingerprintSpecificEnough r.suspectedSpans r.contractFunction = true)
    (hload : loadAllLocked c (some raw) = Except.ok before)
    (hdrops : (f.apply before).length ≠ before.length)
    (hwrite : writeRecords c (f.apply before) = (Except.ok (), text))
    (hadd : c.toJson r = Except.ok added)
    (htrim : junk c.read raw = [] ∧ f.KeepsOrder (records c.read raw))
    (hblank : (decode (unfinished text)).any Text.isBlank = true) :
    ∃ s, (Runs.Throughout (step c) (KeepsLedger c) (State.start c (some raw) none)
          (trimThenAppend f r)
        ∧ Runs.run (step c) (State.start c (some raw) none) (trimThenAppend f r) = some s)
      ∧ s.raw = text ++ line added :=
  ⟨_, Runs.throughout_run_cons trivial rfl <|
    Runs.throughout_run_cons trivial (step_preview rfl rfl hload hdrops) <|
    Runs.throughout_run_cons trivial (step_append rfl hspecific) <|
    Runs.throughout_run_cons trivial rfl <|
    Runs.throughout_run_cons trivial (step_load rfl hload) <|
    Runs.throughout_run_cons trivial (step_writeTmp rfl hwrite) <|
    Runs.throughout_run_cons (keepsLedger_rename rfl htrim) (step_rename rfl rfl) <|
    Runs.throughout_run_cons trivial rfl <|
    Runs.throughout_run_cons trivial rfl <|
    Runs.throughout_run_cons (Or.inr hblank) (step_write rfl hadd) <|
    Runs.throughout_run_cons trivial rfl ⟨trivial, rfl⟩, rfl⟩

/-- One of two families is removed, and the append puts its record behind the other one. -/
theorem run_kept_twoFamilies :
    ∃ s, Runs.run (step threeCodec) (State.start threeCodec (some twoFamilies) none)
        (trimThenAppend (Filter.removeFamily "slow-map") slowMapAgain) = some s
      ∧ s.raw = render ([hotLoop].map ruledOutText) ++ line (ruledOutText slowMapAgain)
      ∧ s.Kept threeCodec := by
  have hload : loadAllLocked threeCodec (some twoFamilies) = Except.ok [slowMap, hotLoop] :=
    load_three (by decide)
  have hwrite : writeRecords threeCodec
      ((Filter.removeFamily "slow-map").apply [slowMap, hotLoop])
        = (Except.ok (), render ([hotLoop].map ruledOutText)) := by
    rw [show (Filter.removeFamily "slow-map").apply [slowMap, hotLoop] = [hotLoop] by decide]
    exact writeRecords_eq fun r hr => three_toJson (by rw [List.mem_singleton.mp hr]; decide)
  have hblank : (decode (unfinished (render ([hotLoop].map ruledOutText)))).any Text.isBlank
      = true := by
    rw [unfinished_render]
    decide
  obtain ⟨s, ⟨hok, hrun⟩, hraw⟩ := run_trimThenAppend (by decide) hload (by decide) hwrite
    (three_toJson (r := slowMapAgain) (by decide))
    ⟨junk_render (three_records (by decide)), keepsOrder_of_keepLast_eq_none nofun⟩ hblank
  exact ⟨s, hrun, hraw, run_kept threeCodec_faithful hok hrun⟩

/-- A record behind a line that is none. -/
def strayLedger : RawText := render ["x", ruledOutText slowMap]

theorem isLine_x : IsLine "x" := ⟨by decide, by decide, by decide⟩

theorem isLine_stray : ∀ t ∈ ["x", ruledOutText slowMap], IsLine t := by
  intro t ht
  obtain rfl | ht := List.mem_cons.mp ht
  · exact isLine_x
  · rw [List.mem_singleton.mp ht]
    exact (three_tabled.isObject slowMap List.mem_cons_self).isLine

theorem stray_entry : entry threeCodec.read (ofString "x") = none
    ∧ isJunk threeCodec.read (ofString "x") = true := by
  refine tableCodec_entry (by decide) fun r hr heq => ?_
  have hfirst := (three_tabled.isObject r hr).first
  rw [heq] at hfirst
  exact absurd hfirst (by decide)

theorem records_stray : records threeCodec.read strayLedger = [slowMap] := by
  unfold records strayLedger
  rw [lines_render isLine_stray]
  have hentry : List.Forall₂ (Writes threeCodec.read) ([slowMap].map ruledOutText) [slowMap] :=
    three_records (by decide)
  rw [List.map_cons, List.filterMap_cons, stray_entry.left, List.map_singleton,
    List.filterMap_cons, (List.forall₂_cons.mp hentry).left.entry_eq]
  rfl

/-- A family is removed. -/
def trimAll (f : Filter) : List Event :=
  [Event.call 1 (Op.rewrite f), Event.preview 1, Event.acquire 1, Event.load 1,
    Event.writeTmp 1 none, Event.rename 1, Event.release 1]

theorem run_trimAll {c : Codec} {raw : RawText} {f : Filter} {before : List Record}
    (hload : loadAllLocked c (some raw) = Except.ok before) (hdrops : f.apply before = [])
    (hne : before ≠ []) :
    ∃ s, Runs.run (step c) (State.start c (some raw) none) (trimAll f) = some s
      ∧ s.raw = [] ∧ s.unparsed = junk c.read raw := by
  have hlength : (f.apply before).length ≠ before.length := by
    rw [hdrops]
    exact (List.length_pos_iff.mpr hne).ne
  have hwrite : writeRecords c (f.apply before) = (Except.ok (), []) := by
    rw [hdrops]
    rfl
  have hcons := fun {s s₁ s' : State} {e : Event} {es : List Event}
      (hstep : step c s e = some s₁) (hrest : Runs.run (step c) s₁ es = some s') =>
    Runs.run_cons_eq_some_iff.mpr ⟨s₁, hstep, hrest⟩
  exact ⟨_, hcons rfl <| hcons (step_preview rfl rfl hload hlength) <| hcons rfl <|
    hcons (step_load rfl hload) <| hcons (step_writeTmp rfl hwrite) <|
    hcons (step_rename rfl rfl) <| hcons rfl rfl, rfl, rfl⟩

/-- A line that a trim cannot parse is gone after it. -/
theorem not_kept_trimStray :
    ∃ s, Runs.run (step threeCodec) (State.start threeCodec (some strayLedger) none)
        (trimAll (Filter.removeFamily "slow-map")) = some s ∧ ¬ s.Kept threeCodec := by
  have hload : loadAllLocked threeCodec (some strayLedger) = Except.ok [slowMap] :=
    (loadAllLocked_render isLine_stray).trans (congrArg Except.ok records_stray)
  obtain ⟨s, hrun, hraw, hunparsed⟩ := run_trimAll (f := Filter.removeFamily "slow-map") hload
    (by decide) (List.cons_ne_nil _ _)
  refine ⟨s, hrun, fun hkept => ?_⟩
  have hstray : ofString "x" ∈ s.unparsed := by
    rw [hunparsed, strayLedger]
    refine List.mem_filter.mpr ⟨?_, stray_entry.right⟩
    rw [lines_render isLine_stray]
    exact List.mem_cons_self
  have hmem := hkept.right _ hstray
  rw [hraw] at hmem
  cases hmem

end Rejections
