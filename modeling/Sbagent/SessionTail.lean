import Sbagent.Delimited
import Sbagent.Runs
import Sbagent.Text
import Sbagent.Utf8

/-!
# Following a log

A log of a session is followed while it is written. Now and then it is looked at: first its
length, and if that is not where the reading stands, what is behind that position is read.
The complete lines of it are printed, and the position moves behind them. A log that is
shorter than the position must have been truncated, and is read from its beginning.

So what has been printed since the start, or since the last truncation, is the first of the
complete lines, and all of them after a look (`delivered`) – as long as each truncation is
noticed. It is not, if the log has grown up to the position again before it is looked at.
-/

namespace Tail

open Delimited

/-- The line feed. -/
def feed : UInt8 := 10

/-- A log, if it exists, and what is known of it: the position up to which it has been
printed, the position a look that has begun reads from, and the lines that were printed. -/
structure State where
  file : Option (List UInt8)
  offset : Option ℕ
  reading : Option ℕ
  out : List String
  deriving DecidableEq

/-- What the log holds. -/
def State.content (s : State) : List UInt8 := s.file.getD []

/-- The position up to which the log has been printed. -/
def State.position (s : State) : ℕ := s.offset.getD 0

/-- The end of the last complete line. -/
def printableEnd (buf : List UInt8) : Option ℕ :=
  (buf.reverse.findIdx? fun b => b = feed).map fun i => buf.length - i

/-- Lines as they are printed. -/
def printLines (display : String) (buf : List UInt8) : List String :=
  (Text.lines (String.ofList (Utf8.decode buf))).map fun line => s!"[{display}] {line}"

/-- A look at the log up to its length: a log that does not exist is left alone, and one
whose length is the position is not read. -/
def drainStat (s : State) : State :=
  match s.file with
  | none => s
  | some bytes =>
    let offset := if bytes.length < s.position then 0 else s.position
    if offset = bytes.length then { s with offset := some offset }
    else { s with offset := some offset, reading := some offset }

/-- The rest of a look: what is behind the position is read, which may fail. -/
def drainRead (display : String) (fails : Bool) (offset : ℕ) (s : State) : State :=
  if fails then { s with reading := none }
  else
    match s.file with
    | none => { s with reading := none }
    | some bytes =>
      let buf := bytes.drop offset
      match printableEnd buf with
      | none => { s with reading := none }
      | some e => { s with
          offset := some (offset + e)
          reading := none
          out := s.out ++ printLines display (buf.take e) }

/-! ## Runs -/

/-- A log that is followed, and its past: where its lines are counted from, how many lines
had been printed then, whether it has been truncated since the position was last at its
beginning, or since the last look began, and whether a look has just ended. -/
structure Followed extends State where
  base : ℕ
  mark : ℕ
  cut : Bool
  torn : Bool
  drained : Bool
  deriving DecidableEq

/-- What can happen: bytes are appended, the log is truncated, a look begins, and it
ends. -/
inductive Event where
  | append (chunk : List UInt8)
  | truncate (n : ℕ)
  | stat
  | read (fails : Bool)

/-- The log as it is found: what it holds already is not printed. -/
def start (file : Option (List UInt8)) : Followed where
  file := file
  offset := file.map List.length
  reading := none
  out := []
  base := (file.getD []).length
  mark := 0
  cut := false
  torn := false
  drained := false

/-- Bytes are appended; the log is created where it does not exist. -/
def Followed.append (chunk : List UInt8) (s : Followed) : Followed :=
  { s with file := some (s.content ++ chunk), drained := false }

/-- The log is truncated: what is printed from now on is counted from its beginning. -/
def Followed.truncate (n : ℕ) (s : Followed) : Followed :=
  { s with
    file := some (s.content.take n)
    base := 0
    mark := s.out.length
    cut := true
    torn := true
    drained := false }

/-- A look begins, and ends where there is nothing to read. -/
def Followed.stat (s : Followed) : Followed :=
  { s with
    toState := drainStat s.toState
    cut := s.cut && (drainStat s.toState).position ≠ 0
    torn := false
    drained := (drainStat s.toState).reading = none }

/-- A look ends. One during which the log was truncated may have missed something. -/
def Followed.read (display : String) (fails : Bool) (offset : ℕ) (s : Followed) : Followed :=
  { s with
    toState := drainRead display fails offset s.toState
    cut := s.cut && offset ≠ 0
    drained := !fails && !s.torn }

def step (display : String) (s : Followed) : Event → Option Followed
  | .append chunk => some (s.append chunk)
  | .truncate n => if n < s.content.length then some (s.truncate n) else none
  | .stat => if s.reading = none then some s.stat else none
  | .read fails => s.reading.map fun offset => s.read display fails offset

/-- The lines printed since the start, or since the last truncation. -/
def Followed.since (s : Followed) : List String := s.out.drop s.mark

/-- What a line of the log is printed as. -/
def lineText (display : String) (line : List UInt8) : String :=
  let text := String.ofList (Text.endLine (Utf8.decode line).reverse)
  s!"[{display}] {text}"

/-- The complete lines of bytes, as they are printed. -/
def completeLines (display : String) (bytes : List UInt8) : List String :=
  (segments feed bytes).map (lineText display)

/-- A truncation that has not been noticed yet does no harm in a look: the position is at
the beginning of the log, or behind its end, or there is no complete line to be read. -/
def Noticed (s : Followed) : Event → Prop
  | .append _ => True
  | .truncate _ => True
  | .stat => s.cut = true → s.position = 0 ∨ s.content.length < s.position
      ∨ feed ∉ s.content
  | .read _ => s.cut = true → ∀ offset ∈ s.reading,
      offset = 0 ∨ feed ∉ s.content.drop offset

instance (s : Followed) : DecidablePred (Noticed s)
  | .append _ => inferInstanceAs (Decidable True)
  | .truncate _ => inferInstanceAs (Decidable True)
  | .stat => inferInstanceAs (Decidable (s.cut = true → s.position = 0
      ∨ s.content.length < s.position ∨ feed ∉ s.content))
  | .read _ => inferInstanceAs (Decidable (s.cut = true → ∀ offset ∈ s.reading,
      offset = 0 ∨ feed ∉ s.content.drop offset))

/-- What has been printed are the first of the complete lines, and all of them after a
look. -/
structure Delivered (display : String) (s : Followed) : Prop where
  inOrder : s.since <+: completeLines display (s.content.drop s.base)
  complete : s.drained = true → s.since = completeLines display (s.content.drop s.base)

/-! ## Lines -/

theorem printableEnd_eq (buf : List UInt8) :
    printableEnd buf = if feed ∈ buf then some (closed feed buf).length else none := by
  unfold printableEnd
  have hidx : (closed feed buf).length
      = buf.length - buf.reverse.findIdx fun b => b = feed := by
    unfold closed List.rdropWhile
    rw [List.length_reverse, List.dropWhile_eq_drop_findIdx_not, List.length_drop,
      List.length_reverse]
    simp
  split_ifs with hmem
  · rw [List.findIdx?_eq_some_of_exists
      ⟨feed, List.mem_reverse.mpr hmem, decide_eq_true rfl⟩, hidx]
    rfl
  · rw [List.findIdx?_eq_none_iff.mpr fun b hb => ?_]
    · rfl
    · refine decide_eq_false ?_
      rintro rfl
      exact hmem (List.mem_reverse.mp hb)

theorem take_closed (buf : List UInt8) :
    buf.take (closed feed buf).length = closed feed buf :=
  (List.prefix_iff_eq_take.mp (List.rdropWhile_prefix _ buf)).symm

section Lines

variable {display : String} {a b buf : List UInt8}

theorem lines_segments {segs : List (List UInt8)} (h : ∀ seg ∈ segs, feed ∉ seg) :
    Text.lines (String.ofList (Utf8.decode (segs.flatMap (· ++ [feed]))))
      = segs.map fun seg => String.ofList (Text.endLine (Utf8.decode seg).reverse) := by
  unfold Text.lines
  rw [String.toList_ofList]
  induction segs with
  | nil => rfl
  | cons seg segs ih =>
    have hseg := Utf8.feed_notMem_decode (h seg List.mem_cons_self)
    rw [List.flatMap_cons, List.append_assoc]
    show Text.linesFrom [] (Utf8.decode (seg ++ 10 :: segs.flatMap (· ++ [feed]))) = _
    rw [Utf8.decode_append_feed, Text.linesFrom_feed [] _ hseg, List.append_nil,
      ih fun t ht => h t (List.mem_cons_of_mem _ ht), List.map_cons]

/-- **Bytes up to a line feed are printed as their lines.** -/
theorem printLines_of_closed (h : Closed feed buf) :
    printLines display buf = completeLines display buf := by
  have hbuf : (segments feed buf).flatMap (· ++ [feed]) = buf := (flatMap_segments buf).trans h
  unfold printLines
  rw [← hbuf, lines_segments fun seg => sep_notMem_of_mem_segments, hbuf, List.map_map]
  rfl

theorem completeLines_append (h : Closed feed a) :
    completeLines display (a ++ b) = completeLines display a ++ completeLines display b := by
  unfold completeLines
  rw [segments_append h, List.map_append]

theorem completeLines_closed (bytes : List UInt8) :
    completeLines display (closed feed bytes) = completeLines display bytes :=
  congrArg (List.map _) (segments_closed bytes)

theorem completeLines_of_notMem (h : feed ∉ buf) : completeLines display buf = [] :=
  congrArg (List.map _) (segments_of_not_mem h)

end Lines

/-! ## Looks at the log -/

section Looks

variable {s : State}

/-- The position that a look reads from. -/
def State.resumed (s : State) : ℕ := if s.content.length < s.position then 0 else s.position

/-- **The first half of a look.** -/
theorem drainStat_spec (hfile : s.file = none → s.position = 0) (hreading : s.reading = none) :
    (drainStat s).content = s.content ∧ ((drainStat s).file = none ↔ s.file = none)
      ∧ (drainStat s).out = s.out ∧ (drainStat s).position = s.resumed
      ∧ (drainStat s).reading
        = if s.resumed = s.content.length then none else some s.resumed := by
  unfold State.resumed drainStat State.content
  cases hbytes : s.file with
  | none =>
    have hposition := hfile hbytes
    simp [hposition, hreading, hbytes]
  | some bytes =>
    simp only [Option.getD_some]
    split_ifs <;> simp_all [State.position]

/-- **The second half**, if nothing fails. -/
theorem drainRead_spec (display : String) (s : State) :
    (drainRead display false s.position s).file = s.file
      ∧ (drainRead display false s.position s).reading = none
      ∧ (drainRead display false s.position s).out = s.out
        ++ completeLines display (closed feed (s.content.drop s.position))
      ∧ (drainRead display false s.position s).position
        = s.position + (closed feed (s.content.drop s.position)).length := by
  unfold drainRead State.content
  cases hbytes : s.file with
  | none => simp [completeLines, State.position]
  | some bytes =>
    simp only [Option.getD_some, Bool.false_eq_true, if_false, printableEnd_eq]
    by_cases hmem : feed ∈ bytes.drop s.position
    · rw [if_pos hmem]
      refine ⟨rfl, rfl, ?_, rfl⟩
      dsimp only
      rw [take_closed, printLines_of_closed (closed_closed _ _)]
    · have hnil := closed_eq_nil_iff.mpr hmem
      rw [if_neg hmem, hnil]
      exact ⟨rfl, rfl, (List.append_nil _).symm, rfl⟩

end Looks

/-! ## What a run keeps -/

/-- The log has been printed up to the position. -/
structure Standing (display : String) (s : Followed) : Prop where
  base : s.base ≤ s.position
  length : s.position ≤ s.content.length
  whole : Closed feed ((s.content.take s.position).drop s.base)
  since : s.since = completeLines display ((s.content.take s.position).drop s.base)

/-- A truncation has not been noticed, and nothing has been printed since. What a look has
found before the position it reads from is no line. -/
structure Unnoticed (s : Followed) : Prop where
  base : s.base = 0
  since : s.since = []
  unread : s.torn = false → ∀ offset, s.reading = some offset →
    offset ≤ s.content.length ∧ feed ∉ s.content.take offset

/-- What every event keeps. -/
structure Inv (display : String) (s : Followed) : Prop where
  file : s.file = none → s.position = 0
  mark : s.mark ≤ s.out.length
  reading : ∀ offset, s.reading = some offset → offset = s.position
  standing : s.cut = false → Standing display s
  unnoticed : s.cut = true → Unnoticed s
  complete : s.drained = true → s.since = completeLines display (s.content.drop s.base)

section Runs

variable {display : String} {s s' : Followed}

theorem Standing.split (h : Standing display s) : s.content.drop s.base
    = (s.content.take s.position).drop s.base ++ s.content.drop s.position := by
  conv_lhs => rw [← List.take_append_drop s.position s.content]
  rw [List.drop_append_of_le_length]
  rw [List.length_take, min_eq_left h.length]
  exact h.base

theorem Standing.lines (h : Standing display s) :
    completeLines display (s.content.drop s.base)
      = s.since ++ completeLines display (s.content.drop s.position) := by
  rw [h.split, completeLines_append h.whole, h.since]

/-- All lines have been printed if there is nothing behind the position. -/
theorem Standing.complete (h : Standing display s) (hlines : feed ∉ s.content.drop s.position) :
    s.since = completeLines display (s.content.drop s.base) := by
  rw [h.lines, completeLines_of_notMem hlines, List.append_nil]

theorem Standing.congr (h : Standing display s) (hbase : s'.base = s.base)
    (hposition : s'.position = s.position) (hcontent : s'.content = s.content)
    (hsince : s'.since = s.since) : Standing display s' := by
  refine ⟨?_, ?_, ?_, ?_⟩
  · rw [hbase, hposition]
    exact h.base
  · rw [hposition, hcontent]
    exact h.length
  · rw [hbase, hposition, hcontent]
    exact h.whole
  · rw [hbase, hposition, hcontent, hsince]
    exact h.since

/-- Nothing has been printed yet, and the log is read from its beginning. -/
theorem standing_of_zero (hbase : s.base = 0) (hposition : s.position = 0)
    (hsince : s.since = []) : Standing display s := by
  refine ⟨?_, ?_, ?_, ?_⟩
  · rw [hbase]
    exact Nat.zero_le _
  · rw [hposition]
    exact Nat.zero_le _
  · rw [hposition, List.take_zero, List.drop_nil]
    exact Closed.nil
  · rw [hposition, hsince, List.take_zero, List.drop_nil]
    rfl

/-- What has been printed are the first of the complete lines. -/
theorem Inv.prints (h : Inv display s) : Delivered display s where
  inOrder := by
    cases hcut : s.cut with
    | true =>
      rw [(h.unnoticed hcut).since]
      exact List.nil_prefix
    | false =>
      rw [(h.standing hcut).lines]
      exact List.prefix_append _ _
  complete := h.complete

theorem Inv.append (h : Inv display s) (chunk : List UInt8) :
    Inv display (s.append chunk) := by
  refine ⟨fun hnone => absurd hnone (Option.some_ne_none _), h.mark, h.reading,
    fun hcut => ?_, fun hcut => ?_, fun hfalse => absurd hfalse Bool.false_ne_true⟩
  · have hs := h.standing hcut
    have htake : (s.content ++ chunk).take s.position = s.content.take s.position :=
      List.take_append_of_le_length hs.length
    refine ⟨hs.base, ?_, ?_, ?_⟩
    · show s.position ≤ (s.content ++ chunk).length
      rw [List.length_append]
      exact Nat.le_add_right_of_le hs.length
    · show Closed feed (((s.content ++ chunk).take s.position).drop s.base)
      rw [htake]
      exact hs.whole
    · show s.since = completeLines display (((s.content ++ chunk).take s.position).drop s.base)
      rw [htake]
      exact hs.since
  · have hs := h.unnoticed hcut
    refine ⟨hs.base, hs.since, fun htorn offset hoffset => ?_⟩
    obtain ⟨hle, hfeed⟩ := hs.unread htorn offset hoffset
    show offset ≤ (s.content ++ chunk).length ∧ feed ∉ (s.content ++ chunk).take offset
    rw [List.take_append_of_le_length hle, List.length_append]
    exact ⟨Nat.le_add_right_of_le hle, hfeed⟩

theorem Inv.truncate (h : Inv display s) (n : ℕ) : Inv display (s.truncate n) :=
  ⟨fun hnone => absurd hnone (Option.some_ne_none _), le_refl _, h.reading,
    fun hfalse => absurd hfalse Bool.true_eq_false.mp,
    fun _ => ⟨rfl, List.drop_length, fun hfalse => absurd hfalse Bool.true_eq_false.mp⟩,
    fun hfalse => absurd hfalse Bool.false_ne_true⟩

/-- **A look begins.** -/
theorem Inv.stat (h : Inv display s) (hidle : s.reading = none)
    (hnoticed : s.cut = true → s.position = 0 ∨ s.content.length < s.position
      ∨ feed ∉ s.content) : Inv display s.stat := by
  obtain ⟨hcontent, hfile, hout, hposition, hreading⟩ := drainStat_spec h.file hidle
  have hsince : s.stat.since = s.since := congrArg (List.drop s.mark) hout
  have hcut : s.stat.cut = (s.cut && decide (s.resumed ≠ 0)) := by
    show (s.cut && decide ((drainStat s.toState).position ≠ 0)) = _
    rw [hposition]
  have hstanding (hfalse : s.stat.cut = false) : Standing display s.stat := by
    rw [hcut] at hfalse
    cases hbefore : s.cut with
    | false =>
      have hs := h.standing hbefore
      refine hs.congr rfl (hposition.trans ?_) hcontent hsince
      exact if_neg (Nat.not_lt_of_le hs.length)
    | true =>
      have hs := h.unnoticed hbefore
      rw [hbefore, Bool.true_and, decide_eq_false_iff_not, not_not] at hfalse
      exact standing_of_zero hs.base (hposition.trans hfalse) (hsince.trans hs.since)
  -- a truncation that this look does not notice either
  have hunread (htrue : s.stat.cut = true) :
      s.resumed = s.position ∧ s.position ≤ s.content.length ∧ feed ∉ s.content := by
    rw [hcut, Bool.and_eq_true, decide_eq_true_eq] at htrue
    have hle : ¬ s.content.length < s.position := fun hlt => htrue.right (if_pos hlt)
    have hresumed : s.resumed = s.position := if_neg hle
    rw [hresumed] at htrue
    obtain hzero | hlt | hlines := hnoticed htrue.left
    · exact absurd hzero htrue.right
    · exact absurd hlt hle
    · exact ⟨hresumed, Nat.le_of_not_lt hle, hlines⟩
  have hbefore (htrue : s.stat.cut = true) : s.cut = true := by
    rw [hcut, Bool.and_eq_true] at htrue
    exact htrue.left
  refine ⟨fun hnone => ?_, ?_, fun offset hoffset => ?_, hstanding, fun htrue => ?_,
    fun hdrained => ?_⟩
  · have hzero : s.position = 0 := h.file (hfile.mp hnone)
    refine hposition.trans ?_
    unfold State.resumed
    rw [hzero]
    exact ite_self 0
  · show s.mark ≤ (drainStat s.toState).out.length
    rw [hout]
    exact h.mark
  · have hsome := hreading.symm.trans hoffset
    split_ifs at hsome
    exact (Option.some.inj hsome).symm.trans hposition.symm
  · obtain ⟨hresumed, hle, hlines⟩ := hunread htrue
    have hs := h.unnoticed (hbefore htrue)
    refine ⟨hs.base, hsince.trans hs.since, fun _ offset hoffset => ?_⟩
    have hsome := hreading.symm.trans hoffset
    split_ifs at hsome
    obtain rfl : s.resumed = offset := Option.some.inj hsome
    show s.resumed ≤ (drainStat s.toState).content.length
      ∧ feed ∉ (drainStat s.toState).content.take s.resumed
    rw [hcontent, hresumed]
    exact ⟨hle, fun hmem => hlines (List.mem_of_mem_take hmem)⟩
  · have hnone : (drainStat s.toState).reading = none := of_decide_eq_true hdrained
    -- there is nothing to read
    have hend : s.resumed = s.content.length := by
      by_contra hne
      rw [hreading, if_neg hne] at hnone
      cases hnone
    cases hafter : s.stat.cut with
    | false =>
      refine (hstanding hafter).complete ?_
      show feed ∉ (drainStat s.toState).content.drop (drainStat s.toState).position
      rw [hcontent, hposition, hend, List.drop_length]
      exact List.not_mem_nil
    | true =>
      have hs := h.unnoticed (hbefore hafter)
      show s.stat.since = completeLines display ((drainStat s.toState).content.drop s.base)
      rw [hsince, hs.since, hs.base, hcontent, List.drop_zero,
        completeLines_of_notMem (hunread hafter).right.right]

/-- **Reading moves the position behind the lines that it prints.** -/
theorem Standing.read (h : Standing display s) (hmark : s.mark ≤ s.out.length) :
    Standing display (s.read display false s.position)
      ∧ (s.read display false s.position).since
        = completeLines display (s.content.drop s.base) := by
  obtain ⟨hfile, -, hout, hposition⟩ := drainRead_spec display s.toState
  have hcontent : (s.read display false s.position).content = s.content :=
    congrArg (Option.getD · []) hfile
  have hsince : (s.read display false s.position).since
      = s.since ++ completeLines display (closed feed (s.content.drop s.position)) := by
    show List.drop s.mark (drainRead display false s.position s.toState).out = _
    rw [hout, List.drop_append_of_le_length hmark]
    rfl
  -- what is printed is what ends in a line feed behind the position
  have htake : (s.content.take (s.position
      + (closed feed (s.content.drop s.position)).length)).drop s.base
      = (s.content.take s.position).drop s.base ++ closed feed (s.content.drop s.position) := by
    rw [List.take_add, take_closed, List.drop_append_of_le_length]
    rw [List.length_take, min_eq_left h.length]
    exact h.base
  have hle := (List.rdropWhile_prefix (fun c => c ≠ feed) (s.content.drop s.position)).length_le
  rw [List.length_drop] at hle
  refine ⟨⟨?_, ?_, ?_, ?_⟩, ?_⟩
  · show s.base ≤ (drainRead display false s.position s.toState).position
    rw [hposition]
    exact Nat.le_add_right_of_le h.base
  · rw [hcontent]
    show (drainRead display false s.position s.toState).position ≤ s.content.length
    rw [hposition]
    have hlength := h.length
    unfold closed
    omega
  · rw [hcontent]
    show Closed feed ((s.content.take
      (drainRead display false s.position s.toState).position).drop s.base)
    rw [hposition, htake]
    exact h.whole.append (closed_closed _ _)
  · rw [hsince, hcontent]
    show _ = completeLines display ((s.content.take
      (drainRead display false s.position s.toState).position).drop s.base)
    rw [hposition, htake, completeLines_append h.whole, h.since]
  · rw [hsince, h.lines, completeLines_closed]

/-- A look that fails leaves the position where it was. -/
theorem Inv.read_fails (h : Inv display s) :
    Inv display (s.read display true s.position) := by
  refine ⟨h.file, h.mark, fun offset hoffset => absurd hoffset.symm (Option.some_ne_none _),
    fun hcut => ?_, fun hcut => ?_, fun hfalse => absurd hfalse Bool.false_ne_true⟩
  · cases hbefore : s.cut with
    | false => exact (h.standing hbefore).congr rfl rfl rfl rfl
    | true =>
      have hs := h.unnoticed hbefore
      have hzero : (s.cut && decide (s.position ≠ 0)) = false := hcut
      rw [hbefore, Bool.true_and, decide_eq_false_iff_not, not_not] at hzero
      exact standing_of_zero hs.base hzero hs.since
  · have hs := h.unnoticed (Bool.and_eq_true_iff.mp hcut).left
    exact ⟨hs.base, hs.since, fun _ offset hoffset =>
      absurd hoffset.symm (Option.some_ne_none _)⟩

/-- **A look ends.** -/
theorem Inv.read (h : Inv display s) {fails : Bool} (hreading : s.reading = some s.position)
    (hnoticed : s.cut = true → s.position = 0 ∨ feed ∉ s.content.drop s.position) :
    Inv display (s.read display fails s.position) := by
  cases fails with
  | true => exact h.read_fails
  | false =>
    obtain ⟨hfile, hnone, hout, hposition⟩ :=
      drainRead_spec display s.toState
    have hcontent : (s.read display false s.position).content = s.content :=
      congrArg (Option.getD · []) hfile
    have hstanding (hcut : (s.read display false s.position).cut = false) :
        Standing display s := by
      cases hbefore : s.cut with
      | false => exact h.standing hbefore
      | true =>
        have hs := h.unnoticed hbefore
        have hzero : (s.cut && decide (s.position ≠ 0)) = false := hcut
        rw [hbefore, Bool.true_and, decide_eq_false_iff_not, not_not] at hzero
        exact standing_of_zero hs.base hzero hs.since
    -- where a truncation is still not noticed, nothing is printed
    have hunread (hcut : (s.read display false s.position).cut = true) :
        Unnoticed s ∧ feed ∉ s.content.drop s.position
          ∧ (s.read display false s.position).since = s.since := by
      obtain ⟨hbefore, hposition⟩ := Bool.and_eq_true_iff.mp hcut
      have hlines := (hnoticed hbefore).resolve_left (of_decide_eq_true hposition)
      refine ⟨h.unnoticed hbefore, hlines, ?_⟩
      show List.drop s.mark (drainRead display false s.position s.toState).out = _
      rw [hout, closed_eq_nil_iff.mpr hlines]
      exact congrArg (List.drop s.mark) (List.append_nil _)
    refine ⟨fun habsent => ?_, ?_, fun offset hoffset => ?_,
      fun hcut => ((hstanding hcut).read h.mark).left, fun hcut => ?_, fun hdrained => ?_⟩
    · have habsent' : s.file = none := hfile.symm.trans habsent
      refine hposition.trans ?_
      rw [State.content, habsent', h.file habsent']
      rfl
    · show s.mark ≤ (drainRead display false s.position s.toState).out.length
      rw [hout, List.length_append]
      exact Nat.le_add_right_of_le h.mark
    · exact absurd (hoffset.symm.trans hnone) (Option.some_ne_none _)
    · obtain ⟨hs, -, hsince⟩ := hunread hcut
      exact ⟨hs.base, hsince.trans hs.since, fun _ offset hoffset =>
        absurd (hoffset.symm.trans hnone) (Option.some_ne_none _)⟩
    · show _ = completeLines display ((s.read display false s.position).content.drop s.base)
      rw [hcontent]
      cases hcut : (s.read display false s.position).cut with
      | false => exact ((hstanding hcut).read h.mark).right
      | true =>
        obtain ⟨hs, hlines, hsince⟩ := hunread hcut
        have htorn : s.torn = false := by simpa [Followed.read] using hdrained
        obtain ⟨-, hbefore⟩ := hs.unread htorn s.position hreading
        rw [hsince, hs.since, hs.base, List.drop_zero, completeLines_of_notMem]
        rw [← List.take_append_drop s.position s.content, List.mem_append, not_or]
        exact ⟨hbefore, hlines⟩

theorem Inv.step {e : Event} (h : Inv display s) (hnoticed : Noticed s e)
    (hstep : step display s e = some s') : Inv display s' := by
  cases e with
  | append chunk =>
    obtain rfl := Option.some.inj hstep
    exact h.append chunk
  | truncate n =>
    obtain ⟨-, hs'⟩ := Option.ite_none_right_eq_some.mp hstep
    obtain rfl := Option.some.inj hs'
    exact h.truncate n
  | stat =>
    obtain ⟨hidle, hs'⟩ := Option.ite_none_right_eq_some.mp hstep
    obtain rfl := Option.some.inj hs'
    exact h.stat hidle hnoticed
  | read fails =>
    obtain ⟨offset, hoffset, rfl⟩ := Option.map_eq_some_iff.mp hstep
    obtain rfl := h.reading offset hoffset
    exact h.read hoffset fun hcut => hnoticed hcut s.position hoffset

theorem inv_start (display : String) (file : Option (List UInt8)) :
    Inv display (start file) := by
  refine ⟨fun hnone => ?_, le_refl _, fun offset hoffset =>
    absurd hoffset.symm (Option.some_ne_none _), fun _ => ?_,
    fun hfalse => absurd hfalse Bool.false_ne_true,
    fun hfalse => absurd hfalse Bool.false_ne_true⟩
  · have habsent : file = none := hnone
    rw [habsent]
    rfl
  · have hposition : (start file).position = (file.getD []).length := by
      cases file <;> rfl
    have hnil : ((start file).content.take (start file).position).drop (start file).base
        = [] := by
      rw [hposition]
      show ((file.getD []).take (file.getD []).length).drop (file.getD []).length = []
      rw [List.take_length, List.drop_length]
    refine ⟨hposition.symm.le, hposition.le, ?_, ?_⟩
    · rw [hnil]
      exact Closed.nil
    · rw [hnil]
      rfl

end Runs

/-- **Every line is printed once and in order**, in every state of every run in which each
look notices the truncations before it. -/
theorem delivered {display : String} {file : Option (List UInt8)} {es : List Event}
    {s : Followed} (h : Runs.Throughout (step display) Noticed (start file) es)
    (hrun : Runs.run (step display) (start file) es = some s) : Delivered display s :=
  (Runs.run_invariant (fun _ _ _ hinv hnoticed hstep => hinv.step hnoticed hstep)
    (inv_start display file) h hrun).prints

/-- A line that arrives in two parts is printed when it is complete, and a log that was
truncated and is shorter than before is read from its beginning. -/
def rotated : List Event :=
  [.append [97], .stat, .read false, .append [98, 10], .stat, .read false,
    .truncate 0, .append [99, 10], .stat, .read false]

theorem delivered_rotated : ∃ s, Runs.run (step "log") (start none) rotated = some s
    ∧ s.out = ["[log] ab", "[log] c"] ∧ Delivered "log" s := by
  have hcheck : Runs.check (step "log") (fun s e => decide (Noticed s e)) (start none) rotated
      = true := by decide +kernel
  obtain ⟨s, hrun, hout⟩ : ∃ s, Runs.run (step "log") (start none) rotated = some s
      ∧ s.out = ["[log] ab", "[log] c"] := ⟨_, rfl, by decide +kernel⟩
  exact ⟨s, hrun, hout,
    delivered (Runs.throughout_of_check (fun _ _ h => of_decide_eq_true h) hcheck) hrun⟩

/-- A log that was truncated and is as long as before is not read. -/
theorem not_delivered : ¬ ∀ (display : String) (file : Option (List UInt8))
    (es : List Event) (s : Followed),
    Runs.run (step display) (start file) es = some s → Delivered display s := by
  intro h
  have hcomplete := (h "log" none [.append [97, 10], .stat, .read false, .truncate 0,
    .append [98, 10], .stat] _ rfl).complete (by decide +kernel)
  exact absurd (congrArg List.length hcomplete) (by decide +kernel)

end Tail
