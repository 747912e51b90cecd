import Sbagent.Canonical
import Sbagent.PhaseOutputs
import Sbagent.Rejections

/-!
# Looking a rejection up

When an analyzer rules a family out, a record goes to the ledger of rejections, with a
fingerprint of the family: its lens, its kind, its suspected spans and its contract. Triage
looks a family up by the same fingerprint, which a command calculates from its options.
The spans come as one option, joined by commas, and are split at the commas again.

So a span with a comma in it comes back as several, and if these are not in the place
where the span was in the sorted list, the fingerprint is another one. A record is also not
found if it was written behind a line that was not finished, or if the ledger cannot be
read. There are no other ways to lose it (`probe_finds_iff`).
-/

open Canonical Jsonl Fallible

namespace Rejections

/-! ## Fingerprints -/

/-- What a fingerprint is calculated from. -/
structure FingerprintInputs where
  lens : String
  kind : String
  suspectedSpans : List String
  contractFunction : Option String
  deriving DecidableEq

/-- Spans without the white space around them, sorted, each once, and none of them
blank. -/
def canonicalSpans (spans : List String) : List String :=
  (((spans.map Text.trim).filter fun s => s ≠ "").insertionSort fun a b => a ≤ b).dedup

/-- Texts, joined by commas. -/
def commaJoin (texts : List String) : String := ",".intercalate texts

/-- The pieces of a text between commas. -/
def commaSplit (text : String) : List String := (text.toList.splitOn ',').map String.ofList

/-- The fingerprint of a family. -/
def computeFingerprint (i : FingerprintInputs) : String :=
  i.lens ++ "|" ++ i.kind ++ "|" ++ commaJoin (canonicalSpans i.suspectedSpans) ++ "|"
    ++ (canonicalContract i.contractFunction).getD "*"

/-! ## The record of an analysis -/

/-- A family with the spans that triage suspects. -/
structure SpannedCandidate extends Candidate where
  suspectedSpans : Option (List String)
  deriving DecidableEq

def lensName : SelectionLens → String
  | SelectionLens.txLatency => "tx_latency"
  | SelectionLens.tenureThroughput => "tenure_throughput"
  | SelectionLens.commitTime => "commit_time"

def kindName : FamilyKind → String
  | FamilyKind.txFamily => "tx_family"
  | FamilyKind.blockFamily => "block_family"
  | FamilyKind.contractFamily => "contract_family"

/-- The contract function that represents a family. -/
def contractOf : RepresentativeIds → Option String
  | RepresentativeIds.contract issuer contract function _ =>
    some (issuer ++ "." ++ contract ++ "." ++ function)
  | RepresentativeIds.tx _ | RepresentativeIds.block _ => none

/-- What the fingerprint of a candidate is calculated from. -/
def SpannedCandidate.inputs (c : SpannedCandidate) : FingerprintInputs where
  lens := lensName c.selectionLens
  kind := kindName c.kind
  suspectedSpans := c.suspectedSpans.getD []
  contractFunction := contractOf c.representativeIds

/-- What the analyzer of a family knows when its agent is done: the family, as it is
parsed once more, and what else goes to a record. -/
structure AnalyzerTask where
  familyId : String
  sessionId : String
  family : Fallible SpannedCandidate
  stacksCoreSha : Option String
  analysisPath : String
  now : String

/-- Why an analysis rules its family out, if it does. -/
def rejectionOf : Analysis → Option (Outcome × String)
  | Analysis.rejected r => some (Outcome.rejected, r.reason)
  | Analysis.accepted a =>
    if a.lensDisposition.status = LensDispositionStatus.notActionable then
      some (Outcome.notActionable,
        a.lensDisposition.reason.getD "(analyzer did not provide a reason)")
    else none

/-- The record of a family that is ruled out. -/
def AnalyzerTask.record (t : AnalyzerTask) (c : SpannedCandidate) (outcome : Outcome)
    (reason : String) : Record where
  ts := t.now
  sessionId := t.sessionId
  familyId := t.familyId
  lens := c.inputs.lens
  outcome := outcome
  kind := c.inputs.kind
  suspectedSpans := c.inputs.suspectedSpans
  contractFunction := c.inputs.contractFunction
  fingerprint := computeFingerprint c.inputs
  stacksCoreSha := t.stacksCoreSha
  reason := reason
  evidencePath := some t.analysisPath

/-- The record that is to be appended for an analysis, if there is one. -/
def rejectionRecord (t : AnalyzerTask) (analysis : Analysis) : Fallible (Option Record) :=
  match rejectionOf analysis with
  | none => return none
  | some (outcome, reason) => do
    let c ← t.family.context "re-parsing candidate JSON for ledger"
    if fingerprintSpecificEnough c.inputs.suspectedSpans c.inputs.contractFunction = true then
      return some (t.record c outcome reason)
    else return none

/-- Append a record to the ledger. -/
def append (codec : Codec) (file : Option RawText) (r : Record) :
    Fallible (Option RawText) :=
  if fingerprintSpecificEnough r.suspectedSpans r.contractFunction = true then do
    let text ← (codec.toJson r).context "serializing analyzed-rejection record"
    return some (file.getD [] ++ line text)
  else return file

/-- Append the record of an analysis, if there is one. -/
def maybeAppendRejection (codec : Codec) (t : AnalyzerTask) (analysis : Analysis)
    (file : Option RawText) : Fallible (Option RawText) := do
  match ← rejectionRecord t analysis with
  | none => return file
  | some r => (append codec file r).context "appending analyzed-rejection record"

/-! ## The probe -/

/-- The records with a fingerprint. -/
def probe (codec : Codec) (file : Option RawText) (i : FingerprintInputs) :
    Fallible (List Record) :=
  if fingerprintSpecificEnough i.suspectedSpans i.contractFunction = true then do
    let all ← loadAllLocked codec file
    return all.filter fun r => r.fingerprint = computeFingerprint i
  else return []

/-- The options of the command. The spans are what the command line makes of one. -/
structure ProbeArgs where
  lens : String
  kind : String
  spans : List String
  contract : Option String

/-- The command that looks a family up. -/
def ProbeArgs.run (codec : Codec) (file : Option RawText) (args : ProbeArgs) :
    Fallible (List Record) :=
  probe codec file ⟨args.lens, args.kind, args.spans, args.contract⟩

/-- The command as triage is told to call it for a candidate, when `values` is what the
command line makes of an option whose values are separated by commas. -/
def SpannedCandidate.probeArgs (values : String → List String) (c : SpannedCandidate) :
    ProbeArgs where
  lens := c.inputs.lens
  kind := c.inputs.kind
  spans := values (commaJoin c.inputs.suspectedSpans)
  contract := c.inputs.contractFunction

/-! ## Spans that are joined and split -/

/-- A span in its normal form, unless it is blank. -/
def normSpan (s : String) : Option String := if Text.trim s = "" then none else some (Text.trim s)

theorem canonicalSpans_eq (spans : List String) :
    canonicalSpans spans = canonical normSpan spans := by
  have hnorm : (spans.map Text.trim).filter (fun s => s ≠ "") = spans.filterMap normSpan := by
    induction spans with
    | nil => rfl
    | cons s spans ih =>
      rw [List.map_cons, List.filter_cons, List.filterMap_cons, ih]
      unfold normSpan
      by_cases h : Text.trim s = "" <;> simp [h]
  unfold canonicalSpans canonical
  rw [hnorm]

theorem normSpan_eq_some_iff {s x : String} :
    normSpan s = some x ↔ Text.trim s = x ∧ x ≠ "" := by
  unfold normSpan
  split_ifs with h
  · exact iff_of_false nofun fun hx => hx.right (hx.left ▸ h)
  · exact ⟨fun hx => ⟨Option.some.inj hx, Option.some.inj hx ▸ h⟩,
      fun hx => congrArg some hx.left⟩

theorem normSpan_idem (s x : String) (h : normSpan s = some x) : normSpan x = some x := by
  obtain ⟨rfl, hne⟩ := normSpan_eq_some_iff.mp h
  exact normSpan_eq_some_iff.mpr ⟨Text.trim_trim s, hne⟩

/-- A text with something without a comma behind it has the same pieces, but for the
last. -/
theorem splitOn_append_of_not_mem {b : List Char} (h : ',' ∉ b) (l : List Char) :
    ∃ init last, l.splitOn ',' = init ++ [last]
      ∧ (l ++ b).splitOn ',' = init ++ [last ++ b] := by
  induction l with
  | nil => exact ⟨[], [], rfl, List.splitOn_eq_singleton h⟩
  | cons x l ih =>
    obtain ⟨init, last, hl, hlb⟩ := ih
    rw [List.cons_append, List.splitOn_cons_eq_if_modifyHead,
      List.splitOn_cons_eq_if_modifyHead, hl, hlb]
    split_ifs
    · exact ⟨[] :: init, last, rfl, rfl⟩
    · cases init with
      | nil => exact ⟨[], x :: last, rfl, rfl⟩
      | cons p init => exact ⟨(x :: p) :: init, last, rfl, rfl⟩

/-- And with something without a comma in front, but for the first. -/
theorem splitOn_append_front {f : List Char} (h : ',' ∉ f) (l : List Char) :
    (f ++ l).splitOn ',' = (l.splitOn ',').modifyHead fun p => f ++ p := by
  induction f with
  | nil =>
    cases hl : l.splitOn ',' with
    | nil => exact hl
    | cons p ps => exact hl
  | cons x f ih =>
    obtain ⟨hx, hf⟩ := not_or.mp fun hmem => h (List.mem_cons.mpr hmem)
    rw [List.cons_append, List.splitOn_cons_eq_if_modifyHead,
      if_neg (by rw [beq_iff_eq]; exact fun heq => hx heq.symm), ih hf, List.modifyHead_modifyHead]
    rfl

theorem comma_not_mem_of_isBlank {t : String} (h : Text.isBlank t = true) : ',' ∉ t.toList :=
  fun hmem => absurd (List.all_eq_true.mp h ',' hmem) (by decide)

/-- White space around a text is white space around its pieces. -/
theorem map_normSpan_commaSplit {front back : String} (hfront : Text.isBlank front = true)
    (hback : Text.isBlank back = true) (s : String) :
    (commaSplit (front ++ s ++ back)).map normSpan = (commaSplit s).map normSpan := by
  have hf : ∀ p : List Char, (normSpan ∘ String.ofList) (front.toList ++ p)
      = (normSpan ∘ String.ofList) p := by
    intro p
    unfold normSpan
    simp only [Function.comp_apply]
    rw [String.ofList_append, String.ofList_toList, Text.trim_append_of_isBlank hfront]
  have hb : ∀ p : List Char, (normSpan ∘ String.ofList) (p ++ back.toList)
      = (normSpan ∘ String.ofList) p := by
    intro p
    unfold normSpan
    simp only [Function.comp_apply]
    rw [String.ofList_append, String.ofList_toList, Text.trim_append_blank hback]
  have hhead : ∀ ps : List (List Char), (ps.modifyHead fun p => front.toList ++ p).map
      (normSpan ∘ String.ofList) = ps.map (normSpan ∘ String.ofList) := by
    intro ps
    cases ps with
    | nil => rfl
    | cons p ps => rw [List.modifyHead_cons, List.map_cons, List.map_cons, hf]
  obtain ⟨init, last, hs, hsb⟩ :=
    splitOn_append_of_not_mem (comma_not_mem_of_isBlank hback) s.toList
  unfold commaSplit
  rw [List.map_map, List.map_map, String.toList_append, String.toList_append,
    List.append_assoc, splitOn_append_front (comma_not_mem_of_isBlank hfront), hsb, hs,
    hhead, List.map_append, List.map_append, List.map_singleton, List.map_singleton, hb]

/-- **The pieces of some spans** have the normal form of the pieces of their normal
form. -/
theorem canonicalSpans_flatMap (spans : List String) :
    canonicalSpans (spans.flatMap commaSplit)
      = canonicalSpans ((canonicalSpans spans).flatMap commaSplit) := by
  have hpieces : ∀ s : String,
      (commaSplit s).map normSpan = (commaSplit (Text.trim s)).map normSpan := by
    intro s
    obtain ⟨front, back, hfront, hback, hs⟩ := Text.exists_trim s
    conv_lhs => rw [hs]
    exact map_normSpan_commaSplit hfront hback _
  have hmem : ∀ {x : String} {s : String},
      (∃ p ∈ commaSplit s, normSpan p = some x) ↔ some x ∈ (commaSplit s).map normSpan := by
    intro x s
    rw [List.mem_map]
  rw [canonicalSpans_eq, canonicalSpans_eq, canonicalSpans_eq]
  refine canonical_congr fun x => ?_
  constructor
  · rintro ⟨p, hp, hx⟩
    obtain ⟨s, hs, hps⟩ := List.mem_flatMap.mp hp
    have htrim : some x ∈ (commaSplit (Text.trim s)).map normSpan := by
      rw [← hpieces, ← hmem]
      exact ⟨p, hps, hx⟩
    -- a span that is blank has no piece that counts
    have hne : Text.trim s ≠ "" := by
      intro hblank
      have hnone : (commaSplit "").map normSpan = [none] := by decide
      rw [hblank, hnone, List.mem_singleton] at htrim
      cases htrim
    obtain ⟨q, hq, hqx⟩ := hmem.mpr htrim
    exact ⟨q, List.mem_flatMap.mpr ⟨Text.trim s,
      mem_canonical.mpr ⟨s, hs, normSpan_eq_some_iff.mpr ⟨rfl, hne⟩⟩, hq⟩, hqx⟩
  · rintro ⟨q, hq, hx⟩
    obtain ⟨w, hw, hqw⟩ := List.mem_flatMap.mp hq
    obtain ⟨s, hs, hsw⟩ := mem_canonical.mp hw
    obtain ⟨rfl, -⟩ := normSpan_eq_some_iff.mp hsw
    obtain ⟨p, hp, hpx⟩ := hmem.mpr (by rw [hpieces, ← hmem]; exact ⟨q, hqw, hx⟩)
    exact ⟨p, List.mem_flatMap.mpr ⟨s, hs, hp⟩, hpx⟩

theorem mem_canonicalSpans {spans : List String} {x : String} :
    x ∈ canonicalSpans spans ↔ ∃ s ∈ spans, Text.trim s = x ∧ x ≠ "" := by
  rw [canonicalSpans_eq, mem_canonical]
  simp only [normSpan_eq_some_iff]

theorem toList_ne_nil_of_mem {spans : List String} {l : List Char}
    (h : l ∈ (canonicalSpans spans).map String.toList) : l ≠ [] := by
  obtain ⟨x, hx, rfl⟩ := List.mem_map.mp h
  obtain ⟨-, -, -, hne⟩ := mem_canonicalSpans.mp hx
  exact fun hnil => hne (String.toList_eq_nil_iff.mp hnil)

/-- There are spans in the normal form exactly if not all of them are blank. -/
theorem any_not_isBlank_iff {spans : List String} :
    (spans.any fun s => !Text.isBlank s) = true ↔ canonicalSpans spans ≠ [] := by
  rw [List.any_eq_true]
  constructor
  · rintro ⟨s, hs, hblank⟩
    have hne : Text.trim s ≠ "" := by
      rw [Ne, Text.trim_eq_empty_iff]
      simpa using hblank
    exact List.ne_nil_of_mem (mem_canonicalSpans.mpr ⟨s, hs, rfl, hne⟩)
  · intro h
    obtain ⟨x, hx⟩ := List.exists_mem_of_ne_nil _ h
    obtain ⟨s, hs, rfl, hne⟩ := mem_canonicalSpans.mp hx
    refine ⟨s, hs, ?_⟩
    rw [Ne, Text.trim_eq_empty_iff] at hne
    simpa using hne

/-- The pieces of a text have no commas, and no more when they are trimmed. -/
theorem comma_not_mem_of_mem {spans : List String} {l : List Char}
    (h : l ∈ (canonicalSpans (spans.flatMap commaSplit)).map String.toList) : ',' ∉ l := by
  obtain ⟨x, hx, rfl⟩ := List.mem_map.mp h
  obtain ⟨p, hp, rfl, -⟩ := mem_canonicalSpans.mp hx
  obtain ⟨s, -, hps⟩ := List.mem_flatMap.mp hp
  obtain ⟨q, hq, rfl⟩ := List.mem_map.mp hps
  intro hcomma
  rw [Text.trim_toList, String.toList_ofList] at hcomma
  exact not_mem_of_mem_splitOn hq ((List.dropWhile_sublist _).mem
    ((List.rdropWhile_prefix _ _).sublist.mem hcomma))

/-- What the command calculates with: the pieces of the spans. -/
theorem canonicalSpans_commaSplit (spans : List String) :
    canonicalSpans (commaSplit (commaJoin spans))
      = canonicalSpans (spans.flatMap commaSplit) := by
  cases spans with
  | nil => decide
  | cons s spans =>
    have hpieces : commaSplit (commaJoin (s :: spans)) = (s :: spans).flatMap commaSplit := by
      have hne : (s :: spans).map String.toList ≠ [] := List.cons_ne_nil _ _
      unfold commaSplit commaJoin
      rw [String.toList_intercalate]
      show (([','].intercalate _).splitOn ',').map String.ofList = _
      rw [splitOn_intercalate_eq_flatMap hne, List.map_flatMap, List.flatMap_map]
    rw [hpieces]

/-- The pieces of the spans of a family between commas, in the order of the spans. -/
def pieces (spans : List String) : List String := (canonicalSpans spans).flatMap commaSplit

theorem map_toList_pieces (spans : List String) : (pieces spans).map String.toList
    = ((canonicalSpans spans).map String.toList).flatMap fun l => l.splitOn ',' := by
  unfold pieces commaSplit
  rw [List.map_flatMap, List.flatMap_map]
  simp only [List.map_map, Function.comp_def, String.toList_ofList, List.map_id']

/-- **Joining and splitting does not change the normal form** exactly if the pieces of
the normal form are one. -/
theorem commaJoin_canonicalSpans_iff (spans : List String) :
    commaJoin (canonicalSpans spans)
        = commaJoin (canonicalSpans (commaSplit (commaJoin spans)))
      ↔ canonicalSpans (pieces spans) = pieces spans := by
  have hinj : Function.Injective (List.map String.toList) :=
    List.map_injective_iff.mpr fun _ _ => String.toList_inj.mp
  rw [canonicalSpans_commaSplit, canonicalSpans_flatMap]
  unfold commaJoin
  rw [← String.toList_inj, String.toList_intercalate, String.toList_intercalate]
  show [','].intercalate _ = [','].intercalate _ ↔ _
  rw [intercalate_eq_iff (fun _ => toList_ne_nil_of_mem) (fun _ => toList_ne_nil_of_mem)
    (fun _ => comma_not_mem_of_mem), ← map_toList_pieces, hinj.eq_iff, eq_comm]
  rfl

/-- In closed form. -/
theorem canonicalSpans_eq_self_iff (l : List String) :
    canonicalSpans l = l ↔ l.Pairwise (· < ·) ∧ ∀ x ∈ l, Text.trim x = x ∧ x ≠ "" := by
  rw [canonicalSpans_eq, canonical_eq_self_iff normSpan_idem]
  simp only [normSpan_eq_some_iff]

/-- Spans without commas are their own pieces. -/
theorem pieces_of_not_mem {spans : List String} (h : ∀ s ∈ spans, ',' ∉ s.toList) :
    pieces spans = canonicalSpans spans := by
  unfold pieces
  have hself : ∀ w ∈ canonicalSpans spans, commaSplit w = [w] := by
    intro w hw
    obtain ⟨s, hs, rfl, -⟩ := mem_canonicalSpans.mp hw
    have hcomma : ',' ∉ (Text.trim s).toList := by
      intro hmem
      rw [Text.trim_toList] at hmem
      exact h s hs ((List.dropWhile_sublist _).mem
        ((List.rdropWhile_prefix _ _).sublist.mem hmem))
    unfold commaSplit
    rw [List.splitOn_eq_singleton hcomma, List.map_singleton, String.ofList_toList]
  rw [List.flatMap_congr hself, List.flatMap_singleton']

/-- A fingerprint is calculated anew from the options exactly as it was if the spans are
joined and split without a change. -/
theorem computeFingerprint_eq_iff {values : String → List String}
    (hvalues : ∀ text, values text = commaSplit text) (c : SpannedCandidate) :
    computeFingerprint c.inputs
        = computeFingerprint ⟨(c.probeArgs values).lens, (c.probeArgs values).kind,
          (c.probeArgs values).spans, (c.probeArgs values).contract⟩
      ↔ canonicalSpans (pieces c.inputs.suspectedSpans) = pieces c.inputs.suspectedSpans := by
  rw [← commaJoin_canonicalSpans_iff, ← hvalues]
  unfold computeFingerprint SpannedCandidate.probeArgs
  dsimp only
  constructor
  · intro h
    rw [← String.toList_inj] at h
    simp only [String.toList_append] at h
    exact String.toList_inj.mp (List.append_cancel_left
      (List.append_cancel_right (List.append_cancel_right h)))
  · intro h
    rw [h]

/-! ## The record in the ledger -/

/-- Something in front of a record, on the same line, makes it unreadable. -/
def Codec.Apart (codec : Codec) : Prop :=
  ∀ r text, codec.toJson r = Except.ok text →
    ∀ front, Text.isBlank front = false → (codec.read (front ++ text)).isOk = false

section Ledger

variable {codec : Codec} {file : Option RawText} {raw : RawText} {r : Record} {text : String}

/-- A ledger is loaded if its lines are texts. -/
theorem isOk_loadLines_iff {ls : List RawText} :
    (∃ rs, loadLines codec ls = Except.ok rs) ↔ ∀ l ∈ ls, (decode l).isSome = true := by
  induction ls with
  | nil => exact iff_of_true ⟨[], rfl⟩ (List.forall_mem_nil _)
  | cons l ls ih =>
    rw [List.forall_mem_cons, ← ih, loadLines]
    cases decode l with
    | none =>
      refine iff_of_false ?_ fun h => by cases h.left
      rintro ⟨rs, h⟩
      cases h
    | some line =>
      constructor
      · rintro ⟨rs, h⟩
        obtain ⟨rest, hrest, -⟩ := bind_ok_iff.mp h
        exact ⟨rfl, rest, hrest⟩
      · rintro ⟨-, rest, hrest⟩
        show ∃ rs, (loadLines codec ls >>= _) = Except.ok rs
        rw [hrest]
        show ∃ rs, (if Text.isBlank line = true then _ else _) = Except.ok rs
        split_ifs
        · exact ⟨rest, rfl⟩
        · cases codec.read line with
          | ok r => exact ⟨r :: rest, rfl⟩
          | error e => exact ⟨rest, rfl⟩

/-- The lines of a ledger are texts, and its last one is not begun, unless the record is
in the ledger already. -/
structure Holds (codec : Codec) (raw : RawText) (r : Record) : Prop where
  lines : ∀ l ∈ lines (finished raw), (decode l).isSome = true
  last : (decode (unfinished raw)).isSome = true
  apart : (decode (unfinished raw)).any Text.isBlank = true
    ∨ r ∈ records codec.read (finished raw)

/-- **A record that was appended is loaded** exactly if it was not written behind a line
that was begun, and the ledger is a text. -/
theorem mem_loadAllLocked_iff (hkeeps : codec.Keeps r text) (hapart : codec.Apart)
    (hwrite : codec.toJson r = Except.ok text) :
    (∃ rs, loadAllLocked codec (some (raw ++ line text)) = Except.ok rs ∧ r ∈ rs)
      ↔ Holds codec raw r := by
  have hload : (∃ rs, loadLines codec (lines (raw ++ line text)) = Except.ok rs)
      ↔ (∀ l ∈ lines (finished raw), (decode l).isSome = true)
        ∧ (decode (unfinished raw)).isSome = true := by
    rw [isOk_loadLines_iff, lines_append_line hkeeps.isLine, List.forall_mem_append,
      List.forall_mem_singleton, decode_append, decode_ofString]
    cases decode (unfinished raw) <;> simp
  have hmem : (decode (unfinished raw)).isSome = true →
      (r ∈ records codec.read (raw ++ line text)
        ↔ (decode (unfinished raw)).any Text.isBlank = true
          ∨ r ∈ records codec.read (finished raw)) := by
    intro hlast
    obtain ⟨u, hu⟩ := Option.isSome_iff_exists.mp hlast
    rw [records_append_line hkeeps.isLine, List.mem_append, hu, Option.any_some,
      decode_eq_some_iff.mp hu]
    -- behind white space the line is a line of its own, else it is part of one that fails
    by_cases hblank : Text.isBlank u = true
    · rw [entry_append_of_isBlank hblank, hkeeps.writes.entry_eq]
      exact iff_of_true (Or.inr (List.mem_singleton_self r)) (Or.inl hblank)
    · have hnone : entry codec.read (ofString u ++ ofString text) = none := by
        have happ : ofString u ++ ofString text = ofString (u ++ text) := by simp [ofString]
        have hfails := hapart r text hwrite u (Bool.eq_false_iff.mpr hblank)
        rw [happ, entry, decode_ofString, Option.bind_some, Text.isBlank_append,
          Bool.eq_false_iff.mpr hblank, Bool.false_and, if_neg Bool.false_ne_true]
        cases hread : codec.read (u ++ text) with
        | error e => rfl
        | ok r' =>
          rw [hread] at hfails
          cases hfails
      rw [hnone]
      constructor
      · rintro (h | h)
        · exact Or.inr h
        · cases h
      · rintro (h | h)
        · exact absurd h hblank
        · exact Or.inl h
  constructor
  · rintro ⟨rs, hrs, hr⟩
    obtain ⟨hlines, hlast⟩ := hload.mp ⟨rs, hrs⟩
    rw [loadAllLocked_ok hrs] at hr
    exact ⟨hlines, hlast, (hmem hlast).mp hr⟩
  · rintro ⟨hlines, hlast, hapart'⟩
    obtain ⟨rs, hrs⟩ := hload.mpr ⟨hlines, hlast⟩
    refine ⟨rs, hrs, ?_⟩
    rw [loadLines_ok hrs]
    exact (hmem hlast).mpr hapart'

end Ledger

/-! ## Every way to lose a rejection -/

/-- A rejection is found again: the pieces of its spans between commas are in order,
without repetitions, without white space around them, and none of them is empty, and the
ledger holds the record. -/
structure Findable (codec : Codec) (raw : RawText) (c : SpannedCandidate) (r : Record) :
    Prop where
  ordered : (pieces c.inputs.suspectedSpans).Pairwise (· < ·)
  trimmed : ∀ p ∈ pieces c.inputs.suspectedSpans, Text.trim p = p ∧ p ≠ ""
  ledger : Holds codec raw r

/-- A record is one of an analysis that rules its family out. -/
theorem rejectionRecord_eq {t : AnalyzerTask} {analysis : Analysis} {r : Record}
    (h : rejectionRecord t analysis = Except.ok (some r)) :
    ∃ c outcome reason, t.family = Except.ok c ∧ rejectionOf analysis = some (outcome, reason)
      ∧ fingerprintSpecificEnough c.inputs.suspectedSpans c.inputs.contractFunction = true
      ∧ r = t.record c outcome reason := by
  unfold rejectionRecord at h
  split at h
  case h_1 => cases h
  case h_2 outcome reason hrejection =>
    obtain ⟨c, hc, h⟩ := bind_ok_iff.mp h
    split_ifs at h with hspecific
    · obtain rfl := Option.some.inj (Except.ok.inj h)
      exact ⟨c, outcome, reason, context_ok_iff.mp hc, hrejection, hspecific, rfl⟩
    · cases h

theorem rejectionRecord_ok {t : AnalyzerTask} {analysis : Analysis} {c : SpannedCandidate}
    {r : Record} (hfamily : t.family = Except.ok c)
    (h : rejectionRecord t analysis = Except.ok (some r)) :
    fingerprintSpecificEnough r.suspectedSpans r.contractFunction = true
      ∧ r.suspectedSpans = c.inputs.suspectedSpans
      ∧ r.contractFunction = c.inputs.contractFunction
      ∧ r.fingerprint = computeFingerprint c.inputs := by
  obtain ⟨c', outcome, reason, hc', -, hspecific, rfl⟩ := rejectionRecord_eq h
  obtain rfl := Except.ok.inj (hc'.symm.trans hfamily)
  exact ⟨hspecific, rfl, rfl, rfl⟩

theorem maybeAppendRejection_ok {codec : Codec} {t : AnalyzerTask} {analysis : Analysis}
    {file file' : Option RawText} {r : Record}
    (hspecific : fingerprintSpecificEnough r.suspectedSpans r.contractFunction = true)
    (hrecord : rejectionRecord t analysis = Except.ok (some r))
    (h : maybeAppendRejection codec t analysis file = Except.ok file') :
    ∃ text, codec.toJson r = Except.ok text ∧ file' = some (file.getD [] ++ line text) := by
  unfold maybeAppendRejection at h
  rw [hrecord] at h
  change (append codec file r).context _ = _ at h
  rw [context_ok_iff] at h
  unfold append at h
  rw [if_pos hspecific] at h
  obtain ⟨text, htext, hfile⟩ := bind_ok_iff.mp h
  exact ⟨text, context_ok_iff.mp htext, (pure_ok_iff.mp hfile).symm⟩

/-- If the spans come back as they were, then the command does not refuse them. -/
theorem specific_commaSplit {c : SpannedCandidate}
    (hspecific : fingerprintSpecificEnough c.inputs.suspectedSpans c.inputs.contractFunction
      = true)
    (hpieces : canonicalSpans (pieces c.inputs.suspectedSpans)
      = pieces c.inputs.suspectedSpans) :
    fingerprintSpecificEnough (commaSplit (commaJoin c.inputs.suspectedSpans))
      c.inputs.contractFunction = true := by
  unfold fingerprintSpecificEnough at *
  rw [Bool.or_eq_true] at *
  refine hspecific.imp_left fun hany => ?_
  rw [any_not_isBlank_iff] at *
  rw [canonicalSpans_commaSplit, canonicalSpans_flatMap]
  show canonicalSpans (pieces _) ≠ []
  rw [hpieces]
  intro hnil
  obtain ⟨s, hs⟩ := List.exists_mem_of_ne_nil _ hany
  have hsplit : commaSplit s ≠ [] :=
    fun h => List.splitOn_ne_nil ',' s.toList (List.map_eq_nil_iff.mp h)
  obtain ⟨p, hp⟩ := List.exists_mem_of_ne_nil _ hsplit
  have hmem : p ∈ pieces _ := List.mem_flatMap.mpr ⟨s, hs, hp⟩
  rw [hnil] at hmem
  cases hmem

/-! ### A family with some spans -/

/-- A family that triage promotes for some spans, -/
def spanFamily (spans : List String) : SpannedCandidate where
  id := "slow-map"
  kind := FamilyKind.txFamily
  selectionLens := SelectionLens.txLatency
  representativeIds := RepresentativeIds.tx ["0xab"]
  suspectedSpans := some spans

/-- its analyzer, -/
def spanTask (spans : List String) : AnalyzerTask where
  familyId := "slow-map"
  sessionId := "20260611-172955"
  family := Except.ok (spanFamily spans)
  stacksCoreSha := none
  analysisPath := "analysis/slow-map/analysis.json"
  now := "2026-06-13T12:00:00Z"

/-- which rules it out, -/
def spanAnalysis : Analysis := Analysis.rejected ⟨"slow-map", "cached"⟩

def spanRecord (spans : List String) : Record :=
  (spanTask spans).record (spanFamily spans) Outcome.rejected "cached"

/-- and the text of its record, up to the spans -/
def spanHead : String :=
  "\x7b\"ts\":\"2026-06-13T12:00:00Z\",\"session_id\":\"20260611-172955\","
    ++ "\"family_id\":\"slow-map\",\"lens\":\"tx_latency\",\"outcome\":\"rejected\","
    ++ "\"kind\":\"tx_family\",\"suspected_spans\":[\""

/-- and on from there. -/
def spanText (spans : List String) : String :=
  spanHead ++ ("\",\"".intercalate spans
    ++ ("\"],\"contract_function\":null,\"fingerprint\":\"" ++ ((spanRecord spans).fingerprint
    ++ ("\",\"stacks_core_sha\":null,\"reason\":\"cached\","
    ++ "\"evidence_path\":\"analysis/slow-map/analysis.json\"\x7d"))))

def spanCodec (spans : List String) : Codec := loneCodec (spanRecord spans) (spanText spans)

/-- Spans that are written as they are, on one line. -/
def LineSpans (spans : List String) : Prop :=
  '\n' ∉ ("\",\"".intercalate spans).toList ∧ '\n' ∉ (spanRecord spans).fingerprint.toList

instance : DecidablePred LineSpans := fun _ => inferInstanceAs (Decidable (_ ∧ _))

set_option maxRecDepth 8000 in
theorem spanText_isObject {spans : List String} (h : LineSpans spans) :
    IsObjectText (spanText spans) := by
  unfold spanText spanHead
  constructor
  · simp only [String.toList_append, List.mem_append, not_or]
    refine ⟨⟨⟨?_, ?_⟩, ?_⟩, h.left, ?_, h.right, ?_, ?_⟩
    all_goals decide
  · simp only [String.toList_append]
    rfl
  · simp only [String.toList_append, List.getLast?_append]
    rfl

/-- Nothing but the text itself is read, so nothing may be in front of it. -/
theorem loneCodec_apart {r : Record} {text : String} (hobject : IsObjectText text) :
    (loneCodec r text).Apart := by
  intro r' text' h front hfront
  have hlast := hobject.last
  have hne : text.toList ≠ [] := fun hnil => by rw [hnil] at hlast; cases hlast
  have hwrites := (tableCodec_faithful (loneCodec_tabled (r := r) hobject) r' text' h)
  change (if r' ∈ [r] then _ else _) = _ at h
  split_ifs at h with hr
  · obtain rfl : text = text' := Except.ok.inj h
    have hlonger : text.toList ≠ (Text.trim (front ++ text)).toList := by
      have hdrop : front.toList.dropWhile Text.isWhiteSpace ≠ [] := by
        intro hnil
        have hall := List.dropWhile_eq_nil_iff.mp hnil
        exact Bool.false_ne_true (hfront.symm.trans (List.all_eq_true.mpr hall))
      have hend : (front.toList.dropWhile Text.isWhiteSpace ++ text.toList).rdropWhile
          Text.isWhiteSpace = front.toList.dropWhile Text.isWhiteSpace ++ text.toList := by
        rw [List.rdropWhile_eq_self_iff]
        intro happ
        have hspace := hobject.last_not_isWhiteSpace
        rw [List.getLast?_eq_some_getLast hne] at hspace
        rw [List.getLast_append_of_ne_nil _ hne]
        exact Bool.eq_false_iff.mp hspace
      rw [Text.trim_toList, String.toList_append, List.dropWhile_append,
        if_neg (by simpa using hdrop), hend]
      intro heq
      have hlength := congrArg List.length heq
      rw [List.length_append] at hlength
      exact hdrop (List.length_eq_zero_iff.mp (by omega))
    unfold Codec.read
    rw [show (loneCodec r text).fromJson _ = _ from
      tableCodec_fromJson fun r₁ _ => hlonger]
    rfl
  · cases h

section SpanFamily

variable {spans : List String}

theorem spanCodec_faithful (h : LineSpans spans) : (spanCodec spans).Faithful :=
  tableCodec_faithful (loneCodec_tabled (spanText_isObject h))

theorem spanCodec_apart (h : LineSpans spans) : (spanCodec spans).Apart :=
  loneCodec_apart (spanText_isObject h)

theorem spanCodec_toJson (spans : List String) :
    (spanCodec spans).toJson (spanRecord spans) = Except.ok (spanText spans) :=
  if_pos (List.mem_singleton_self _)

theorem spanRecord_eq (h : fingerprintSpecificEnough spans none = true) :
    rejectionRecord (spanTask spans) spanAnalysis = Except.ok (some (spanRecord spans)) := by
  show (if fingerprintSpecificEnough spans none = true then _ else _) = _
  rw [if_pos h]
  rfl

theorem spanAppend_eq (h : fingerprintSpecificEnough spans none = true)
    (file : Option RawText) :
    maybeAppendRejection (spanCodec spans) (spanTask spans) spanAnalysis file
      = Except.ok (some (file.getD [] ++ line (spanText spans))) := by
  unfold maybeAppendRejection
  rw [spanRecord_eq h]
  show (append _ file (spanRecord spans)).context _ = _
  unfold append
  rw [show (spanRecord spans).suspectedSpans = spans from rfl,
    show (spanRecord spans).contractFunction = none from rfl, if_pos h, spanCodec_toJson]
  rfl

end SpanFamily

/-- **A rejection that was appended is found again** with the fingerprint of its family
exactly if it is findable. -/
theorem probe_finds_iff {values : String → List String}
    (hvalues : ∀ text, values text = commaSplit text) {codec : Codec} (hc : codec.Faithful)
    (hapart : codec.Apart) {t : AnalyzerTask} {analysis : Analysis} {c : SpannedCandidate}
    {file file' : Option RawText} {r : Record} (hfamily : t.family = Except.ok c)
    (hrecord : rejectionRecord t analysis = Except.ok (some r))
    (happend : maybeAppendRejection codec t analysis file = Except.ok file') :
    (∃ hits, (c.probeArgs values).run codec file' = Except.ok hits ∧ r ∈ hits)
      ↔ Findable codec (file.getD []) c r := by
  obtain ⟨hspecific, hspans, hcontract, hfingerprint⟩ := rejectionRecord_ok hfamily hrecord
  obtain ⟨text, hwrite, rfl⟩ := maybeAppendRejection_ok hspecific hrecord happend
  have hholds : _ ↔ Holds codec (file.getD []) r :=
    mem_loadAllLocked_iff (hc r text hwrite) hapart hwrite
  have hself := canonicalSpans_eq_self_iff (pieces c.inputs.suspectedSpans)
  rw [hspans, hcontract] at hspecific
  unfold ProbeArgs.run probe
  constructor
  · rintro ⟨hits, hprobe, hr⟩
    split_ifs at hprobe
    · obtain ⟨all, hall, hfilter⟩ := bind_ok_iff.mp hprobe
      rw [← pure_ok_iff.mp hfilter] at hr
      obtain ⟨hmem, heq⟩ := List.mem_filter.mp hr
      rw [decide_eq_true_eq, hfingerprint, computeFingerprint_eq_iff hvalues, hself] at heq
      exact ⟨heq.left, heq.right, hholds.mp ⟨all, hall, hmem⟩⟩
    · rw [← pure_ok_iff.mp hprobe] at hr
      cases hr
  · intro h
    have hpieces := hself.mpr ⟨h.ordered, h.trimmed⟩
    obtain ⟨all, hall, hmem⟩ := hholds.mpr h.ledger
    -- a family that was specific enough to be recorded is so when it is asked for
    have hgate : fingerprintSpecificEnough (c.probeArgs values).spans
        (c.probeArgs values).contract = true := by
      show fingerprintSpecificEnough (values _) _ = true
      rw [hvalues]
      exact specific_commaSplit hspecific hpieces
    rw [if_pos hgate, hall]
    refine ⟨_, rfl, List.mem_filter.mpr ⟨hmem, ?_⟩⟩
    rw [decide_eq_true_eq, hfingerprint, computeFingerprint_eq_iff hvalues]
    exact hpieces

/-- The spans of a family that reads a map and writes it. -/
def mapSpans : List String := ["map_get", "map_set"]

/-- A family with two spans, in a ledger that had something else. -/
theorem probe_finds_iff_map_get :
    ∃ hits, ((spanFamily mapSpans).probeArgs commaSplit).run (spanCodec mapSpans)
        (some (render ["x"] ++ line (spanText mapSpans))) = Except.ok hits
      ∧ spanRecord mapSpans ∈ hits := by
  have hstray : Holds (spanCodec mapSpans) (render ["x"]) (spanRecord mapSpans) := by
    refine ⟨fun l hl => ?_, ?_, Or.inl ?_⟩
    · rw [finished_of_unfinished_nil (unfinished_render _), lines_render
        (List.forall_mem_singleton.mpr isLine_x)] at hl
      rw [List.mem_singleton.mp hl]
      rfl
    all_goals rw [unfinished_render]; rfl
  exact (probe_finds_iff (fun _ => rfl) (spanCodec_faithful (by decide))
    (spanCodec_apart (by decide)) rfl (spanRecord_eq (by decide))
    (spanAppend_eq (by decide) (some (render ["x"])))).mpr
      ⟨by decide, by decide, hstray⟩

/-- The pieces of this span are in another order when they are sorted. -/
theorem not_found_of_comma :
    (spanCodec ["write, read"]).Faithful ∧ (spanCodec ["write, read"]).Apart
      ∧ rejectionRecord (spanTask ["write, read"]) spanAnalysis
        = Except.ok (some (spanRecord ["write, read"]))
      ∧ ∃ file, maybeAppendRejection (spanCodec ["write, read"]) (spanTask ["write, read"])
          spanAnalysis none = Except.ok file
        ∧ ¬ ∃ hits, ((spanFamily ["write, read"]).probeArgs commaSplit).run
            (spanCodec ["write, read"]) file = Except.ok hits
          ∧ spanRecord ["write, read"] ∈ hits := by
  refine ⟨spanCodec_faithful (by decide), spanCodec_apart (by decide),
    spanRecord_eq (by decide), _, spanAppend_eq (by decide) none, ?_⟩
  rintro ⟨hits, hprobe, hr⟩
  unfold ProbeArgs.run probe at hprobe
  split_ifs at hprobe
  · obtain ⟨all, -, hfilter⟩ := bind_ok_iff.mp hprobe
    rw [← pure_ok_iff.mp hfilter] at hr
    have heq := of_decide_eq_true (List.mem_filter.mp hr).right
    rw [show (spanRecord ["write, read"]).fingerprint
      = computeFingerprint (spanFamily ["write, read"]).inputs from rfl,
      computeFingerprint_eq_iff fun _ => rfl] at heq
    exact absurd heq (by decide)
  · rw [← pure_ok_iff.mp hprobe] at hr
    cases hr

end Rejections
