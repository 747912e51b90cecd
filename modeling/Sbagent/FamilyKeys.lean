import Sbagent.RejectionProbe

/-!
# What a fingerprint says of a family

The fingerprint of a family is one text, in which its lens, its kind, its spans and its
contract stand between bars, and the spans between commas; a family without a contract
has a star in its place. Nothing is quoted. A bar in a span, a comma in a span or a star as
the name of a contract reads as the text of another family, and then a rejection of the
one is found for the other.

`FingerprintInputs.Separated` says of two keys that this cannot happen to them, and
`probe_eq_iff` what a probe returns. Keys as triage is told to write them have nothing to
confuse (`FingerprintInputs.separated_of_plain`).
-/

open Canonical Jsonl Fallible

namespace Rejections

/-- The spans of a family as a set: trimmed, and those that are not blank. -/
def spanSet (spans : List String) : Set String :=
  {x | x ≠ "" ∧ ∃ s ∈ spans, Text.trim s = x}

theorem mem_canonicalSpans_iff {spans : List String} {x : String} :
    x ∈ canonicalSpans spans ↔ x ∈ spanSet spans := by
  rw [mem_canonicalSpans]
  constructor
  · rintro ⟨s, hs, htrim, hne⟩
    exact ⟨hne, s, hs, htrim⟩
  · rintro ⟨hne, s, hs, htrim⟩
    exact ⟨s, hs, htrim, hne⟩

/-- **The normal form is the set**, written as a list. -/
theorem canonicalSpans_eq_iff {a b : List String} :
    canonicalSpans a = canonicalSpans b ↔ spanSet a = spanSet b := by
  constructor
  · intro h
    ext x
    rw [← mem_canonicalSpans_iff, h, mem_canonicalSpans_iff]
  · intro h
    rw [canonicalSpans_eq, canonicalSpans_eq]
    refine canonical_congr fun x => ?_
    rw [← mem_canonical, ← mem_canonical, ← canonicalSpans_eq, ← canonicalSpans_eq,
      mem_canonicalSpans_iff, mem_canonicalSpans_iff, h]

/-- The normal forms are joined to the same exactly if they have the same pieces. -/
theorem commaJoin_eq_iff {a b : List String} :
    commaJoin (canonicalSpans a) = commaJoin (canonicalSpans b) ↔ pieces a = pieces b := by
  have hinj : Function.Injective (List.map String.toList) :=
    List.map_injective_iff.mpr fun _ _ => String.toList_inj.mp
  unfold commaJoin
  rw [← String.toList_inj, String.toList_intercalate, String.toList_intercalate]
  show [','].intercalate _ = [','].intercalate _ ↔ _
  rw [intercalate_congr_iff (fun _ => toList_ne_nil_of_mem) (fun _ => toList_ne_nil_of_mem),
    ← map_toList_pieces, ← map_toList_pieces, hinj.eq_iff]

/-! ## Keys -/

namespace FingerprintInputs

/-- **Two keys are of the same family.** -/
structure SameFamily (i j : FingerprintInputs) : Prop where
  lens : i.lens = j.lens
  kind : i.kind = j.kind
  contract : canonicalContract i.contractFunction = canonicalContract j.contractFunction
  spans : spanSet i.suspectedSpans = spanSet j.suspectedSpans

/-- What stands between the bars of a fingerprint. -/
def parts (i : FingerprintInputs) : List String :=
  [i.lens, i.kind, commaJoin (canonicalSpans i.suspectedSpans),
    (canonicalContract i.contractFunction).getD "*"]

/-- The pieces of the parts between bars, laid end to end. -/
def barPieces (i : FingerprintInputs) : List (List Char) :=
  i.parts.flatMap fun part => part.toList.splitOn '|'

/-- How many bars there are in each of the parts. -/
def bars (i : FingerprintInputs) : List ℕ := i.parts.map fun part => part.toList.count '|'

/-- The one has no contract, and that of the other is called as the star is. -/
def Starred (a b : Option String) : Prop := a = none ∧ b = some "*" ∨ a = some "*" ∧ b = none

/-- **Two keys cannot be confused.** -/
structure Separated (i j : FingerprintInputs) : Prop where
  /-- No bar of the one stands in another part of the other. -/
  bar : i.barPieces = j.barPieces → i.bars = j.bars
  /-- Keys that agree up to the commas of their spans are not one with the contract `*`
  and one without any. -/
  star : i.lens = j.lens → i.kind = j.kind → pieces i.suspectedSpans = pieces j.suspectedSpans →
    ¬ Starred (canonicalContract i.contractFunction) (canonicalContract j.contractFunction)
  /-- Keys that agree in lens, kind and contract have the same pieces between the commas
  of their spans only if they have the same spans. -/
  comma : i.lens = j.lens → i.kind = j.kind →
    canonicalContract i.contractFunction = canonicalContract j.contractFunction →
    pieces i.suspectedSpans = pieces j.suspectedSpans →
    spanSet i.suspectedSpans = spanSet j.suspectedSpans

variable {i j : FingerprintInputs}

theorem getD_star_eq_iff {a b : Option String} :
    a.getD "*" = b.getD "*" ↔ a = b ∨ Starred a b := by
  unfold Starred
  cases a with
  | none =>
    cases b with
    | none => simp
    | some y => simp [eq_comm]
  | some x =>
    cases b with
    | none => simp
    | some y => simp

theorem pieces_congr {a b : List String} (h : spanSet a = spanSet b) : pieces a = pieces b := by
  unfold pieces
  rw [canonicalSpans_eq_iff.mpr h]

/-- **The fingerprint is its parts**, joined by bars. -/
theorem computeFingerprint_toList (i : FingerprintInputs) : (computeFingerprint i).toList
    = ['|'].intercalate (i.parts.map String.toList) := by
  unfold computeFingerprint parts
  simp only [String.toList_append, List.map_cons, List.map_nil, List.intercalate_cons_cons,
    List.intercalate_singleton, List.append_assoc]
  rfl

/-- Two fingerprints are the same exactly if the pieces between their bars are. -/
theorem computeFingerprint_eq_iff_barPieces :
    computeFingerprint i = computeFingerprint j ↔ i.barPieces = j.barPieces := by
  have hne : ∀ k : FingerprintInputs, k.parts.map String.toList ≠ [] := by
    intro k
    exact List.cons_ne_nil _ _
  rw [← String.toList_inj, computeFingerprint_toList, computeFingerprint_toList,
    intercalate_eq_intercalate_iff (hne i) (hne j), List.flatMap_map, List.flatMap_map]
  rfl

/-- And if the bars stand in the same parts, exactly if the parts are. -/
theorem parts_eq_iff : i.parts = j.parts ↔ i.barPieces = j.barPieces ∧ i.bars = j.bars := by
  constructor
  · intro h
    unfold barPieces bars
    rw [h]
    exact ⟨rfl, rfl⟩
  · rintro ⟨hpieces, hbars⟩
    have hinj : Function.Injective (List.map String.toList) :=
      List.map_injective_iff.mpr fun _ _ => String.toList_inj.mp
    refine hinj (eq_of_flatMap_splitOn (c := '|') ?_ ?_)
    · rw [List.flatMap_map, List.flatMap_map]
      exact hpieces
    · rw [List.map_map, List.map_map]
      exact hbars

theorem parts_eq_iff_pieces : i.parts = j.parts ↔ i.lens = j.lens ∧ i.kind = j.kind
    ∧ pieces i.suspectedSpans = pieces j.suspectedSpans
    ∧ (canonicalContract i.contractFunction = canonicalContract j.contractFunction
      ∨ Starred (canonicalContract i.contractFunction)
          (canonicalContract j.contractFunction)) := by
  rw [← commaJoin_eq_iff, ← getD_star_eq_iff]
  unfold parts
  simp only [List.cons.injEq, and_true]

/-- Keys of the same family have the same parts. -/
theorem SameFamily.parts_eq (h : i.SameFamily j) : i.parts = j.parts :=
  parts_eq_iff_pieces.mpr ⟨h.lens, h.kind, pieces_congr h.spans, Or.inl h.contract⟩

theorem SameFamily.fingerprint_eq (h : i.SameFamily j) :
    computeFingerprint i = computeFingerprint j :=
  computeFingerprint_eq_iff_barPieces.mpr (parts_eq_iff.mp h.parts_eq).left

/-- **A fingerprint identifies a family** among two exactly if their keys cannot be
confused. -/
theorem fingerprint_eq_iff_sameFamily_iff :
    (computeFingerprint i = computeFingerprint j ↔ i.SameFamily j) ↔ i.Separated j := by
  constructor
  · intro h
    have hsame : i.parts = j.parts → i.SameFamily j := fun hparts =>
      h.mp (computeFingerprint_eq_iff_barPieces.mpr (parts_eq_iff.mp hparts).left)
    constructor
    · intro hpieces
      have hparts := (h.mp (computeFingerprint_eq_iff_barPieces.mpr hpieces)).parts_eq
      exact (parts_eq_iff.mp hparts).right
    · intro hlens hkind hspans hstar
      have hcontract := (hsame
        (parts_eq_iff_pieces.mpr ⟨hlens, hkind, hspans, Or.inr hstar⟩)).contract
      rcases hstar with ⟨hi, hj⟩ | ⟨hi, hj⟩ <;> rw [hi, hj] at hcontract <;> cases hcontract
    · intro hlens hkind hcontract hspans
      exact (hsame (parts_eq_iff_pieces.mpr ⟨hlens, hkind, hspans, Or.inl hcontract⟩)).spans
  · intro h
    refine ⟨fun heq => ?_, SameFamily.fingerprint_eq⟩
    have hpieces := computeFingerprint_eq_iff_barPieces.mp heq
    obtain ⟨hlens, hkind, hspans, hcontract⟩ :=
      parts_eq_iff_pieces.mp (parts_eq_iff.mpr ⟨hpieces, h.bar hpieces⟩)
    have hcontract := hcontract.resolve_right (h.star hlens hkind hspans)
    exact ⟨hlens, hkind, hcontract, h.comma hlens hkind hcontract hspans⟩

/-! ### Keys without bars, commas and stars -/

/-- A key that has nothing in it of what a fingerprint is put together with. -/
structure Plain (i : FingerprintInputs) : Prop where
  lens : '|' ∉ i.lens.toList
  kind : '|' ∉ i.kind.toList
  spans : ∀ s ∈ i.suspectedSpans, '|' ∉ s.toList ∧ ',' ∉ s.toList
  contract : canonicalContract i.contractFunction ≠ some "*"

theorem not_mem_canonicalSpans {spans : List String} {c : Char}
    (h : ∀ s ∈ spans, c ∉ s.toList) : ∀ x ∈ canonicalSpans spans, c ∉ x.toList := by
  intro x hx hmem
  obtain ⟨s, hs, rfl, -⟩ := mem_canonicalSpans.mp hx
  rw [Text.trim_toList] at hmem
  exact h s hs ((List.dropWhile_sublist _).mem ((List.rdropWhile_prefix _ _).sublist.mem hmem))

theorem Plain.bar_not_mem_commaJoin (h : i.Plain) :
    '|' ∉ (commaJoin (canonicalSpans i.suspectedSpans)).toList := by
  have hspans := not_mem_canonicalSpans fun s hs => (h.spans s hs).left
  unfold commaJoin
  rw [String.toList_intercalate]
  exact not_mem_intercalate (by decide) (List.forall_mem_map.mpr hspans)

/-- The first three parts of a plain key are one piece each. -/
theorem Plain.barPieces_eq (h : i.Plain) : i.barPieces = i.lens.toList :: i.kind.toList
    :: (commaJoin (canonicalSpans i.suspectedSpans)).toList
    :: ((canonicalContract i.contractFunction).getD "*").toList.splitOn '|' := by
  unfold barPieces parts
  simp only [List.flatMap_cons, List.flatMap_nil, List.append_nil,
    List.splitOn_eq_singleton h.lens, List.splitOn_eq_singleton h.kind,
    List.splitOn_eq_singleton h.bar_not_mem_commaJoin, List.singleton_append]

theorem Plain.bars_eq (h : i.Plain) : i.bars
    = [0, 0, 0, ((canonicalContract i.contractFunction).getD "*").toList.count '|'] := by
  unfold bars parts
  simp only [List.map_cons, List.map_nil, List.count_eq_zero_of_not_mem h.lens,
    List.count_eq_zero_of_not_mem h.kind, List.count_eq_zero_of_not_mem h.bar_not_mem_commaJoin]

/-- **Plain keys cannot be confused.** -/
theorem separated_of_plain (hi : i.Plain) (hj : j.Plain) : i.Separated j := by
  constructor
  · intro hpieces
    rw [hi.barPieces_eq, hj.barPieces_eq] at hpieces
    obtain ⟨-, htail⟩ := List.cons.inj hpieces
    obtain ⟨-, htail⟩ := List.cons.inj htail
    obtain ⟨-, hcontract⟩ := List.cons.inj htail
    rw [hi.bars_eq, hj.bars_eq, splitOn_injective '|' hcontract]
  · rintro - - - (⟨-, hstar⟩ | ⟨hstar, -⟩)
    · exact hj.contract hstar
    · exact hi.contract hstar
  · intro _ _ _ hpieces
    rw [pieces_of_not_mem fun s hs => (hi.spans s hs).right,
      pieces_of_not_mem fun s hs => (hj.spans s hs).right] at hpieces
    exact canonicalSpans_eq_iff.mp hpieces

instance : Decidable (i.SameFamily j) :=
  decidable_of_iff
    (i.lens = j.lens ∧ i.kind = j.kind
      ∧ canonicalContract i.contractFunction = canonicalContract j.contractFunction
      ∧ canonicalSpans i.suspectedSpans = canonicalSpans j.suspectedSpans)
    ⟨fun h => ⟨h.left, h.right.left, h.right.right.left,
        canonicalSpans_eq_iff.mp h.right.right.right⟩,
      fun h => ⟨h.lens, h.kind, h.contract, canonicalSpans_eq_iff.mpr h.spans⟩⟩

/-- Of two keys of the same family, both say enough or none of them. -/
theorem SameFamily.specific_eq (h : i.SameFamily j) :
    fingerprintSpecificEnough i.suspectedSpans i.contractFunction
      = fingerprintSpecificEnough j.suspectedSpans j.contractFunction := by
  have hspans : (i.suspectedSpans.any fun s => !Text.isBlank s)
      = j.suspectedSpans.any fun s => !Text.isBlank s := by
    rw [Bool.eq_iff_iff, any_not_isBlank_iff, any_not_isBlank_iff,
      canonicalSpans_eq_iff.mpr h.spans]
  unfold fingerprintSpecificEnough
  rw [hspans, h.contract]

end FingerprintInputs

/-! ## What a probe returns -/

/-- The key of the family of a record. -/
def Record.key (r : Record) : FingerprintInputs where
  lens := r.lens
  kind := r.kind
  suspectedSpans := r.suspectedSpans
  contractFunction := r.contractFunction

/-- A record as it is appended. -/
structure Record.Written (r : Record) : Prop where
  fingerprint : r.fingerprint = computeFingerprint r.key
  specific : fingerprintSpecificEnough r.suspectedSpans r.contractFunction = true

theorem written_of_rejectionRecord {t : AnalyzerTask} {analysis : Analysis} {r : Record}
    (h : rejectionRecord t analysis = Except.ok (some r)) : r.Written := by
  obtain ⟨c, outcome, reason, -, -, hspecific, rfl⟩ := rejectionRecord_eq h
  exact ⟨rfl, hspecific⟩

section Probe

variable {codec : Codec} {file : Option RawText} {all : List Record}

/-- **A probe returns the rejections of the family** and no others exactly if its key, in
case it says enough, cannot be confused with that of a record. -/
theorem probe_eq_iff (i : FingerprintInputs) (hload : loadAllLocked codec file = Except.ok all)
    (hwritten : ∀ r ∈ all, r.Written) :
    probe codec file i = Except.ok (all.filter fun r => i.SameFamily r.key)
      ↔ (fingerprintSpecificEnough i.suspectedSpans i.contractFunction = true →
          ∀ r ∈ all, i.Separated r.key) := by
  unfold probe
  split_ifs with hspecific
  · have hhits : (do
        let all ← loadAllLocked codec file
        return all.filter fun r => r.fingerprint = computeFingerprint i)
        = Except.ok (all.filter fun r => decide (r.fingerprint = computeFingerprint i)) := by
      rw [hload]
      rfl
    rw [hhits, Except.ok.injEq]
    have hiff : ∀ r ∈ all, (r.fingerprint = computeFingerprint i ↔ i.SameFamily r.key)
        ↔ i.Separated r.key := by
      intro r hr
      rw [(hwritten r hr).fingerprint, eq_comm,
        ← FingerprintInputs.fingerprint_eq_iff_sameFamily_iff]
    constructor
    · intro h _ r hr
      rw [← hiff r hr]
      have hmem : r ∈ (all.filter fun r => decide (r.fingerprint = computeFingerprint i))
          ↔ r ∈ all.filter fun r => decide (i.SameFamily r.key) := by rw [h]
      simpa [hr] using hmem
    · intro h
      refine List.filter_congr fun r hr => ?_
      rw [decide_eq_decide]
      exact (hiff r hr).mpr (h hspecific r hr)
  · have hnone : (all.filter fun r => decide (i.SameFamily r.key)) = [] := by
      rw [List.filter_eq_nil_iff]
      intro r hr hsame
      have heq := (of_decide_eq_true hsame).specific_eq
      exact hspecific (heq.trans (hwritten r hr).specific)
    rw [hnone]
    exact iff_of_true rfl fun h => absurd h hspecific

/-- **A fingerprint identifies a family**: two keys have the same one exactly if they are
of the same family, unless they can be confused, and a probe returns the rejections of its
family and no others, unless its key can be confused with that of a record. -/
theorem fingerprint_identifies_iff (i j : FingerprintInputs)
    (hload : loadAllLocked codec file = Except.ok all) (hwritten : ∀ r ∈ all, r.Written) :
    ((computeFingerprint i = computeFingerprint j ↔ i.SameFamily j) ↔ i.Separated j)
      ∧ (probe codec file i = Except.ok (all.filter fun r => i.SameFamily r.key)
        ↔ (fingerprintSpecificEnough i.suspectedSpans i.contractFunction = true →
            ∀ r ∈ all, i.Separated r.key)) :=
  ⟨FingerprintInputs.fingerprint_eq_iff_sameFamily_iff, probe_eq_iff i hload hwritten⟩

end Probe

/-- The key of the family with these spans. -/
def spansKey (spans : List String) : FingerprintInputs where
  lens := "tx_latency"
  kind := "tx_family"
  suspectedSpans := spans
  contractFunction := none

theorem written_spanRecord {spans : List String}
    (h : fingerprintSpecificEnough spans none = true) : (spanRecord spans).Written :=
  written_of_rejectionRecord (spanRecord_eq h)

/-- Two families, one of which has more spans than the other. -/
def twoSpans : List Record := [spanRecord ["map_get"], spanRecord mapSpans]

/-- The text of a record of one of them. -/
def twoText (r : Record) : String := spanText r.suspectedSpans

def twoCodec : Codec := tableCodec twoSpans twoText

/-- The spans of a record in its text, with the end of their list. -/
def spanChars (spans : List String) : List Char :=
  ("\",\"".intercalate spans).toList ++ ['\"', ']']

theorem spanText_toList (spans : List String) :
    ∃ rest, (spanText spans).toList = spanHead.toList ++ (spanChars spans ++ rest) := by
  unfold spanText spanChars
  simp only [String.toList_append, List.append_assoc]
  exact ⟨_, rfl⟩

/-- Where one text is the beginning of another one, the spans begin alike. -/
theorem take_spanChars {spans spans' : List String} {n : ℕ}
    (hn : n ≤ (spanChars spans).length) (hn' : n ≤ (spanChars spans').length)
    (h : (spanText spans).toList <+: (spanText spans').toList) :
    (spanChars spans).take n = (spanChars spans').take n := by
  obtain ⟨rest, hrest⟩ := spanText_toList spans
  obtain ⟨rest', hrest'⟩ := spanText_toList spans'
  rw [hrest, hrest', List.prefix_append_right_inj] at h
  have htake := h.take n
  rw [List.take_append_of_le_length hn, List.take_append_of_le_length hn'] at htake
  refine htake.eq_of_length ?_
  rw [List.length_take_of_le hn, List.length_take_of_le hn']

theorem two_tabled : Tabled twoSpans twoText where
  isObject := List.forall_mem_cons.mpr ⟨spanText_isObject (by decide),
    List.forall_mem_singleton.mpr (spanText_isObject (by decide))⟩
  apart := by
    have happart : ∀ r ∈ twoSpans, ∀ r' ∈ twoSpans, 9 ≤ (spanChars r.suspectedSpans).length
        ∧ ((spanChars r'.suspectedSpans).take 9 = (spanChars r.suspectedSpans).take 9 →
          r' = r) := by decide +kernel
    intro r hr r' hr' hpre
    exact (happart r hr r' hr').right
      (take_spanChars (happart r' hr' r hr).left (happart r hr r' hr').left hpre)

def twoLedger : RawText := render (twoSpans.map twoText)

theorem load_two : loadAllLocked twoCodec (some twoLedger) = Except.ok twoSpans := by
  have hwrites := tableCodec_records two_tabled fun r hr => hr
  exact (loadAllLocked_render fun t ht => (isLine_of_writes hwrites t ht).left).trans
    (congrArg Except.ok (records_render hwrites))

theorem plain_spansKey {spans : List String}
    (h : ∀ s ∈ spans, '|' ∉ s.toList ∧ ',' ∉ s.toList) : (spansKey spans).Plain where
  lens := show '|' ∉ "tx_latency".toList by decide
  kind := show '|' ∉ "tx_family".toList by decide
  spans := h
  contract := show canonicalContract none ≠ some "*" by decide

/-- The key of one of two families, its spans the other way round and one of them twice,
finds the one and not the other. -/
theorem fingerprint_identifies_iff_map_get :
    computeFingerprint (spansKey ["map_set", "map_get", "map_set"])
        = computeFingerprint (spansKey mapSpans)
      ∧ probe twoCodec (some twoLedger) (spansKey ["map_set", "map_get", "map_set"])
        = Except.ok [spanRecord mapSpans] := by
  have hwritten : ∀ r ∈ twoSpans, r.Written :=
    List.forall_mem_cons.mpr ⟨written_spanRecord (by decide),
      List.forall_mem_singleton.mpr (written_spanRecord (by decide))⟩
  have hkey : (spansKey ["map_set", "map_get", "map_set"]).Plain := plain_spansKey (by decide)
  obtain ⟨hsame, hprobe⟩ := fingerprint_identifies_iff
    (spansKey ["map_set", "map_get", "map_set"]) (spansKey mapSpans) load_two hwritten
  refine ⟨(hsame.mpr (FingerprintInputs.separated_of_plain hkey (plain_spansKey (by decide)))).mpr
    (by decide), ?_⟩
  have hplain : ∀ r ∈ twoSpans, r.key.Plain :=
    List.forall_mem_cons.mpr ⟨plain_spansKey (by decide),
      List.forall_mem_singleton.mpr (plain_spansKey (by decide))⟩
  refine (hprobe.mpr fun _ r hr => FingerprintInputs.separated_of_plain hkey (hplain r hr)).trans
    (congrArg Except.ok ?_)
  decide

/-- The ledger after the one rejection. -/
theorem loadAllLocked_spanText {spans : List String} (h : LineSpans spans) :
    loadAllLocked (spanCodec spans) (some (line (spanText spans)))
      = Except.ok [spanRecord spans] := by
  have hwrites : List.Forall₂ (Writes (spanCodec spans).read) [spanText spans] [spanRecord spans] :=
    tableCodec_records (loneCodec_tabled (r := spanRecord spans) (spanText_isObject h))
      fun r hr => hr
  have hline : render [spanText spans] = line (spanText spans) := List.append_nil _
  rw [← hline]
  exact (loadAllLocked_render fun t ht => (isLine_of_writes hwrites t ht).left).trans
    (congrArg Except.ok (records_render hwrites))

/-- The family of two spans is found as the one of a span with a comma in it. -/
theorem not_identified_of_comma :
    computeFingerprint (spansKey ["map_get", "map_set"])
        = computeFingerprint (spansKey ["map_get,map_set"])
      ∧ ¬ (spansKey ["map_get", "map_set"]).SameFamily (spansKey ["map_get,map_set"])
      ∧ rejectionRecord (spanTask ["map_get,map_set"]) spanAnalysis
        = Except.ok (some (spanRecord ["map_get,map_set"]))
      ∧ loadAllLocked (spanCodec ["map_get,map_set"]) (some (line (spanText ["map_get,map_set"])))
        = Except.ok [spanRecord ["map_get,map_set"]]
      ∧ probe (spanCodec ["map_get,map_set"]) (some (line (spanText ["map_get,map_set"])))
          (spansKey ["map_get", "map_set"]) = Except.ok [spanRecord ["map_get,map_set"]]
      ∧ (spanRecord ["map_get,map_set"]).key = spansKey ["map_get,map_set"] := by
  have hload : loadAllLocked (spanCodec ["map_get,map_set"])
      (some (line (spanText ["map_get,map_set"]))) = Except.ok [spanRecord ["map_get,map_set"]] :=
    loadAllLocked_spanText (by decide)
  refine ⟨by decide, by decide, spanRecord_eq (by decide), hload, ?_, rfl⟩
  unfold probe
  rw [if_pos (by decide), hload]
  rfl

end Rejections
