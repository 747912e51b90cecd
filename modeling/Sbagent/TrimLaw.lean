import Sbagent.Rejections
import Sbagent.StableSort

/-!
# What trimming keeps

`rejections trim` drops records that are too old, that were recorded against a revision
that is to be tested again, and that are not among the newest of their family. The options
are applied in this order, and what their documentation says of them fits in one sentence:
a record without a revision is not dropped for its revision, and the records that are kept
stay in their order.

The program follows neither half of it. It drops records without a revision whenever a
revision is given, and it sorts what is left, newest first, whenever a number is given. The
command looks first whether the options drop anything, and leaves the file alone when they do
not, so that a mere change of the order is never written. So it does what is documented
exactly where neither can be seen (`trim_law_iff`): no record that the rule keeps lacks a
revision, and where the rule drops some, those that it keeps were newest first from the
beginning.
-/

open Fallible Jsonl StableSort

namespace Rejections

/-! ## The rule -/

/-- A record, and its place in the ledger. -/
abbrev Placed := Record × ℕ

/-- A record is newer, or as new and further up. -/
def Ahead (p q : Placed) : Prop :=
  q.fst.ts < p.fst.ts ∨ (p.fst.ts = q.fst.ts ∧ p.snd < q.snd)

instance : DecidableRel Ahead := fun p q =>
  inferInstanceAs (Decidable (q.fst.ts < p.fst.ts ∨ (p.fst.ts = q.fst.ts ∧ p.snd < q.snd)))

/-- How many records of its family are ahead of a record. -/
def rank (left : List Placed) (p : Placed) : ℕ :=
  left.countP fun q => decide (q.fst.familyId = p.fst.familyId) && decide (Ahead q p)

/-- The newest records of each family, in the order in which they were. -/
def newest (n : ℕ) (left : List Placed) : List Placed :=
  left.filter fun p => decide (rank left p < n)

/-- A record is not of a revision that is to be dropped: it is of another one, or of
none. -/
def notOfSha (beforeSha : Option String) (r : Record) : Bool :=
  match beforeSha, r.stacksCoreSha with
  | some sha, some s => !Text.startsWith s sha
  | _, _ => true

/-- The records that are neither too old nor of a revision that is to be dropped. -/
def spared (before beforeSha : Option String) (rs : List Record) : List Placed :=
  rs.zipIdx.filter fun p => Filter.fromDate before p.fst && notOfSha beforeSha p.fst

/-- What the options are documented to keep. -/
def documented (before beforeSha : Option String) (keepLast : Option ℕ)
    (rs : List Record) : List Record :=
  let left := spared before beforeSha rs
  (match keepLast with
  | none => left
  | some n => newest n left).map Prod.fst

/-- One record may stand before another when the newest come first, and those of one time
by family. -/
def Before (a b : Record) : Prop :=
  b.ts < a.ts ∨ (a.ts = b.ts ∧ a.familyId ≤ b.familyId)

instance : DecidableRel Before := fun a b =>
  inferInstanceAs (Decidable (b.ts < a.ts ∨ (a.ts = b.ts ∧ a.familyId ≤ b.familyId)))

/-! ## Places -/

section Places

variable {left : List Placed} {p q : Placed} {n : ℕ}

theorem Ahead.asymm (h : Ahead p q) : ¬ Ahead q p := by
  rintro (hlt | ⟨heq, hlt⟩)
  · obtain hlt' | ⟨heq', -⟩ := h
    · exact lt_asymm hlt hlt'
    · exact hlt.ne heq'
  · obtain hlt' | ⟨-, hlt'⟩ := h
    · exact hlt'.ne heq
    · exact lt_asymm hlt hlt'

/-- What the final sort compares, with the place: no two records of a ledger are alike. -/
def key (p : Placed) : Stringᵒᵈ ×ₗ (String ×ₗ ℕ) :=
  toLex (OrderDual.toDual p.fst.ts, toLex (p.fst.familyId, p.snd))

/-- The newest first, then by family, then by place. -/
def Precedes (p q : Placed) : Prop := key p ≤ key q

instance : DecidableRel Precedes := fun p q => inferInstanceAs (Decidable (key p ≤ key q))

instance : Std.Total Precedes := ⟨fun p q => le_total (key p) (key q)⟩

instance : IsTrans Placed Precedes := ⟨fun _ _ _ hpq hqr => le_trans hpq hqr⟩

theorem precedes_iff : Precedes p q ↔ q.fst.ts < p.fst.ts
    ∨ (p.fst.ts = q.fst.ts ∧ (p.fst.familyId < q.fst.familyId
      ∨ (p.fst.familyId = q.fst.familyId ∧ p.snd ≤ q.snd))) := by
  unfold Precedes key
  rw [Prod.Lex.toLex_le_toLex, Prod.Lex.toLex_le_toLex, OrderDual.toDual_lt_toDual,
    OrderDual.toDual_inj]

theorem Precedes.before (h : Precedes p q) : Before p.fst q.fst := by
  obtain hlt | ⟨heq, hfamily | ⟨hfamily, -⟩⟩ := precedes_iff.mp h
  · exact Or.inl hlt
  · exact Or.inr ⟨heq, hfamily.le⟩
  · exact Or.inr ⟨heq, hfamily.le⟩

theorem precedes_of_before (h : Before p.fst q.fst) (hplace : p.snd < q.snd) :
    Precedes p q := by
  rw [precedes_iff]
  obtain hlt | ⟨heq, hfamily⟩ := h
  · exact Or.inl hlt
  · obtain hlt | hsame := hfamily.lt_or_eq
    · exact Or.inr ⟨heq, Or.inl hlt⟩
    · exact Or.inr ⟨heq, Or.inr ⟨hsame, hplace.le⟩⟩

/-- The places go up, as they do in a ledger and in any part of one. -/
def InPlace (left : List Placed) : Prop := left.Pairwise fun p q => p.snd < q.snd

theorem inPlace_zipIdx (rs : List Record) : InPlace rs.zipIdx := by
  have hplaces : (rs.zipIdx.map Prod.snd).Pairwise (· < ·) := by
    rw [List.zipIdx_map_snd]
    exact List.pairwise_lt_range'
  exact List.pairwise_map.mp hplaces

theorem InPlace.filter (h : InPlace left) (f : Placed → Bool) : InPlace (left.filter f) :=
  List.Pairwise.filter f h

theorem InPlace.nodup (h : InPlace left) : left.Nodup :=
  h.imp fun hlt heq => hlt.ne (congrArg Prod.snd heq)

theorem InPlace.eq_of_snd (h : InPlace left) (hp : p ∈ left) (hq : q ∈ left)
    (heq : p.snd = q.snd) : p = q := by
  have hnodup : (left.map Prod.snd).Nodup :=
    List.pairwise_map.mpr (h.imp fun hlt => hlt.ne)
  exact List.inj_on_of_nodup_map hnodup hp hq heq

end Places

/-! ## A family, newest first -/

section Families

variable {left : List Placed} {p q : Placed} {n : ℕ} {id : String}

/-- The records of a family, newest first. -/
def ofFamily (left : List Placed) (id : String) : List Placed :=
  (left.filter fun p => decide (p.fst.familyId = id)).insertionSort fun p q =>
    Newer p.fst q.fst

theorem ofFamily_perm (left : List Placed) (id : String) :
    (ofFamily left id).Perm (left.filter fun p => decide (p.fst.familyId = id)) :=
  List.perm_insertionSort _ _

theorem mem_ofFamily : p ∈ ofFamily left id ↔ p ∈ left ∧ p.fst.familyId = id := by
  rw [(ofFamily_perm left id).mem_iff, List.mem_filter, decide_eq_true_eq]

/-- Of two records the upper one of a family is ahead unless the other is newer. -/
theorem newer_iff_precedes (hplace : p.snd < q.snd)
    (hfamily : p.fst.familyId = q.fst.familyId) : Newer p.fst q.fst ↔ Precedes p q := by
  rw [precedes_iff, Newer, le_iff_lt_or_eq]
  constructor
  · rintro (hlt | heq)
    · exact Or.inl hlt
    · exact Or.inr ⟨heq.symm, Or.inr ⟨hfamily, hplace.le⟩⟩
  · rintro (hlt | ⟨heq, -⟩)
    · exact Or.inl hlt
    · exact Or.inr heq.symm

/-- **Newest first, and as they were.** In a family one record stands before another
exactly if it is ahead of it. -/
theorem pairwise_ofFamily (h : InPlace left) (id : String) :
    (ofFamily left id).Pairwise Ahead := by
  have hsort : ofFamily left id
      = (left.filter fun p => decide (p.fst.familyId = id)).insertionSort Precedes :=
    insertionSort_congr ((h.filter _).imp_of_mem fun hp hq hplace =>
      newer_iff_precedes hplace ((of_decide_eq_true (List.mem_filter.mp hp).right).trans
        (of_decide_eq_true (List.mem_filter.mp hq).right).symm))
  have hnodup : (ofFamily left id).Nodup :=
    (ofFamily_perm left id).nodup_iff.mpr (h.filter _).nodup
  have hsorted : (ofFamily left id).Pairwise Precedes := by
    rw [hsort]
    exact List.pairwise_insertionSort Precedes _
  refine (hsorted.and hnodup).imp_of_mem fun {p q} hp hq hpq => ?_
  obtain ⟨hpq, hne⟩ := hpq
  obtain hlt | ⟨heq, hlt | ⟨-, hle⟩⟩ := precedes_iff.mp hpq
  · exact Or.inl hlt
  · exact absurd hlt (by rw [(mem_ofFamily.mp hp).right, (mem_ofFamily.mp hq).right]
                         exact lt_irrefl id)
  · refine Or.inr ⟨heq, hle.lt_of_ne fun hsnd => hne ?_⟩
    exact h.eq_of_snd (mem_ofFamily.mp hp).left (mem_ofFamily.mp hq).left hsnd

/-- The rank counts who stands before. -/
theorem rank_filter (left : List Placed) (f : Placed → Bool) (p : Placed) :
    rank (left.filter f) p
      = (ofFamily left p.fst.familyId).countP fun q => f q && decide (Ahead q p) := by
  rw [(ofFamily_perm left p.fst.familyId).countP_eq, rank, List.countP_filter,
    List.countP_filter]
  refine List.countP_congr fun q _ => ?_
  simp only [Bool.and_eq_true]
  tauto

theorem rank_eq (left : List Placed) (p : Placed) :
    rank left p
      = (ofFamily left p.fst.familyId).countP fun q => decide (Ahead q p) := by
  have h := rank_filter left (fun _ => true) p
  simpa using h

/-- Who is among the newest stands among the first of its family. -/
theorem mem_newest (h : InPlace left) : p ∈ newest n left
    ↔ p ∈ left ∧ p ∈ (ofFamily left p.fst.familyId).take n := by
  unfold newest
  rw [List.mem_filter, decide_eq_true_eq, rank_eq]
  refine and_congr_right fun hp => ?_
  exact (mem_take_iff (fun _ _ hpq => hpq.asymm) (pairwise_ofFamily h _)
    (mem_ofFamily.mpr ⟨hp, rfl⟩)).symm

/-- **A further filter changes nothing that it lets through.** If it lets all of the newest
through, they are the newest of what it leaves. -/
theorem newest_filter (h : InPlace left) {f : Placed → Bool}
    (hall : ∀ p ∈ newest n left, f p = true) :
    newest n (left.filter f) = newest n left := by
  unfold newest
  rw [List.filter_filter]
  refine List.filter_congr fun p hp => ?_
  have hrank : rank (left.filter f) p ≤ rank left p := by
    unfold rank
    exact List.filter_sublist.countP_le
  rw [Bool.eq_iff_iff, Bool.and_eq_true, decide_eq_true_eq, decide_eq_true_eq]
  constructor
  · rintro ⟨hlt, -⟩
    by_contra hnot
    have hnewest : p ∉ newest n left := fun hmem =>
      hnot (of_decide_eq_true (List.mem_filter.mp hmem).right)
    have htake : p ∉ (ofFamily left p.fst.familyId).take n := fun hmem =>
      hnewest ((mem_newest h).mpr ⟨hp, hmem⟩)
    refine absurd hlt (not_lt.mpr ?_)
    rw [rank_filter]
    refine le_countP_of_not_mem_take (pairwise_ofFamily h _) (mem_ofFamily.mpr ⟨hp, rfl⟩)
      htake fun q hq => hall q ?_
    obtain ⟨hmem, hfamily⟩ := mem_ofFamily.mp (List.mem_of_mem_take hq)
    rw [mem_newest h, hfamily]
    exact ⟨hmem, hq⟩
  · intro hlt
    exact ⟨hrank.trans_lt hlt,
      hall p (List.mem_filter.mpr ⟨hp, decide_eq_true hlt⟩)⟩

end Families

/-! ## Keeping the last of each family -/

section KeepLast

variable {left : List Placed} {p q : Placed} {n : ℕ}

/-- The families of some records, in their order. -/
def families (left : List Placed) : List String :=
  ((left.map Prod.fst).map Record.familyId).dedup.insertionSort fun a b => a ≤ b

theorem mem_families {id : String} :
    id ∈ families left ↔ ∃ p ∈ left, p.fst.familyId = id := by
  simp [families, List.mem_insertionSort]

theorem pairwise_families (left : List Placed) : (families left).Pairwise (· < ·) := by
  have hnodup : (families left).Nodup :=
    (List.perm_insertionSort _ _).nodup_iff.mpr (List.nodup_dedup _)
  exact ((List.pairwise_insertionSort (· ≤ ·) _).and hnodup).imp fun h =>
    h.left.lt_of_ne h.right

/-- The newest of each family, one family after the other. -/
def grouped (n : ℕ) (left : List Placed) : List Placed :=
  (families left).flatMap fun id => (ofFamily left id).take n

theorem keepLastPerFamily_eq (left : List Placed) (n : ℕ) :
    keepLastPerFamily (left.map Prod.fst) n
      = ((grouped n left).insertionSort fun p q => Newer p.fst q.fst).map Prod.fst := by
  have hfamily (id : String) :
      newestFirst ((left.map Prod.fst).filter fun r => decide (r.familyId = id))
        = (ofFamily left id).map Prod.fst := by
    unfold ofFamily newestFirst
    rw [List.filter_map, List.map_insertionSort _ Newer Prod.fst _ fun _ _ _ _ => Iff.rfl]
    rfl
  unfold keepLastPerFamily grouped
  rw [List.map_insertionSort _ Newer Prod.fst _ fun _ _ _ _ => Iff.rfl, List.map_flatMap]
  simp only [hfamily, List.map_take]
  rfl

theorem mem_grouped (h : InPlace left) : p ∈ grouped n left ↔ p ∈ newest n left := by
  unfold grouped
  rw [mem_newest h, List.mem_flatMap]
  constructor
  · rintro ⟨id, -, hp⟩
    obtain ⟨hmem, rfl⟩ := mem_ofFamily.mp (List.mem_of_mem_take hp)
    exact ⟨hmem, hp⟩
  · rintro ⟨hmem, hp⟩
    exact ⟨p.fst.familyId, mem_families.mpr ⟨p, hmem, rfl⟩, hp⟩

/-- Before the final sort a record stands before those of later families, and before those
of its own that it is ahead of. -/
theorem pairwise_grouped (h : InPlace left) (n : ℕ) :
    (grouped n left).Pairwise fun p q => p.fst.familyId < q.fst.familyId
      ∨ (p.fst.familyId = q.fst.familyId ∧ Ahead p q) := by
  unfold grouped
  rw [List.pairwise_flatMap]
  constructor
  · intro id _
    refine ((pairwise_ofFamily h id).sublist (List.take_sublist n _)).imp_of_mem
      fun hp hq hpq => Or.inr ⟨?_, hpq⟩
    exact (mem_ofFamily.mp (List.mem_of_mem_take hp)).right.trans
      (mem_ofFamily.mp (List.mem_of_mem_take hq)).right.symm
  · refine (pairwise_families left).imp fun hlt p hp q hq => Or.inl ?_
    rwa [(mem_ofFamily.mp (List.mem_of_mem_take hp)).right,
      (mem_ofFamily.mp (List.mem_of_mem_take hq)).right]

/-- The final sort is by family too, and then by place. -/
theorem insertionSort_grouped (h : InPlace left) (n : ℕ) :
    (grouped n left).insertionSort (fun p q => Newer p.fst q.fst)
      = (grouped n left).insertionSort Precedes := by
  refine insertionSort_congr ((pairwise_grouped h n).imp fun {p q} hpq => ?_)
  rw [precedes_iff, Newer, le_iff_lt_or_eq]
  constructor
  · rintro (hlt | heq)
    · exact Or.inl hlt
    · refine Or.inr ⟨heq.symm, hpq.imp_right fun hsame => ⟨hsame.left, ?_⟩⟩
      obtain hlt | ⟨-, hlt⟩ := hsame.right
      · exact absurd heq hlt.ne
      · exact hlt.le
  · rintro (hlt | ⟨heq, -⟩)
    · exact Or.inl hlt
    · exact Or.inr heq.symm

/-- What is kept are the newest of each family. -/
theorem grouped_perm (h : InPlace left) (n : ℕ) :
    (grouped n left).Perm (newest n left) := by
  have hnodup : (grouped n left).Nodup := (pairwise_grouped h n).imp fun hpq heq => by
    subst heq
    obtain hlt | ⟨-, hahead⟩ := hpq
    · exact lt_irrefl _ hlt
    · exact hahead.asymm hahead
  exact (List.perm_ext_iff_of_nodup hnodup (h.filter _).nodup).mpr fun p => mem_grouped h

/-- **The newest of each family are kept**, in whatever order. -/
theorem keepLastPerFamily_perm (h : InPlace left) (n : ℕ) :
    (keepLastPerFamily (left.map Prod.fst) n).Perm ((newest n left).map Prod.fst) := by
  rw [keepLastPerFamily_eq]
  exact ((List.perm_insertionSort _ _).trans (grouped_perm h n)).map Prod.fst

/-- **They are kept in their order exactly if they are newest first already.** -/
theorem keepLastPerFamily_eq_iff (h : InPlace left) (n : ℕ) :
    keepLastPerFamily (left.map Prod.fst) n = (newest n left).map Prod.fst
      ↔ ((newest n left).map Prod.fst).Pairwise Before := by
  rw [keepLastPerFamily_eq, insertionSort_grouped h]
  have hsorted := List.pairwise_insertionSort Precedes (grouped n left)
  constructor
  · intro heq
    rw [← heq]
    exact List.pairwise_map.mpr (hsorted.imp Precedes.before)
  · intro hbefore
    have hprecedes : (newest n left).Pairwise Precedes :=
      ((List.pairwise_map.mp hbefore).and (h.filter _)).imp fun hpq =>
        precedes_of_before hpq.left hpq.right
    have hperm := (List.perm_insertionSort Precedes (grouped n left)).trans (grouped_perm h n)
    rw [hperm.eq_of_pairwise (fun p q hp hq hpq hqp => ?_) hsorted hprecedes]
    have hkey : key p = key q := le_antisymm hpq hqp
    exact h.eq_of_snd (List.mem_of_mem_filter (hperm.mem_iff.mp hp))
      (List.mem_of_mem_filter hq) (congrArg (fun k => (ofLex (ofLex k).snd).snd) hkey)

end KeepLast

/-! ## The options together -/

section Options

variable {rs : List Record} {before beforeSha : Option String} {keepLast : Option ℕ}

/-- No option on revisions is given, or the record has one. -/
def shaSeen (beforeSha : Option String) (r : Record) : Bool :=
  beforeSha.isNone || r.stacksCoreSha.isSome

/-- The program asks for a revision where the documentation does not. -/
theorem ofOtherSha_eq (beforeSha : Option String) (r : Record) :
    Filter.ofOtherSha beforeSha r = (notOfSha beforeSha r && shaSeen beforeSha r) := by
  unfold Filter.ofOtherSha notOfSha shaSeen
  cases beforeSha with
  | none => rfl
  | some sha => cases r.stacksCoreSha <;> simp

/-- The records that the first two options leave. -/
theorem filter_filter_eq (before beforeSha : Option String) (rs : List Record) :
    (rs.filter (Filter.fromDate before)).filter (Filter.ofOtherSha beforeSha)
      = ((spared before beforeSha rs).filter fun p => shaSeen beforeSha p.fst).map
        Prod.fst := by
  conv_lhs => rw [← List.zipIdx_map_fst 0 rs]
  rw [List.filter_map, List.filter_map, List.filter_filter, spared, List.filter_filter]
  refine congrArg (List.map Prod.fst) (List.filter_congr fun p _ => ?_)
  rw [Function.comp_apply, Function.comp_apply, ofOtherSha_eq, Bool.and_comm,
    ← Bool.and_assoc, Bool.and_comm]

/-- The command, when nobody else is at the ledger: what the options drop is counted first,
and is asked for unless it was confirmed. -/
def trim (c : Codec) (before beforeSha : Option String) (keepLast : Option ℕ) (yes : Bool)
    (file : Option RawText) : Fallible Unit × Option RawText :=
  if before = none ∧ beforeSha = none ∧ keepLast = none then
    (bail "trim requires at least one of `--before`, `--before-sha`, `--keep-last`", file)
  else
    match loadAllLocked c file with
    | Except.error e => (Except.error e, file)
    | Except.ok rs =>
      let after := (Filter.trim before beforeSha keepLast).apply rs
      -- nothing is written when nothing is dropped, whatever the order would be
      if rs.length - after.length = 0 then (Except.ok (), file)
      else if yes = false then (bail "trim aborted (no --yes)", file)
      else
        match writeRecords c after with
        | (Except.error e, _) =>
          (Fallible.context (Except.error e) "rewriting ledger after trim", file)
        | (Except.ok (), text) => ((loadAllLocked c (some text)).map fun _ => (), some text)

theorem inPlace_spared (before beforeSha : Option String) (rs : List Record) :
    InPlace (spared before beforeSha rs) := (inPlace_zipIdx rs).filter _

/-- A filter lets everything through exactly if what it lets through is everything. -/
theorem map_filter_eq_iff {α β : Type} {l : List α} {f : α → Bool} {g : α → β} :
    (l.filter f).map g = l.map g ↔ ∀ a ∈ l, f a = true := by
  rw [← List.filter_eq_self]
  constructor
  · intro h
    have hlen := congrArg List.length h
    rw [List.length_map, List.length_map] at hlen
    exact List.filter_sublist.eq_of_length hlen
  · intro h
    rw [h]

/-- The option on revisions drops none of the records that are to be kept. -/
def ShaKept (before beforeSha : Option String) (keepLast : Option ℕ) (rs : List Record) :
    Prop :=
  beforeSha ≠ none → ∀ r ∈ documented before beforeSha keepLast rs, r.stacksCoreSha ≠ none

/-- When the options do what they are documented to do: of the records that are to be kept
none lacks a revision, where one is given to `--before-sha`; and where a number is given to
`--keep-last` and some records are to be dropped, those that are to be kept are newest first,
those of one time by family. -/
structure TrimsAsDocumented (before beforeSha : Option String) (keepLast : Option ℕ)
    (rs : List Record) : Prop where
  sha : ShaKept before beforeSha keepLast rs
  order : keepLast ≠ none → (documented before beforeSha keepLast rs).length < rs.length →
    (documented before beforeSha keepLast rs).Pairwise Before

theorem shaSeen_iff {r : Record} :
    shaSeen beforeSha r = true ↔ (beforeSha ≠ none → r.stacksCoreSha ≠ none) := by
  unfold shaSeen
  cases beforeSha <;> simp [Option.isSome_iff_ne_none]

/-- What is to be kept, with the places. -/
def documentedAt (before beforeSha : Option String) (keepLast : Option ℕ)
    (rs : List Record) : List Placed :=
  match keepLast with
  | none => spared before beforeSha rs
  | some n => newest n (spared before beforeSha rs)

theorem documented_eq (before beforeSha : Option String) (keepLast : Option ℕ)
    (rs : List Record) : documented before beforeSha keepLast rs
      = (documentedAt before beforeSha keepLast rs).map Prod.fst := by
  cases keepLast <;> rfl

theorem shaKept_iff : ShaKept before beforeSha keepLast rs
    ↔ ∀ p ∈ documentedAt before beforeSha keepLast rs, shaSeen beforeSha p.fst = true := by
  unfold ShaKept
  rw [documented_eq]
  simp only [shaSeen_iff, List.forall_mem_map]
  exact ⟨fun h p hp hsha => h hsha p hp, fun h hsha p hp => h p hp hsha⟩

/-- What is to be kept stands in the ledger, in this order. -/
theorem documented_sublist : (documented before beforeSha keepLast rs).Sublist rs := by
  have hspared : (spared before beforeSha rs).Sublist rs.zipIdx := List.filter_sublist
  have hat : (documentedAt before beforeSha keepLast rs).Sublist rs.zipIdx := by
    cases keepLast with
    | none => exact hspared
    | some n => exact List.filter_sublist.trans hspared
  rw [documented_eq]
  have h := hat.map Prod.fst
  rwa [List.zipIdx_map_fst] at h

/-- Whatever is left has a revision, where one is given. -/
theorem shaSeen_of_mem_apply {r : Record}
    (h : r ∈ (Filter.trim before beforeSha keepLast).apply rs) :
    shaSeen beforeSha r = true := by
  have hseen (hr : r ∈ (rs.filter (Filter.fromDate before)).filter
      (Filter.ofOtherSha beforeSha)) : shaSeen beforeSha r = true := by
    have hother := (List.mem_filter.mp hr).right
    rw [ofOtherSha_eq, Bool.and_eq_true] at hother
    exact hother.right
  cases keepLast with
  | none => exact hseen h
  | some n =>
    change r ∈ keepLastPerFamily _ n at h
    rw [filter_filter_eq, (keepLastPerFamily_perm ((inPlace_spared _ _ _).filter _) n).mem_iff]
      at h
    refine hseen ?_
    rw [filter_filter_eq]
    exact (List.filter_sublist.map Prod.fst).subset h

/-- **The documented records are kept, in whatever order**, exactly if none of them lacks a
revision that is asked for. -/
theorem apply_perm_iff : ((Filter.trim before beforeSha keepLast).apply rs).Perm
      (documented before beforeSha keepLast rs)
    ↔ ShaKept before beforeSha keepLast rs := by
  have hplace := inPlace_spared before beforeSha rs
  constructor
  · intro hperm hsha r hr
    exact shaSeen_iff.mp (shaSeen_of_mem_apply (hperm.mem_iff.mpr hr)) hsha
  · intro h
    cases keepLast with
    | none =>
      have hall : ∀ p ∈ spared before beforeSha rs, _ := shaKept_iff.mp h
      show ((rs.filter _).filter _).Perm ((spared before beforeSha rs).map Prod.fst)
      rw [filter_filter_eq, map_filter_eq_iff.mpr hall]
    | some n =>
      have hall : ∀ p ∈ newest n (spared before beforeSha rs), _ := shaKept_iff.mp h
      show (keepLastPerFamily ((rs.filter _).filter _) n).Perm _
      rw [filter_filter_eq, documented_eq]
      have hperm := keepLastPerFamily_perm (hplace.filter fun p => shaSeen beforeSha p.fst) n
      rwa [newest_filter hplace hall] at hperm

/-- **They are kept in their order**, exactly if they are newest first already where a number
is given. -/
theorem apply_eq_iff (hsha : ShaKept before beforeSha keepLast rs) :
    (Filter.trim before beforeSha keepLast).apply rs
        = documented before beforeSha keepLast rs
      ↔ (keepLast ≠ none → (documented before beforeSha keepLast rs).Pairwise Before) := by
  have hplace := inPlace_spared before beforeSha rs
  cases keepLast with
  | none =>
    have hall : ∀ p ∈ spared before beforeSha rs, _ := shaKept_iff.mp hsha
    refine iff_of_true ?_ fun h => absurd rfl h
    show (rs.filter _).filter _ = (spared before beforeSha rs).map Prod.fst
    rw [filter_filter_eq, map_filter_eq_iff.mpr hall]
  | some n =>
    have hall : ∀ p ∈ newest n (spared before beforeSha rs), _ := shaKept_iff.mp hsha
    show keepLastPerFamily ((rs.filter _).filter _) n
      = (newest n (spared before beforeSha rs)).map Prod.fst ↔ _
    rw [filter_filter_eq, ← newest_filter hplace hall,
      keepLastPerFamily_eq_iff (hplace.filter _), newest_filter hplace hall]
    exact ⟨fun h _ => h, fun h => h (Option.some_ne_none n)⟩

end Options

/-! ## The command -/

section Command

variable {c : Codec} {rs : List Record} {before beforeSha : Option String}
  {keepLast : Option ℕ} {yes : Bool} {file file' : Option RawText} {raw : RawText}

/-- What is left of some records are some of them. -/
theorem apply_subperm (f : Filter) (rs : List Record) : (f.apply rs).Subperm rs := by
  cases f with
  | removeFamily id => exact List.filter_sublist.subperm
  | removeFingerprint fp => exact List.filter_sublist.subperm
  | trim before beforeSha keepLast =>
    have hfilter : ((rs.filter (Filter.fromDate before)).filter
        (Filter.ofOtherSha beforeSha)).Subperm rs :=
      (List.filter_sublist.trans List.filter_sublist).subperm
    cases keepLast with
    | none => exact hfilter
    | some n =>
      refine List.Subperm.trans ?_ hfilter
      show (keepLastPerFamily _ n).Subperm _
      rw [filter_filter_eq]
      exact (keepLastPerFamily_perm ((inPlace_spared _ _ _).filter _) n).subperm.trans
        (List.filter_sublist.map Prod.fst).subperm

/-- Records that were written are read again, in their order. -/
theorem records_of_writeRecords (hc : c.Faithful)
    (h : writeRecords c rs = (Except.ok (), raw)) : records c.read raw = rs := by
  obtain ⟨texts, htexts, rfl⟩ := writeRecords_ok hc h
  exact records_render htexts

/-- Records that can be written one by one can be written together. -/
theorem writeRecords_returns (h : ∀ r ∈ rs, ∃ text, c.toJson r = Except.ok text) :
    ∃ text, writeRecords c rs = (Except.ok (), text) := by
  have hwrite : ∀ r ∈ rs, c.toJson r = Except.ok ((c.toJson r).toOption.getD "") := by
    intro r hr
    obtain ⟨text, htext⟩ := h r hr
    rw [htext]
    rfl
  exact ⟨_, writeRecords_eq hwrite⟩

/-- What was written can be loaded. -/
theorem load_of_writeRecords (hc : c.Faithful)
    (h : writeRecords c rs = (Except.ok (), raw)) :
    loadAllLocked c (some raw) = Except.ok rs := by
  obtain ⟨texts, htexts, rfl⟩ := writeRecords_ok hc h
  rw [loadAllLocked_render fun t ht => (isLine_of_writes htexts t ht).left,
    records_render htexts]

/-- **What a trim does that returns**: nothing, when it drops nothing, or it writes what the
options leave. -/
theorem trim_cases (hload : loadAllLocked c file = Except.ok rs)
    (h : trim c before beforeSha keepLast yes file = (Except.ok (), file')) :
    (((Filter.trim before beforeSha keepLast).apply rs).length = rs.length ∧ file' = file)
    ∨ (((Filter.trim before beforeSha keepLast).apply rs).length < rs.length
      ∧ ∃ text, writeRecords c ((Filter.trim before beforeSha keepLast).apply rs)
          = (Except.ok (), text) ∧ file' = some text) := by
  have hle := (apply_subperm (Filter.trim before beforeSha keepLast) rs).length_le
  unfold trim at h
  rw [hload] at h
  by_cases hnone : before = none ∧ beforeSha = none ∧ keepLast = none
  · rw [if_pos hnone] at h
    cases congrArg Prod.fst h
  · rw [if_neg hnone] at h
    dsimp only at h
    split_ifs at h with hdrops hyes
    · exact Or.inl ⟨le_antisymm hle (Nat.sub_eq_zero_iff_le.mp hdrops),
        (congrArg Prod.snd h).symm⟩
    · cases congrArg Prod.fst h
    · refine Or.inr ⟨Nat.lt_of_sub_ne_zero hdrops, ?_⟩
      split at h
      case h_1 => cases congrArg Prod.fst h
      case h_2 text hwrite => exact ⟨text, hwrite, (congrArg Prod.snd h).symm⟩

/-- A trim that drops records and was confirmed writes what is left. -/
theorem trim_eq (hc : c.Faithful) (hload : loadAllLocked c file = Except.ok rs)
    (hchosen : ¬ (before = none ∧ beforeSha = none ∧ keepLast = none))
    (hdrops : ((Filter.trim before beforeSha keepLast).apply rs).length < rs.length)
    (hwrite : writeRecords c ((Filter.trim before beforeSha keepLast).apply rs)
      = (Except.ok (), raw)) :
    trim c before beforeSha keepLast true file = (Except.ok (), some raw) := by
  unfold trim
  rw [if_neg hchosen, hload]
  dsimp only
  rw [if_neg (Nat.sub_ne_zero_of_lt hdrops), if_neg Bool.noConfusion, hwrite]
  dsimp only
  rw [load_of_writeRecords hc hwrite]
  rfl

/-- A trim that was confirmed returns, if what is read can be written. -/
theorem trim_returns (hc : c.Faithful) (hload : loadAllLocked c file = Except.ok rs)
    (hwrite : ∀ r ∈ rs, ∃ text, c.toJson r = Except.ok text)
    (hchosen : ¬ (before = none ∧ beforeSha = none ∧ keepLast = none)) :
    ∃ file', trim c before beforeSha keepLast true file = (Except.ok (), file') := by
  have hsub := apply_subperm (Filter.trim before beforeSha keepLast) rs
  obtain heq | hlt := hsub.length_le.eq_or_lt
  · unfold trim
    rw [if_neg hchosen, hload]
    dsimp only
    rw [heq, Nat.sub_self]
    exact ⟨file, rfl⟩
  · obtain ⟨text, htext⟩ := writeRecords_returns fun r hr => hwrite r (hsub.subset hr)
    exact ⟨_, trim_eq hc hload hchosen hlt htext⟩

/-- **The rule of trimming.** A trim that returns has kept the documented records, and the
ledger holds them in the order in which they were, exactly if none of them lacks a revision
that is asked for, and they are newest first where a number is given and some records are to
be dropped. And a trim that was confirmed does return. -/
theorem trim_law_iff (hc : c.Faithful) (hload : loadAllLocked c file = Except.ok rs)
    (before beforeSha : Option String) (keepLast : Option ℕ) :
    (∀ yes file', trim c before beforeSha keepLast yes file = (Except.ok (), file') →
      ((((Filter.trim before beforeSha keepLast).apply rs).Perm
          (documented before beforeSha keepLast rs)
        ∧ records c.read (file'.getD []) = documented before beforeSha keepLast rs)
      ↔ TrimsAsDocumented before beforeSha keepLast rs))
    ∧ ((∀ r ∈ rs, ∃ text, c.toJson r = Except.ok text) →
      ¬ (before = none ∧ beforeSha = none ∧ keepLast = none) →
      ∃ file', trim c before beforeSha keepLast true file = (Except.ok (), file')) := by
  refine ⟨fun yes file' h => ?_, trim_returns hc hload⟩
  have hsub : (documented before beforeSha keepLast rs).Sublist rs := documented_sublist
  rw [apply_perm_iff]
  obtain ⟨hkept, rfl⟩ | ⟨hdrops, text, hwrite, rfl⟩ := trim_cases hload h
  · rw [← loadAllLocked_ok hload]
    constructor
    · rintro ⟨hsha, heq⟩
      exact ⟨hsha, fun _ hlt => absurd (congrArg List.length heq) hlt.ne'⟩
    · rintro ⟨hsha, -⟩
      -- as many records are to be kept as there are, so they are all to be kept
      have hlength := (apply_perm_iff.mpr hsha).length_eq.symm.trans hkept
      exact ⟨hsha, (hsub.eq_of_length hlength).symm⟩
  · rw [Option.getD_some, records_of_writeRecords hc hwrite]
    constructor
    · rintro ⟨hsha, heq⟩
      exact ⟨hsha, fun hlast _ => (apply_eq_iff hsha).mp heq hlast⟩
    · rintro ⟨hsha, horder⟩
      have hlength := (apply_perm_iff.mpr hsha).length_eq
      exact ⟨hsha, (apply_eq_iff hsha).mpr fun hlast => horder hlast (hlength ▸ hdrops)⟩

end Command

/-! ### Four records -/

/-- The family of the map once more, of a revision that was noted. -/
def slowMapLast : Record := ruledOut "slow-map" "2026-06-16T12:00:00Z" (some "0a1b2c3d")

/-- Three records of one family and one of another, oldest first. -/
def oldestFirst : List Record := [slowMap, slowMapAgain, hotLoop, slowMapLast]

/-- How they are written and read. -/
def fourCodec : Codec := tableCodec oldestFirst ruledOutText

theorem four_tabled : Tabled oldestFirst ruledOutText :=
  ruledOut_tabled (n := 20) (by decide) (by decide)

theorem fourCodec_faithful : fourCodec.Faithful := tableCodec_faithful four_tabled

section Four

variable {rs : List Record}

theorem load_four (h : ∀ r ∈ rs, r ∈ oldestFirst) :
    loadAllLocked fourCodec (some (render (rs.map ruledOutText))) = Except.ok rs := by
  have hwrites := tableCodec_records four_tabled h
  rw [loadAllLocked_render fun t ht => (isLine_of_writes hwrites t ht).left]
  exact congrArg Except.ok (records_render hwrites)

/-- What the options leave of them is what the ledger holds then. -/
theorem trim_four (h : ∀ r ∈ rs, r ∈ oldestFirst) (before beforeSha : Option String)
    (keepLast : Option ℕ)
    (hchosen : ¬ (before = none ∧ beforeSha = none ∧ keepLast = none))
    (hdrops : ((Filter.trim before beforeSha keepLast).apply rs).length < rs.length) :
    trim fourCodec before beforeSha keepLast true (some (render (rs.map ruledOutText)))
      = (Except.ok (), some (render
          (((Filter.trim before beforeSha keepLast).apply rs).map ruledOutText))) :=
  trim_eq fourCodec_faithful (load_four h) hchosen hdrops <| writeRecords_eq
    (tableCodec_toJson fun r hr => h r ((apply_subperm _ rs).subset hr))

theorem records_four (h : ∀ r ∈ rs, r ∈ oldestFirst) :
    records fourCodec.read (render (rs.map ruledOutText)) = rs :=
  records_render (tableCodec_records four_tabled h)

end Four

/-- Newest first, and trimmed to the last of each family of the last days. -/
theorem trim_law_iff_newestFirst :
    trim fourCodec (some "2026-06-14") none (some 1) true
        (some (render (oldestFirst.reverse.map ruledOutText)))
      = (Except.ok (), some (render ([slowMapLast, hotLoop].map ruledOutText)))
    ∧ records fourCodec.read (render ([slowMapLast, hotLoop].map ruledOutText))
      = documented (some "2026-06-14") none (some 1) oldestFirst.reverse := by
  have hmem : ∀ r ∈ oldestFirst.reverse, r ∈ oldestFirst := fun r hr => List.mem_reverse.mp hr
  have hleft : (Filter.trim (some "2026-06-14") none (some 1)).apply oldestFirst.reverse
      = [slowMapLast, hotLoop] := by decide +kernel
  have htrim := trim_four hmem (some "2026-06-14") none (some 1) (by decide)
    (by rw [hleft]; decide)
  rw [hleft] at htrim
  have hbefore : (documented (some "2026-06-14") none (some 1) oldestFirst.reverse).Pairwise
      Before := by decide +kernel
  have hlaw := (trim_law_iff fourCodec_faithful (load_four hmem) (some "2026-06-14") none
    (some 1)).left true _ htrim
  rw [Option.getD_some] at hlaw
  exact ⟨htrim, (hlaw.mpr ⟨fun h => absurd rfl h, fun _ _ => hbefore⟩).right⟩

/-- **Neither half of the rule is followed.** A record without a revision is dropped for its
revision; and of three records of a family, oldest first, of which the first is dropped, the
last is put before the other one. -/
theorem not_trim_law :
    (¬ ∀ (c : Codec) (before beforeSha : Option String) (keepLast : Option ℕ)
        (file file' : Option RawText) (rs : List Record), c.Faithful →
      loadAllLocked c file = Except.ok rs →
      trim c before beforeSha keepLast true file = (Except.ok (), file') →
      ((Filter.trim before beforeSha keepLast).apply rs).Perm
        (documented before beforeSha keepLast rs))
    ∧ ¬ ∀ (c : Codec) (before beforeSha : Option String) (keepLast : Option ℕ)
        (file file' : Option RawText) (rs : List Record), c.Faithful →
      loadAllLocked c file = Except.ok rs →
      trim c before beforeSha keepLast true file = (Except.ok (), file') →
      records c.read (file'.getD []) = documented before beforeSha keepLast rs := by
  constructor
  · intro h
    have hmem : ∀ r ∈ [slowMap], r ∈ oldestFirst := by decide
    have htrim := trim_four hmem none (some "0a1b2c") none (by decide) (by decide +kernel)
    have hlen := (h _ _ _ _ _ _ _ fourCodec_faithful (load_four hmem) htrim).length_eq
    revert hlen
    decide +kernel
  · intro h
    have hmem : ∀ r ∈ [slowMap, slowMapAgain, slowMapLast], r ∈ oldestFirst := by decide
    have hleft : (Filter.trim none none (some 2)).apply [slowMap, slowMapAgain, slowMapLast]
        = [slowMapLast, slowMapAgain] := by decide +kernel
    have htrim := trim_four hmem none none (some 2) (by decide) (by rw [hleft]; decide)
    have heq := h _ _ _ _ _ _ _ fourCodec_faithful (load_four hmem) htrim
    rw [hleft, Option.getD_some, records_four (by decide)] at heq
    revert heq
    decide +kernel

end Rejections
