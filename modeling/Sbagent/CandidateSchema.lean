import Sbagent.PhaseOutputs
import Sbagent.SchemaRules

/-!
# The schema of the candidates

What represents a family is written in the shape of its kind, but which shape it is in is
not written down: the shapes are told apart by their fields, and the first one that takes
all of them is read. The kind stands beside it, so that the two may disagree. The validator
compares the kind with the shape that was read, and the schema compares it with the fields
that are there.

The order of the shapes and the fields that each of them refuses make the two the same
(`accepts_injectCandidate_iff`): the fields that are there are those of the shape that is
read (`RepresentativeIds.isSome_get_iff`). So what the validator of the whole document asks
for beyond its schema is that the ids are not empty and that the lenses are counted right
(`Candidates.validateModel_iff_accepts`).
-/

open Fallible JsonSchema Json

namespace JsonSchema

/-- One of several schemas at least. -/
def Schema.anyOf (ss : List Schema) : Schema := Schema.not (Schema.all (ss.map Schema.not))

section AnyOf

variable {space : Char → Bool} {s : Schema} {ss : List Schema} {v : Json} {vs : List Json}

theorem accepts_anyOf_iff :
    accepts space (Schema.anyOf ss) v = true ↔ ∃ s ∈ ss, accepts space s v = true := by
  unfold Schema.anyOf
  rw [accepts_not_iff, accepts_all_iff, List.forall_mem_map]
  simp only [accepts_not_iff]
  push Not
  exact Iff.rfl

theorem accepts_itemsOf_iff : accepts space (Schema.items s) (Json.array vs) = true
    ↔ ∀ v ∈ vs, accepts space s v = true :=
  List.all_eq_true

end AnyOf

end JsonSchema

namespace Json

section Untagged

variable {α : Type} {names : List String} {positional : ℕ} {v : Json}
  {get : String → Option Json}

/-- One of several shapes that are told apart by their fields: the first that can be read. -/
def readUntagged (name : String) (shapes : List (Json → Fallible α)) (v : Json) : Fallible α :=
  match shapes.findSome? fun read => (read v).toOption with
  | some a => Except.ok a
  | none => bail s!"data did not match any variant of untagged enum {name}"

/-- The fields of such a shape. They have names, so that an array is none. -/
def untaggedFields (names : List String) (v : Json) : Fallible (String → Option Json) :=
  if v.isObject = true then fields names 0 v else bail "invalid type, expected a struct variant"

theorem readUntagged_ok {name : String} {shapes : List (Json → Fallible α)} {a : α}
    (h : readUntagged name shapes v = Except.ok a) : ∃ read ∈ shapes, read v = Except.ok a := by
  unfold readUntagged at h
  cases hfind : shapes.findSome? fun read => (read v).toOption with
  | none =>
    rw [hfind] at h
    cases h
  | some b =>
    rw [hfind] at h
    obtain rfl := Except.ok.inj h
    obtain ⟨read, hmem, hread⟩ := List.exists_of_findSome?_eq_some hfind
    refine ⟨read, hmem, ?_⟩
    cases hv : read v with
    | error e =>
      rw [hv] at hread
      cases hread
    | ok a =>
      rw [hv] at hread
      exact congrArg Except.ok (Option.some.inj hread)

/-- No field is there that a shape does not know. -/
theorem untaggedFields_ok (h : untaggedFields names v = Except.ok get) :
    v.isObject = true ∧ get = v.get ∧ ∀ name, (v.get name).isSome = true → name ∈ names := by
  unfold untaggedFields at h
  split_ifs at h with hobject
  swap
  · cases h
  refine ⟨hobject, ?_⟩
  cases v with
  | object kvs =>
    unfold fields at h
    dsimp only at h
    cases hfind : kvs.find? fun f => f.fst ∉ names with
    | some f =>
      rw [hfind] at h
      cases h
    | none =>
      rw [hfind] at h
      obtain rfl := Except.ok.inj h
      refine ⟨rfl, fun name hsome => ?_⟩
      obtain ⟨w, hw⟩ := Option.isSome_iff_exists.mp hsome
      obtain ⟨l, l', rfl, -⟩ := List.lookup_eq_some_iff.mp hw
      have hknown := List.find?_eq_none.mp hfind (name, w)
        (List.mem_append_right l List.mem_cons_self)
      simpa using hknown
  | _ => cases hobject

end Untagged

end Json

/-! ## What represents a family -/

def FamilyKind.variants : List (String × FamilyKind) :=
  [("tx_family", txFamily), ("block_family", blockFamily), ("contract_family", contractFamily)]

namespace RepresentativeIds

/-- The function of a contract: issuer, contract and function. -/
def readContractFunction (v : Json) : Fallible (String × String × String) := do
  let get ← fields ["issuer", "contract", "function"] 3 v
  let issuer ← required readString "issuer" get
  let contract ← required readString "contract" get
  let function ← required readString "function" get
  return (issuer, contract, function)

def readContract (v : Json) : Fallible RepresentativeIds := do
  let get ← untaggedFields ["contract_function", "stacks_tx_hashes"] v
  let f ← required readContractFunction "contract_function" get
  let hashes ← required (readArray readString) "stacks_tx_hashes" get
  return contract f.1 f.2.1 f.2.2 hashes

def readTx (v : Json) : Fallible RepresentativeIds := do
  let get ← untaggedFields ["stacks_tx_hashes"] v
  let hashes ← required (readArray readString) "stacks_tx_hashes" get
  return tx hashes

def readBlock (v : Json) : Fallible RepresentativeIds := do
  let get ← untaggedFields ["stacks_block_hashes"] v
  let hashes ← required (readArray readString) "stacks_block_hashes" get
  return block hashes

/-- The shapes are tried from the one with most fields on. -/
def read (v : Json) : Fallible RepresentativeIds :=
  readUntagged "RepresentativeIds" [readContract, readTx, readBlock] v

/-- The fields of a shape. -/
def fieldNames : RepresentativeIds → List String
  | contract _ _ _ _ => ["contract_function", "stacks_tx_hashes"]
  | tx _ => ["stacks_tx_hashes"]
  | block _ => ["stacks_block_hashes"]

/-- The kind whose shape it is. -/
def kind : RepresentativeIds → FamilyKind
  | contract _ _ _ _ => FamilyKind.contractFamily
  | tx _ => FamilyKind.txFamily
  | block _ => FamilyKind.blockFamily

section Read

variable {v : Json} {ids : RepresentativeIds} {name : String}

theorem readContract_ok (h : readContract v = Except.ok ids) :
    v.isObject = true ∧ ∀ name, (v.get name).isSome = true ↔ name ∈ ids.fieldNames := by
  obtain ⟨get, hget, h⟩ := bind_ok_iff.mp h
  obtain ⟨hobject, rfl, hknown⟩ := untaggedFields_ok hget
  obtain ⟨f, hf, h⟩ := bind_ok_iff.mp h
  obtain ⟨hashes, hhashes, h⟩ := bind_ok_iff.mp h
  obtain rfl := Except.ok.inj h
  obtain ⟨w, hw, -⟩ := required_ok_iff.mp hf
  obtain ⟨u, hu, -⟩ := required_ok_iff.mp hhashes
  refine ⟨hobject, fun name => ⟨hknown name, fun hmem => ?_⟩⟩
  obtain rfl | hmem := List.mem_cons.mp hmem
  · rw [hw]
    rfl
  · rw [List.mem_singleton.mp hmem, hu]
    rfl

/-- The shapes with one list of hashes. -/
theorem readHashes_ok {field : String} {shape : List String → RepresentativeIds}
    (hshape : ∀ hashes, (shape hashes).fieldNames = [field])
    (h : (do
      let get ← untaggedFields [field] v
      let hashes ← required (readArray readString) field get
      return shape hashes) = Except.ok ids) :
    v.isObject = true ∧ ∀ name, (v.get name).isSome = true ↔ name ∈ ids.fieldNames := by
  obtain ⟨get, hget, h⟩ := bind_ok_iff.mp h
  obtain ⟨hobject, rfl, hknown⟩ := untaggedFields_ok hget
  obtain ⟨hashes, hhashes, h⟩ := bind_ok_iff.mp h
  obtain rfl := Except.ok.inj h
  obtain ⟨u, hu, -⟩ := required_ok_iff.mp hhashes
  rw [hshape hashes]
  refine ⟨hobject, fun name => ⟨hknown name, fun hmem => ?_⟩⟩
  rw [List.mem_singleton.mp hmem, hu]
  rfl

/-- **The fields that are there** are those of the shape that is read. -/
theorem isSome_get_iff (h : read v = Except.ok ids) :
    v.isObject = true ∧ ∀ name, (v.get name).isSome = true ↔ name ∈ ids.fieldNames := by
  obtain ⟨readShape, hmem, hread⟩ := readUntagged_ok h
  obtain rfl | hmem := List.mem_cons.mp hmem
  · exact readContract_ok hread
  · obtain rfl | hmem := List.mem_cons.mp hmem
    · exact readHashes_ok (fun _ => rfl) hread
    · obtain rfl := List.mem_singleton.mp hmem
      exact readHashes_ok (fun _ => rfl) hread

end Read

end RepresentativeIds

theorem Candidate.validateKindConsistency_ok_iff {c : Candidate} :
    c.validateKindConsistency = Except.ok () ↔ c.representativeIds.kind = c.kind := by
  unfold Candidate.validateKindConsistency
  cases c.kind <;> cases c.representativeIds <;> simp [RepresentativeIds.kind, bail]

/-! ## What is injected -/

/-- The kinds, and the fields that they ask for and refuse. -/
def candidateRules : List (String × List String × List String) :=
  [("tx_family", ["stacks_tx_hashes"], ["stacks_block_hashes", "contract_function"]),
    ("block_family", ["stacks_block_hashes"], ["stacks_tx_hashes", "contract_function"]),
    ("contract_family", ["contract_function", "stacks_tx_hashes"], ["stacks_block_hashes"])]

/-- The rules of a candidate. -/
def injectCandidate : List Schema :=
  candidateRules.map fun rule =>
    Schema.ifThen (whenConst "kind" (Scalar.string rule.fst))
      (Schema.properties [("representative_ids",
        Schema.all [Schema.requireds rule.snd.fst,
          Schema.not (Schema.anyOf (rule.snd.snd.map fun f => Schema.requireds [f]))])])

/-- A candidate, as it is read from a document. -/
structure ReadsCandidate (doc : Json) (c : Candidate) : Prop where
  isObject : doc.isObject = true
  id : required readString "id" doc.get = Except.ok c.id
  kind : required (readName FamilyKind.variants) "kind" doc.get = Except.ok c.kind
  selectionLens : required (readName SelectionLens.variants) "selection_lens" doc.get
    = Except.ok c.selectionLens
  representativeIds : required RepresentativeIds.read "representative_ids" doc.get
    = Except.ok c.representativeIds

section Candidate

variable {space : Char → Bool} {doc : Json} {c : Candidate}

/-- What a rule asks of the fields that are there. -/
theorem accepts_shape_iff {v : Json} {ids : RepresentativeIds} {asked refused : List String}
    (h : RepresentativeIds.read v = Except.ok ids) :
    accepts space (Schema.all [Schema.requireds asked,
        Schema.not (Schema.anyOf (refused.map fun f => Schema.requireds [f]))]) v = true
      ↔ (∀ f ∈ asked, f ∈ ids.fieldNames) ∧ ∀ f ∈ refused, f ∉ ids.fieldNames := by
  obtain ⟨hobject, hfields⟩ := RepresentativeIds.isSome_get_iff h
  have hrequired : ∀ f, accepts space (Schema.required f) v = true ↔ f ∈ ids.fieldNames :=
    fun f => (accepts_required_iff hobject).trans (hfields f)
  rw [accepts_all_iff, List.forall_mem_cons, List.forall_mem_singleton, accepts_requireds_iff,
    accepts_not_iff, accepts_anyOf_iff]
  refine and_congr (forall₂_congr fun f _ => hrequired f) ?_
  constructor
  · intro hnone f hf hmem
    refine hnone ⟨_, List.mem_map_of_mem hf, accepts_requireds_iff.mpr fun g hg => ?_⟩
    rw [List.mem_singleton.mp hg]
    exact (hrequired f).mpr hmem
  · rintro hnone ⟨s, hs, haccepts⟩
    obtain ⟨f, hf, rfl⟩ := List.mem_map.mp hs
    exact hnone f hf ((hrequired f).mp
      (accepts_requireds_iff.mp haccepts f List.mem_cons_self))

/-- **The schema and the validator on a candidate** agree: the kind is that of the shape. -/
theorem accepts_injectCandidate_iff (h : ReadsCandidate doc c) :
    accepts space (Schema.all injectCandidate) doc = true
      ↔ c.validateKindConsistency = Except.ok () := by
  obtain ⟨v, hv, hread⟩ := required_ok_iff.mp h.representativeIds
  have hkind : ∀ {s : String} {k : FamilyKind}, FamilyKind.variants.lookup s = some k →
      (accepts space (whenConst "kind" (Scalar.string s)) doc = true ↔ c.kind = k) :=
    fun hs => whenConst_required_iff h.isObject h.kind fun _ => readName_is (by decide) hs
  have hrule : ∀ {s : String} {k : FamilyKind} {asked refused : List String},
      FamilyKind.variants.lookup s = some k →
      (accepts space (Schema.ifThen (whenConst "kind" (Scalar.string s))
        (Schema.properties [("representative_ids", Schema.all [Schema.requireds asked,
          Schema.not (Schema.anyOf (refused.map fun f => Schema.requireds [f]))])])) doc = true
        ↔ (c.kind = k → (∀ f ∈ asked, f ∈ c.representativeIds.fieldNames)
          ∧ ∀ f ∈ refused, f ∉ c.representativeIds.fieldNames)) := by
    intro s k asked refused hs
    rw [accepts_ifThen_iff, hkind hs, accepts_properties_iff, List.forall_mem_singleton,
      accepts_property_of_some hv, accepts_shape_iff hread]
  rw [Candidate.validateKindConsistency_ok_iff, accepts_all_iff, injectCandidate,
    List.forall_mem_map]
  unfold candidateRules
  rw [List.forall_mem_cons, List.forall_mem_cons, List.forall_mem_singleton, hrule rfl,
    hrule rfl, hrule rfl]
  cases c.kind <;> cases c.representativeIds <;>
    simp [RepresentativeIds.fieldNames, RepresentativeIds.kind]

end Candidate

/-! ## The document -/

/-- The count that triage gives for a lens. -/
def LensCoverage.count (lc : LensCoverage) : SelectionLens → ℕ
  | SelectionLens.txLatency => lc.txLatency
  | SelectionLens.tenureThroughput => lc.tenureThroughput
  | SelectionLens.commitTime => lc.commitTime

/-- The rules of the candidates, each of which is in the document. -/
def injectCandidates : Schema :=
  Schema.properties [("candidates", Schema.items (Schema.all injectCandidate))]

/-- The candidates, as they are read from a document. -/
def ReadsCandidates (doc : Json) (cs : Candidates) : Prop :=
  ∃ vs, doc.get "candidates" = some (Json.array vs) ∧ List.Forall₂ ReadsCandidate vs cs.candidates

section Candidates

variable {space : Char → Bool} {doc : Json} {cs : Candidates}

theorem accepts_injectCandidates_iff (h : ReadsCandidates doc cs) :
    accepts space injectCandidates doc = true
      ↔ ∀ c ∈ cs.candidates, c.validateKindConsistency = Except.ok () := by
  obtain ⟨vs, hvs, hreads⟩ := h
  unfold injectCandidates
  rw [accepts_properties_iff, List.forall_mem_singleton, accepts_property_of_some hvs,
    accepts_itemsOf_iff]
  clear hvs
  generalize cs.candidates = candidates at hreads ⊢
  induction hreads with
  | nil =>
    exact iff_of_true (fun v hv => absurd hv List.not_mem_nil)
      fun c hc => absurd hc List.not_mem_nil
  | cons hread _ ih =>
    rw [List.forall_mem_cons, List.forall_mem_cons, ih, accepts_injectCandidate_iff hread]

/-- **What the validator of the candidates asks for**, beyond what their schema does. -/
theorem Candidates.validateModel_iff_accepts (h : ReadsCandidates doc cs) :
    cs.validateModel = Except.ok () ↔ accepts space injectCandidates doc = true
      ∧ (∀ c ∈ cs.candidates, c.id ≠ "")
      ∧ ∀ lens, cs.lensCoverage.count lens = cs.tally lens := by
  have hcounts : (cs.lensCoverage.txLatency = cs.tally SelectionLens.txLatency
      ∧ cs.lensCoverage.tenureThroughput = cs.tally SelectionLens.tenureThroughput
      ∧ cs.lensCoverage.commitTime = cs.tally SelectionLens.commitTime)
        ↔ ∀ lens, cs.lensCoverage.count lens = cs.tally lens := by
    refine ⟨fun ⟨hlatency, hthroughput, hcommit⟩ lens => ?_, fun hall =>
      ⟨hall SelectionLens.txLatency, hall SelectionLens.tenureThroughput,
        hall SelectionLens.commitTime⟩⟩
    cases lens with
    | txLatency => exact hlatency
    | tenureThroughput => exact hthroughput
    | commitTime => exact hcommit
  unfold Candidates.validateModel
  rw [accepts_injectCandidates_iff h, ← hcounts, seq_ok_iff,
    forEach_ok_iff_forall (P := fun c => c.id ≠ "" ∧ c.validateKindConsistency = Except.ok ()),
    bailIf_ok_iff]
  · push Not
    constructor
    · rintro ⟨hall, hcounts⟩
      exact ⟨fun c hc => (hall c hc).right, fun c hc => (hall c hc).left, hcounts⟩
    · rintro ⟨hkinds, hids, hcounts⟩
      exact ⟨fun c hc => ⟨hids c hc, hkinds c hc⟩, hcounts⟩
  · intro i c
    rw [seq_ok_iff, bailIf_ok_iff]

end Candidates

/-! ## An example -/

/-- A family of calls of one function. -/
def callsJson : Json :=
  object [("id", string "calls"), ("kind", string "contract_family"),
    ("selection_lens", string "tx_latency"),
    ("representative_ids", object [("stacks_tx_hashes", array [string "0xab"]),
      ("contract_function", object [("issuer", string "SP00"), ("contract", string "pool"),
        ("function", string "swap")])]),
    ("rationale", string "heavy")]

/-- What is read from it: the function is not passed over for the hashes. -/
def calls : Candidate where
  id := "calls"
  kind := FamilyKind.contractFamily
  selectionLens := SelectionLens.txLatency
  representativeIds := RepresentativeIds.contract "SP00" "pool" "swap" ["0xab"]

/-- One candidate, which is counted for another lens. -/
def miscounted : Candidates where
  sessionId := "20260101T000000"
  baselineRunId := 1
  baselineRerunId := 2
  noiseFloorPct := F64.zero
  candidates := [calls]
  lensCoverage := ⟨0, 1, 0⟩

theorem readsCandidate_calls : ReadsCandidate callsJson calls :=
  ⟨rfl, rfl, rfl, rfl, rfl⟩

/-- The schema accepts what the validator refuses. -/
theorem Candidates.validateModel_miscounted :
    miscounted.validateModel ≠ Except.ok ()
      ∧ accepts Text.isWhiteSpace injectCandidates
        (object [("candidates", array [callsJson])]) = true := by
  have hreads : ReadsCandidates (object [("candidates", array [callsJson])]) miscounted :=
    ⟨[callsJson], rfl, List.Forall₂.cons readsCandidate_calls List.Forall₂.nil⟩
  refine ⟨fun hvalid => ?_, ?_⟩
  · have hcount := (@Candidates.validateModel_iff_accepts Text.isWhiteSpace _ _
      hreads).mp hvalid
    exact absurd (hcount.right.right SelectionLens.txLatency) (by decide)
  · rw [accepts_injectCandidates_iff hreads]
    exact fun c hc => List.mem_singleton.mp hc ▸ rfl
