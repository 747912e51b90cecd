import Sbagent.Finalize
import Sbagent.JsonSchema
import Sbagent.MergeRules
import Sbagent.RecordFormat

/-!
# The rules of the schemas

The rules between the fields of a document are written twice: in the validators, and in the
JSON schemas that agents are given, into which they are injected after the rest has been
derived from the types. The schemas see the document and the validators what was read from
it, and what was read does not show everything.

A field that is null is read as one that is not there. The rules that a field must not be
there then disagree (`accepts_routing_iff`). And where a list has to say something, the
validators ask for one item that does and the schemas ask it of all of them
(`accepts_nonBlankItems_iff`). Everything else agrees.

A document of a type is an object, its structures are objects and its variants are texts;
this is what the rest of the schema asks for.
-/

open Fallible JsonSchema Json

/-! ## The variants -/

def BreakageClass.variants : List (String × BreakageClass) :=
  [("clarity_cost_weight", clarityCostWeight), ("clarity_vm_behavior", clarityVmBehavior),
    ("mining_flow", miningFlow), ("block_validation", blockValidation),
    ("marf_layout", marfLayout), ("on_chain_format", onChainFormat)]

def SelectionLens.variants : List (String × SelectionLens) :=
  [("tx_latency", txLatency), ("tenure_throughput", tenureThroughput),
    ("commit_time", commitTime)]

def LensDispositionStatus.variants : List (String × LensDispositionStatus) :=
  [("addressed", addressed), ("not_actionable", notActionable)]

def ExperimentStatus.variants : List (String × ExperimentStatus) :=
  [("accepted", accepted), ("rejected", rejected), ("aborted", aborted),
    ("poc_landed", pocLanded), ("routed_to_issue", routedToIssue)]

def FailedGate.variants : List (String × FailedGate) :=
  [("fmt", fmt), ("clippy", clippy), ("nextest", nextest), ("release_build", releaseBuild),
    ("non_targets_match", nonTargetsMatch),
    ("no_implementation_found", noImplementationFound),
    ("parity_unprovable", parityUnprovable), ("timeout_hit", timeoutHit),
    ("environmental_error", environmentalError)]

/-! ## What is injected -/

/-- The schema that only null does not keep. -/
def notNull : Schema := Schema.not Schema.null

/-- The routing of a target. -/
def injectConsensusRouting : List Schema :=
  [Schema.ifThen (whenConst "consensus_breaking" (Scalar.bool true))
      (Schema.all [Schema.requireds ["breakage_class", "poc_implementable", "consensus_writeup"],
        Schema.properties [("breakage_class", notNull), ("poc_implementable", notNull),
          ("consensus_writeup", notNull)]]),
    Schema.ifThen (whenConst "poc_implementable" (Scalar.bool true))
      (Schema.all [Schema.requireds ["poc_test_scope"],
        Schema.properties [("poc_test_scope", Schema.all [notNull, Schema.minItems 1])]]),
    Schema.ifThen (whenConst "breakage_class" (Scalar.string "block_validation"))
      (Schema.properties [("poc_implementable", Schema.const (Scalar.bool false))]),
    Schema.ifThen (Schema.not (whenConst "poc_implementable" (Scalar.bool true)))
      (Schema.not (Schema.requireds ["poc_test_scope"])),
    Schema.ifThen (Schema.not (whenConst "consensus_breaking" (Scalar.bool true)))
      (Schema.all [Schema.not (Schema.requireds ["breakage_class"]),
        Schema.not (Schema.requireds ["poc_implementable"]),
        Schema.not (Schema.requireds ["poc_test_scope"]),
        Schema.not (Schema.requireds ["consensus_writeup"])])]

/-- What a target needs that is benchmarked. -/
def measured : Schema :=
  Schema.all [Schema.requireds ["verification_replay", "evidence_queries"],
    Schema.properties [("verification_replay", notNull), ("evidence_queries", Schema.minItems 1)]]

/-- The rules of an analyzer's target. -/
def injectAnalyzerTarget : List Schema :=
  injectConsensusRouting
    ++ [Schema.ifThen (whenConst "consensus_breaking" (Scalar.bool false)) measured]

/-- The rules of an accepted analysis. -/
def injectAcceptedAnalysis : List Schema :=
  (["tx_latency", "tenure_throughput", "commit_time"].map fun lens =>
    Schema.ifThen (whenConst "selection_lens" (Scalar.string lens))
      (Schema.properties [("lens_disposition", whenConst "lens" (Scalar.string lens))]))
    ++ [Schema.ifThen
      (Schema.all [Schema.properties
          [("lens_disposition", whenConst "status" (Scalar.string "addressed"))],
        Schema.requireds ["lens_disposition"]])
      (Schema.properties [("targets", Schema.minItems 1)])]

/-- The rules of a merged target. -/
def injectMergedTarget : List Schema :=
  injectConsensusRouting
    ++ [Schema.ifThen (whenConst "consensus_breaking" (Scalar.bool false))
        (Schema.properties [("delivery_mode", Schema.const (Scalar.string "normal_pr"))]),
      Schema.ifThen
        (Schema.all [Schema.properties [("consensus_breaking", Schema.const (Scalar.bool true)),
            ("poc_implementable", Schema.const (Scalar.bool true))],
          Schema.requireds ["consensus_breaking", "poc_implementable"]])
        (Schema.properties [("delivery_mode", Schema.const (Scalar.string "consensus_poc_pr"))]),
      Schema.ifThen
        (Schema.all [Schema.properties [("consensus_breaking", Schema.const (Scalar.bool true)),
            ("poc_implementable", Schema.const (Scalar.bool false))],
          Schema.requireds ["consensus_breaking", "poc_implementable"]])
        (Schema.properties [("delivery_mode", Schema.const (Scalar.string "consensus_issue"))]),
      Schema.ifThenElse (whenConst "delivery_mode" (Scalar.string "normal_pr"))
        (Schema.properties [("bench_eligible", Schema.const (Scalar.bool true))])
        (Schema.properties [("bench_eligible", Schema.const (Scalar.bool false))]),
      Schema.ifThen (whenConst "bench_eligible" (Scalar.bool true)) measured]

/-- The rule of a disposition. -/
def injectLensDisposition : List Schema :=
  [Schema.ifThen (whenConst "status" (Scalar.string "not_actionable"))
    (Schema.all [Schema.requireds ["reason"], Schema.properties [("reason", notNull)]])]

/-- The rules of an experiment. -/
def injectExperiment : List Schema :=
  [("normal_pr", ["accepted", "rejected", "aborted"]),
    ("consensus_poc_pr", ["poc_landed", "aborted"]),
    ("consensus_issue", ["routed_to_issue", "aborted"])].map fun m =>
      Schema.ifThen (whenConst "delivery_mode" (Scalar.string m.fst))
        (Schema.properties [("status", Schema.enum (m.snd.map Scalar.string))])

/-- The schema of a text that says something. -/
def nonBlankText : Schema := Schema.all [Schema.minLength 1, Schema.notSpace]

/-- The schema of a list that says something in every item. -/
def nonBlankItems : Schema := Schema.all [Schema.minItems 1, Schema.items nonBlankText]

/-- The rules of a report on an implementation. -/
def injectImplementedReport : List Schema :=
  [Schema.ifThen
      (Schema.all [Schema.properties
          [("parity", whenConst "consensus_sensitive" (Scalar.bool true))],
        Schema.requireds ["parity"]])
      (Schema.properties
        [("parity", Schema.properties [("evidence", nonBlankItems), ("tests", nonBlankItems)])]),
    Schema.properties [("parity", Schema.properties [("unproven_risk", Schema.null)])],
    Schema.properties
      [("test_summary", Schema.properties [("failed", Schema.const (Scalar.nat 0))])],
    Schema.properties [("implementation_summary", nonBlankText), ("pr_title", nonBlankText),
      ("test_summary", Schema.properties [("log_path", nonBlankText)])],
    Schema.properties
      [("test_summary", Schema.properties [("duration_secs", Schema.minimum 0)])],
    Schema.ifThen (whenConst "delivery_mode" (Scalar.string "normal_pr"))
      (Schema.all [Schema.requireds ["clippy_clean"],
        Schema.properties [("clippy_clean", Schema.const (Scalar.bool true))]]),
    Schema.ifThen (whenConst "delivery_mode" (Scalar.string "consensus_issue")) Schema.never]

/-- The rules of a report on an attempt that led to nothing. -/
def injectAbortedReport : List Schema :=
  [Schema.properties [("reason", nonBlankText)],
    Schema.ifThen (whenConst "failed_gate" (Scalar.string "nextest"))
      (Schema.all [Schema.requireds ["failing_tests"],
        Schema.properties [("failing_tests", Schema.all [Schema.array, nonBlankItems])]])]

/-! ## Reading the fields -/

section Fields

variable {space : Char → Bool} {α : Type} {read : Json → Fallible α} {doc : Json} {name : String}
  {c : Scalar} {o : Option α} {a : α}

/-- The test on a field that has to be there. -/
theorem whenConst_required_iff {P : Prop} (hobject : doc.isObject = true)
    (h : required read name doc.get = Except.ok a)
    (hc : ∀ w, read w = Except.ok a → (c.is w = true ↔ P)) :
    accepts space (whenConst name c) doc = true ↔ P := by
  obtain ⟨v, hv, hread⟩ := required_ok_iff.mp h
  rw [accepts_whenConst_iff hobject, hv, ← hc v hread]
  simp

/-- The test on a field that may be left out. -/
theorem whenConst_optional_iff (hobject : doc.isObject = true)
    (h : optional read name doc.get = Except.ok o) (hnull : c.is null = false)
    (hc : ∀ w b, read w = Except.ok b → (c.is w = true ↔ b = a)) :
    accepts space (whenConst name c) doc = true ↔ o = some a := by
  rw [accepts_whenConst_iff hobject]
  obtain ⟨rfl, hmissing | hmissing⟩ | ⟨v, b, hv, -, hread, rfl⟩ := optional_ok_iff.mp h
  · simp [hmissing]
  · simp [hmissing, hnull]
  · simp [hv, hc v b hread]

/-- A property that has a certain value if it has one. -/
theorem const_required_iff {P : Prop} (h : required read name doc.get = Except.ok a)
    (hc : ∀ w, read w = Except.ok a → (c.is w = true ↔ P)) :
    accepts space (Schema.property name (Schema.const c)) doc = true ↔ P := by
  obtain ⟨v, hv, hread⟩ := required_ok_iff.mp h
  rw [accepts_property_of_some hv, ← hc v hread, accepts]

theorem isSome_of_optional (h : optional read name doc.get = Except.ok o) :
    ((doc.get name).isSome = true ∧ ∀ w, doc.get name = some w → w ≠ null) ↔ o ≠ none := by
  obtain ⟨rfl, hmissing | hmissing⟩ | ⟨v, b, hv, hne, -, rfl⟩ := optional_ok_iff.mp h
  · simp [hmissing]
  · simp [hmissing]
  · simp [hv, hne]

theorem accepts_notNull_iff {v : Json} : accepts space notNull v = true ↔ v ≠ null := by
  unfold notNull
  rw [accepts_not_iff]
  cases v <;> simp [accepts, isNull]

/-- A field that must be there and not be null. -/
theorem present_iff (space : Char → Bool) (hobject : doc.isObject = true)
    (h : optional read name doc.get = Except.ok o) :
    (accepts space (Schema.required name) doc = true
      ∧ accepts space (Schema.property name notNull) doc = true) ↔ o ≠ none := by
  rw [accepts_required_iff hobject, accepts_property_iff, ← isSome_of_optional h]
  simp only [accepts_notNull_iff]

/-- A field that must not be there. -/
theorem absent_iff (hobject : doc.isObject = true) :
    accepts space (Schema.not (Schema.requireds [name])) doc = true ↔ doc.get name = none := by
  rw [accepts_not_iff, accepts_requireds_iff]
  simp [accepts_required_iff hobject]

/-- What is not there is read as nothing, and so is null. -/
theorem eq_none_iff (h : optional read name doc.get = Except.ok o) :
    o = none ↔ doc.get name = none ∨ doc.get name = some null := by
  obtain ⟨rfl, hmissing⟩ | ⟨v, b, hv, hne, -, rfl⟩ := optional_ok_iff.mp h
  · exact iff_of_true rfl hmissing
  · simp [hv, hne]

end Fields

/-! ## Targets -/

/-- The routing of a target, as it is read from a document. -/
structure ReadsRouting (doc : Json) (consensusBreaking : Bool)
    (breakageClass : Option BreakageClass) (pocImplementable : Option Bool)
    (pocTestScope : Option (List String)) (consensusWriteup : Option String) : Prop where
  isObject : doc.isObject = true
  consensusBreaking : required readBool "consensus_breaking" doc.get = Except.ok consensusBreaking
  breakageClass : optional (readName BreakageClass.variants)
    "breakage_class" doc.get = Except.ok breakageClass
  pocImplementable : optional readBool "poc_implementable" doc.get = Except.ok pocImplementable
  pocTestScope : optional (readArray readString) "poc_test_scope" doc.get = Except.ok pocTestScope
  consensusWriteup : optional readString "consensus_writeup" doc.get = Except.ok consensusWriteup

/-- The document has a null where there must not be anything. -/
def LeftNull (doc : Json) (consensusBreaking : Bool) (pocImplementable : Option Bool) : Prop :=
  (consensusBreaking = false ∧ (doc.get "breakage_class" = some null
      ∨ doc.get "poc_implementable" = some null ∨ doc.get "consensus_writeup" = some null))
    ∨ pocImplementable ≠ some true ∧ doc.get "poc_test_scope" = some null

section Routing

variable {space : Char → Bool} {doc : Json} {cb : Bool} {bc : Option BreakageClass}
  {poc : Option Bool} {scope : Option (List String)} {writeup : Option String}

theorem readBool_is {v : Json} {b c : Bool} (h : readBool v = Except.ok c) :
    (Scalar.bool b).is v = true ↔ c = b := by
  rw [readBool_ok_iff.mp h]
  show decide (b = c) = true ↔ c = b
  rw [decide_eq_true_iff, eq_comm]

theorem readU64_is {v : Json} {m n : ℕ} (h : readU64 v = Except.ok n) :
    (Scalar.nat m).is v = true ↔ n = m := by
  cases v with
  | nat k =>
    obtain rfl : k = n := Except.ok.inj h
    show decide (m = k) = true ↔ k = m
    rw [decide_eq_true_iff, eq_comm]
  | _ => cases h

theorem readName_is {α : Type} {variants : List (String × α)} {v : Json} {s : String} {a b : α}
    (hnodup : (variants.map Prod.snd).Nodup) (hs : variants.lookup s = some a)
    (h : readName variants v = Except.ok b) : (Scalar.string s).is v = true ↔ b = a := by
  obtain ⟨t, rfl, ht⟩ := readName_ok_iff.mp h
  have heq : (Scalar.string s).is (string t) = true ↔ s = t := decide_eq_true_iff
  rw [heq]
  constructor
  · rintro rfl
    exact Option.some.inj (ht.symm.trans hs)
  · rintro rfl
    exact lookup_injective hnodup hs ht

theorem ReadsRouting.breaking_iff (h : ReadsRouting doc cb bc poc scope writeup) {b : Bool} :
    accepts space (whenConst "consensus_breaking" (Scalar.bool b)) doc = true ↔ cb = b :=
  whenConst_required_iff h.isObject h.consensusBreaking fun _ => readBool_is

theorem ReadsRouting.poc_iff (h : ReadsRouting doc cb bc poc scope writeup) {b : Bool} :
    accepts space (whenConst "poc_implementable" (Scalar.bool b)) doc = true ↔ poc = some b :=
  whenConst_optional_iff h.isObject h.pocImplementable rfl fun _ _ => readBool_is

theorem ReadsRouting.blockValidation_iff (h : ReadsRouting doc cb bc poc scope writeup) :
    accepts space (whenConst "breakage_class" (Scalar.string "block_validation")) doc = true
      ↔ bc = some BreakageClass.blockValidation :=
  whenConst_optional_iff h.isObject h.breakageClass rfl fun _ _ hread =>
    readName_is (by decide) rfl hread

/-- The fields that a breaking change carries. -/
theorem ReadsRouting.carries_iff (space : Char → Bool)
    (h : ReadsRouting doc cb bc poc scope writeup) :
    accepts space (Schema.all
        [Schema.requireds ["breakage_class", "poc_implementable", "consensus_writeup"],
          Schema.properties [("breakage_class", notNull), ("poc_implementable", notNull),
            ("consensus_writeup", notNull)]]) doc = true
      ↔ bc ≠ none ∧ poc ≠ none ∧ writeup ≠ none := by
  rw [← present_iff space h.isObject h.breakageClass,
    ← present_iff space h.isObject h.pocImplementable,
    ← present_iff space h.isObject h.consensusWriteup]
  simp only [accepts_all_iff, accepts_requireds_iff, accepts_properties_iff,
    List.forall_mem_cons, List.not_mem_nil, false_imp_iff, forall_const, and_true]
  tauto

/-- The scope of a proof of concept. -/
theorem ReadsRouting.scope_iff (space : Char → Bool)
    (h : ReadsRouting doc cb bc poc scope writeup) :
    accepts space (Schema.all [Schema.requireds ["poc_test_scope"],
        Schema.properties [("poc_test_scope", Schema.all [notNull, Schema.minItems 1])]]) doc
        = true
      ↔ ∃ s, scope = some s ∧ s ≠ [] := by
  simp only [accepts_all_iff, accepts_requireds_iff, accepts_properties_iff,
    List.forall_mem_cons, List.not_mem_nil, false_imp_iff, forall_const, and_true,
    accepts_required_iff h.isObject, accepts_property_iff, accepts_notNull_iff]
  obtain ⟨rfl, hmissing | hmissing⟩ | ⟨v, s, hv, hne, hread, rfl⟩ :=
    optional_ok_iff.mp h.pocTestScope
  · simp [hmissing]
  · simp [hmissing]
  · obtain ⟨vs, rfl, hvs⟩ := readArray_ok_iff.mp hread
    have hnil : vs = [] ↔ s = [] := by
      rw [← List.length_eq_zero_iff, (mapM_ok_iff.mp hvs).length_eq, List.length_eq_zero_iff]
    simp [hv, accepts, elements, Nat.one_le_iff_ne_zero, hnil]

/-- A flag that is there and has to be off. -/
theorem ReadsRouting.off_iff (h : ReadsRouting doc cb bc poc scope writeup) (hpoc : poc ≠ none) :
    accepts space (Schema.properties [("poc_implementable", Schema.const (Scalar.bool false))])
      doc = true ↔ poc = some false := by
  rw [accepts_properties_iff, List.forall_mem_singleton, accepts_property_iff]
  obtain ⟨rfl, -⟩ | ⟨v, b, hv, -, hread, rfl⟩ := optional_ok_iff.mp h.pocImplementable
  · exact absurd rfl hpoc
  · simp [hv, accepts, readBool_is hread]

/-- **The schemas and the validators on the routing** agree, but where a null is left. -/
theorem accepts_routing_iff (h : ReadsRouting doc cb bc poc scope writeup) :
    accepts space (Schema.all injectConsensusRouting) doc = true
      ↔ RoutingValid cb bc poc scope writeup ∧ ¬ LeftNull doc cb poc := by
  have hall : accepts space (Schema.all injectConsensusRouting) doc = true
      ↔ (cb = true → bc ≠ none ∧ poc ≠ none ∧ writeup ≠ none)
        ∧ (poc = some true → ∃ s, scope = some s ∧ s ≠ [])
        ∧ (bc = some BreakageClass.blockValidation → accepts space (Schema.properties
            [("poc_implementable", Schema.const (Scalar.bool false))]) doc = true)
        ∧ (poc ≠ some true → doc.get "poc_test_scope" = none)
        ∧ (cb ≠ true → doc.get "breakage_class" = none ∧ doc.get "poc_implementable" = none
            ∧ doc.get "poc_test_scope" = none ∧ doc.get "consensus_writeup" = none) := by
    unfold injectConsensusRouting
    simp only [← h.carries_iff space, ← h.scope_iff space, accepts_all_iff,
      List.forall_mem_cons, List.not_mem_nil, false_imp_iff, implies_true, and_true,
      accepts_ifThen_iff, accepts_not_iff (s := whenConst _ _), absent_iff h.isObject,
      h.breaking_iff, h.poc_iff, h.blockValidation_iff, ne_eq]
  rw [hall]
  -- the rules for what breaks consensus and for what does not exclude each other
  cases cb with
  | true =>
    constructor
    · rintro ⟨hcarries, hscope, hblock, hstray, -⟩
      refine ⟨⟨hcarries, fun _ hbc => (h.off_iff (hcarries rfl).right.left).mp (hblock hbc),
        fun _ => ⟨hscope, fun hpoc => (eq_none_iff h.pocTestScope).mpr (Or.inl (hstray hpoc))⟩,
        fun hcb => absurd hcb.symm Bool.false_ne_true⟩, ?_⟩
      rintro (⟨hcb, -⟩ | ⟨hpoc, hnull⟩)
      · cases hcb
      · rw [hstray hpoc] at hnull
        cases hnull
    · rintro ⟨hvalid, hnull⟩
      have hcarries := hvalid.breaking rfl
      refine ⟨fun _ => hcarries, (hvalid.scope rfl).left, fun hbc =>
        (h.off_iff hcarries.right.left).mpr (hvalid.blockValidation rfl hbc), fun hpoc => ?_,
        fun hcb => absurd rfl hcb⟩
      exact ((eq_none_iff h.pocTestScope).mp ((hvalid.scope rfl).right hpoc)).resolve_right
        fun hscope => hnull (Or.inr ⟨hpoc, hscope⟩)
  | false =>
    constructor
    · rintro ⟨-, -, -, -, habsent⟩
      obtain ⟨hbc, hpoc, hscope, hwriteup⟩ := habsent Bool.false_ne_true
      have hoff {p : Prop} (hcb : false = true) : p := absurd hcb Bool.false_ne_true
      refine ⟨⟨hoff, hoff, hoff, fun _ => ⟨(eq_none_iff h.breakageClass).mpr (Or.inl hbc),
        (eq_none_iff h.pocImplementable).mpr (Or.inl hpoc),
        (eq_none_iff h.pocTestScope).mpr (Or.inl hscope),
        (eq_none_iff h.consensusWriteup).mpr (Or.inl hwriteup)⟩⟩, ?_⟩
      rintro (⟨-, hnull | hnull | hnull⟩ | ⟨-, hnull⟩)
      · rw [hbc] at hnull
        cases hnull
      · rw [hpoc] at hnull
        cases hnull
      · rw [hwriteup] at hnull
        cases hnull
      · rw [hscope] at hnull
        cases hnull
    · rintro ⟨hvalid, hnull⟩
      obtain ⟨rfl, rfl, rfl, rfl⟩ := hvalid.nonBreaking rfl
      have hbc := ((eq_none_iff h.breakageClass).mp rfl).resolve_right fun hn =>
        hnull (Or.inl ⟨rfl, Or.inl hn⟩)
      have hpoc := ((eq_none_iff h.pocImplementable).mp rfl).resolve_right fun hn =>
        hnull (Or.inl ⟨rfl, Or.inr (Or.inl hn)⟩)
      have hwriteup := ((eq_none_iff h.consensusWriteup).mp rfl).resolve_right fun hn =>
        hnull (Or.inl ⟨rfl, Or.inr (Or.inr hn)⟩)
      have hscope := ((eq_none_iff h.pocTestScope).mp rfl).resolve_right fun hn =>
        hnull (Or.inr ⟨Option.some_ne_none true ∘ Eq.symm, hn⟩)
      have hnone {α : Type} {x : α} {p : Prop} (heq : none = some x) : p :=
        absurd heq.symm (Option.some_ne_none x)
      exact ⟨fun hcb => absurd hcb Bool.false_ne_true, hnone, hnone, fun _ => hscope,
        fun _ => ⟨hbc, hpoc, hscope, hwriteup⟩⟩

end Routing

/-! ## Texts -/

/-- The pattern takes a text for blank exactly if trimming does. -/
def Alike (space : Char → Bool) (s : String) : Prop :=
  (s.toList.any fun c => !space c) = !Text.isBlank s

section Texts

variable {space : Char → Bool} {doc v : Json} {name s : String} {ss : List String}

theorem hasNonBlank_iff : hasNonBlank ss = true ↔ ∃ s ∈ ss, Text.isBlank s = false := by
  unfold hasNonBlank
  simp

theorem accepts_nonBlankText_iff (h : Alike space s) :
    accepts space nonBlankText (string s) = true ↔ Text.isBlank s = false := by
  have hpattern : accepts space Schema.notSpace (string s) = true ↔ Text.isBlank s = false := by
    show (s.toList.any fun c => !space c) = true ↔ _
    rw [h, Bool.not_eq_true']
  unfold nonBlankText
  rw [accepts_all_iff, List.forall_mem_cons, List.forall_mem_singleton, hpattern,
    and_iff_right_iff_imp]
  intro hblank
  show decide (1 ≤ s.length) = true
  rw [decide_eq_true_iff, Nat.one_le_iff_ne_zero, Ne, String.length_eq_zero_iff]
  rintro rfl
  cases hblank

/-- **The lists of the schemas** say something in every item. -/
theorem accepts_nonBlankItems_iff (h : ∀ s ∈ ss, Alike space s) :
    accepts space nonBlankItems (array (ss.map string)) = true
      ↔ hasNonBlank ss = true ∧ ∀ s ∈ ss, Text.isBlank s = false := by
  have hitems : accepts space (Schema.items nonBlankText) (array (ss.map string)) = true
      ↔ ∀ s ∈ ss, Text.isBlank s = false := by
    show (ss.map string).all (accepts space nonBlankText) = true ↔ _
    rw [List.all_eq_true, List.forall_mem_map]
    exact forall₂_congr fun s hs => accepts_nonBlankText_iff (h s hs)
  have hcount : accepts space (Schema.minItems 1) (array (ss.map string)) = true ↔ ss ≠ [] := by
    show decide (1 ≤ (ss.map string).length) = true ↔ _
    rw [decide_eq_true_iff, List.length_map, Nat.one_le_iff_ne_zero, Ne, List.length_eq_zero_iff]
  unfold nonBlankItems
  rw [accepts_all_iff, List.forall_mem_cons, List.forall_mem_singleton, hitems, hcount,
    hasNonBlank_iff]
  refine and_congr_left fun hall => ⟨fun hne => ?_, ?_⟩
  · obtain ⟨s, hs⟩ := List.exists_mem_of_ne_nil ss hne
    exact ⟨s, hs, hall s hs⟩
  · rintro ⟨s, hs, -⟩
    exact List.ne_nil_of_mem hs

/-- A text that has to be there. -/
theorem accepts_text_iff (h : required readString name doc.get = Except.ok s)
    (halike : Alike space s) :
    accepts space (Schema.property name nonBlankText) doc = true ↔ Text.isBlank s = false := by
  obtain ⟨v, hv, hread⟩ := required_ok_iff.mp h
  rw [accepts_property_of_some hv, readString_ok_iff.mp hread, accepts_nonBlankText_iff halike]

/-- A list that has to be there. -/
theorem accepts_items_iff (h : required (readArray readString) name doc.get = Except.ok ss)
    (halike : ∀ s ∈ ss, Alike space s) :
    accepts space (Schema.property name nonBlankItems) doc = true
      ↔ hasNonBlank ss = true ∧ ∀ s ∈ ss, Text.isBlank s = false := by
  obtain ⟨v, hv, hread⟩ := required_ok_iff.mp h
  obtain ⟨vs, rfl, hvs⟩ := readArray_ok_iff.mp hread
  rw [accepts_property_of_some hv, mapM_readString_ok_iff.mp hvs, accepts_nonBlankItems_iff halike]

end Texts
