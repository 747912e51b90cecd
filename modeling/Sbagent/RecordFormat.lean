import Sbagent.LedgerFiles

/-!
# Three versions of a session record

A line of the ledger of sessions is a record as JSON. The present version of the format is
the third. In the second a record could have one more field, which is gone, and in the
first it did not say where its source came from. A line of any of them is read as a record
of the third: the version is set, the field that is gone is removed, and the fields that
were not there yet are left out.

The version is read first, as a number that is not negative, and a line without one is of
the first. So is a line whose version is anything else, such as a text or a negative
number: it is read as if it were as old as can be, and accepted if the rest of it is a
record (`fromLedgerLine_compatible`).
-/

open Fallible Json

/-! ## Writing and reading a record -/

/-- The names of the statuses of a session. -/
def SessionStatus.variants : List (String × SessionStatus) :=
  [("succeeded", succeeded), ("failed", failed), ("aborted", aborted)]

/-- The names of the statuses of a target. -/
def TargetStatus.variants : List (String × TargetStatus) :=
  [("accepted", accepted), ("rejected", rejected), ("aborted", aborted), ("failed", failed)]

/-- The names of the stages at which a target is settled. -/
def TargetStatusStage.variants : List (String × TargetStatusStage) :=
  [("optimizer", optimizer), ("merge", merge), ("bench", bench)]

/-- The names of the delivery modes. -/
def DeliveryMode.variants : List (String × DeliveryMode) :=
  [("normal_pr", normalPr), ("consensus_poc_pr", consensusPocPr),
    ("consensus_issue", consensusIssue)]

/-- The version of a schema, which is a constant. -/
def readVersion (version : ℕ) (v : Json) : Fallible Unit := do
  let n ← readU64 v
  bailIf (2 ^ 32 ≤ n) "invalid value, expected u32"
  bailIf (n ≠ version) s!"expected schema_version={version}, got {n}"

namespace SessionRange

variable (r : SessionRange)

/-- The fields of a range. -/
def names : List String := ["start_at", "count", "warmup", "filter", "network"]

/-- What is written in them; a field without a value is left out. -/
def toFields : List (String × Option Json) :=
  [("start_at", r.startAt.map nat), ("count", r.count.map nat), ("warmup", r.warmup.map nat),
    ("filter", r.filter.map string), ("network", some (string r.network))]

def toJson : Json := ofFields r.toFields

/-- A range is read from an object with these fields. -/
def ofJson (v : Json) : Fallible SessionRange := do
  let f ← fields names 5 v
  return {
    startAt := ← optional readU64 "start_at" f
    count := ← optional readU64 "count" f
    warmup := ← optional readU64 "warmup" f
    filter := ← optional readString "filter" f
    network := ← required readString "network" f }

end SessionRange

namespace TargetBench

variable (b : TargetBench)

/-- The fields of the measurements of a target. -/
def names : List String :=
  ["baseline_run_ids", "candidate_run_ids", "baseline_total_us", "candidate_total_us",
    "improvement_pct", "passes_noise_floor"]

/-- What is written in them. -/
def toFields : List (String × Option Json) :=
  [("baseline_run_ids", some (array (b.baselineRunIds.map ofInt))),
    ("candidate_run_ids", some (array (b.candidateRunIds.map ofInt))),
    ("baseline_total_us", some (ofInt b.baselineTotalUs)),
    ("candidate_total_us", some (ofInt b.candidateTotalUs)),
    ("improvement_pct", some (ofF64 b.improvementPct)),
    ("passes_noise_floor", some (bool b.passesNoiseFloor))]

def toJson : Json := ofFields b.toFields

/-- The measurements are read from an object with these fields. -/
def ofJson (v : Json) : Fallible TargetBench := do
  let f ← fields names 6 v
  return {
    baselineRunIds := ← required (readArray readI64) "baseline_run_ids" f
    candidateRunIds := ← required (readArray readI64) "candidate_run_ids" f
    baselineTotalUs := ← required readI64 "baseline_total_us" f
    candidateTotalUs := ← required readI64 "candidate_total_us" f
    improvementPct := ← required readF64 "improvement_pct" f
    passesNoiseFloor := ← required readBool "passes_noise_floor" f }

end TargetBench

namespace TargetRecord

variable (t : TargetRecord)

/-- The fields of a row. -/
def names : List String :=
  ["id", "family_id", "bucket", "delivery_mode", "status", "status_stage", "reason_code",
    "head_sha", "pr_url", "issue_url", "bench"]

/-- What is written in them. -/
def toFields : List (String × Option Json) :=
  [("id", some (string t.id)), ("family_id", some (string t.familyId)),
    ("bucket", some (string t.bucket)),
    ("delivery_mode", some (ofVariant DeliveryMode.variants t.deliveryMode)),
    ("status", some (ofVariant TargetStatus.variants t.status)),
    ("status_stage", t.statusStage.map (ofVariant TargetStatusStage.variants)),
    ("reason_code", t.reasonCode.map string), ("head_sha", t.headSha.map string),
    ("pr_url", t.prUrl.map string), ("issue_url", t.issueUrl.map string),
    ("bench", t.bench.map TargetBench.toJson)]

def toJson : Json := ofFields t.toFields

/-- A row is read from an object with these fields. -/
def ofJson (v : Json) : Fallible TargetRecord := do
  let f ← fields names 11 v
  return {
    id := ← required readString "id" f
    familyId := ← required readString "family_id" f
    bucket := ← required readString "bucket" f
    deliveryMode := ← required (readVariant DeliveryMode.variants) "delivery_mode" f
    status := ← required (readVariant TargetStatus.variants) "status" f
    statusStage := ← optional (readVariant TargetStatusStage.variants) "status_stage" f
    reasonCode := ← optional readString "reason_code" f
    headSha := ← optional readString "head_sha" f
    prUrl := ← optional readString "pr_url" f
    issueUrl := ← optional readString "issue_url" f
    bench := ← optional TargetBench.ofJson "bench" f }

end TargetRecord

namespace SessionRecord

variable (r : SessionRecord)

/-- The fields that every version has. -/
def coreFields : List (String × Option Json) :=
  [("kind", some (string "session_completed")), ("schema_version", some (nat 3)),
    ("id", some (string r.id)), ("artifact_branch", some (string r.artifactBranch)),
    ("artifact_sha", some (string r.artifactSha)), ("artifact_url", r.artifactUrl.map string),
    ("started_at", some (string r.startedAt)), ("finished_at", some (string r.finishedAt)),
    ("status", some (ofVariant SessionStatus.variants r.status)),
    ("failure_phase", r.failurePhase.map string),
    ("failure_reason", r.failureReason.map string),
    ("sbagent_version", some (string r.sbagentVersion)),
    ("sbagent_git_sha", r.sbagentGitSha.map string), ("range", some r.range.toJson),
    ("baseline_run_ids", some (array (r.baselineRunIds.map ofInt))),
    ("phase_durations_secs", some (ofMap ofF64 r.phaseDurationsSecs)),
    ("targets", some (array (r.targets.map TargetRecord.toJson)))]

/-- Where the source of the session came from. -/
def sourceFields : List (String × Option Json) :=
  [("source_url", r.sourceUrl.map string), ("source_branch", r.sourceBranch.map string),
    ("source_sha", r.sourceSha.map string), ("source_fetched_at", r.sourceFetchedAt.map string)]

/-- The fields of a record, without those of the source. -/
def coreNames : List String :=
  ["kind", "schema_version", "id", "artifact_branch", "artifact_sha", "artifact_url",
    "started_at", "finished_at", "status", "failure_phase", "failure_reason",
    "sbagent_version", "sbagent_git_sha", "range", "baseline_run_ids",
    "phase_durations_secs", "targets"]

/-- The fields of the source. -/
def sourceNames : List String :=
  ["source_url", "source_branch", "source_sha", "source_fetched_at"]

/-- All fields of a record. -/
def toFields : List (String × Option Json) := r.coreFields ++ r.sourceFields

/-- A record as JSON. -/
def toJson : Json := ofFields r.toFields

/-- A record, from what is under its names. -/
def ofGet (f : String → Option Json) : Fallible SessionRecord := do
  required (readVariant [("session_completed", ())]) "kind" f
  required (readVersion 3) "schema_version" f
  return {
    id := ← required readString "id" f
    artifactBranch := ← required readString "artifact_branch" f
    artifactSha := ← required readString "artifact_sha" f
    artifactUrl := ← optional readString "artifact_url" f
    startedAt := ← required readString "started_at" f
    finishedAt := ← required readString "finished_at" f
    status := ← required (readVariant SessionStatus.variants) "status" f
    failurePhase := ← optional readString "failure_phase" f
    failureReason := ← optional readString "failure_reason" f
    sbagentVersion := ← required readString "sbagent_version" f
    sbagentGitSha := ← optional readString "sbagent_git_sha" f
    range := ← required SessionRange.ofJson "range" f
    baselineRunIds := ← required (readArray readI64) "baseline_run_ids" f
    phaseDurationsSecs := ← required (readMap readF64) "phase_durations_secs" f
    targets := ← required (readArray TargetRecord.ofJson) "targets" f
    sourceUrl := ← optional readString "source_url" f
    sourceBranch := ← optional readString "source_branch" f
    sourceSha := ← optional readString "source_sha" f
    sourceFetchedAt := ← optional readString "source_fetched_at" f }

/-- A record of the third version. Of an array, only the source may be left out. -/
def ofJson (v : Json) : Fallible SessionRecord := do
  let f ← fields (coreNames ++ sourceNames) 17 v
  ofGet f

/-- A record without its source. -/
def withoutSource : SessionRecord :=
  { r with sourceUrl := none, sourceBranch := none, sourceSha := none, sourceFetchedAt := none }

end SessionRecord

/-- Writing JSON as a text, and parsing it. -/
structure JsonText where
  print : Json → String
  parse : String → Fallible Json

/-- How records are written and read in the ledger of sessions. -/
def JsonText.serde (text : JsonText) : Serde SessionRecord where
  toJson r := Except.ok (text.print r.toJson)
  fromStr := text.parse
  fromValue := SessionRecord.ofJson

/-! ## A record is read as it was written -/

/-- A number has 64 bits. -/
def FitsI64 (z : ℤ) : Prop := -2 ^ 63 ≤ z ∧ z < 2 ^ 63

/-- The numbers of a benchmark have 64 bits, and those with a fraction are finite. -/
structure TargetBench.Fits (b : TargetBench) : Prop where
  baselineRunIds : ∀ i ∈ b.baselineRunIds, FitsI64 i
  candidateRunIds : ∀ i ∈ b.candidateRunIds, FitsI64 i
  baselineTotalUs : FitsI64 b.baselineTotalUs
  candidateTotalUs : FitsI64 b.candidateTotalUs
  improvementPct : b.improvementPct.isFinite = true

/-- The numbers of a record have 64 bits, and those with a fraction are finite. -/
structure SessionRecord.Fits (r : SessionRecord) : Prop where
  baselineRunIds : ∀ i ∈ r.baselineRunIds, FitsI64 i
  phaseDurationsSecs : ∀ p ∈ r.phaseDurationsSecs.toList, p.snd.isFinite = true
  targets : ∀ t ∈ r.targets, ∀ b, t.bench = some b → b.Fits

section Reading

variable {get : String → Option Json} {name : String}

/-- A text that has to be there is read. -/
theorem required_string {s : String} (h : get name = some (string s)) :
    required readString name get = Except.ok s := required_of_some h

/-- A text is read if there is one. -/
theorem optional_string {o : Option String} (h : get name = o.map string) :
    optional readString name get = Except.ok o :=
  optional_of_map h fun _ _ => ⟨nofun, rfl⟩

/-- A count is read if there is one. -/
theorem optional_u64 {o : Option ℕ} (h : get name = o.map nat) :
    optional readU64 name get = Except.ok o :=
  optional_of_map h fun _ _ => ⟨nofun, rfl⟩

/-- A list of run ids is read. -/
theorem required_i64s {l : List ℤ} (h : get name = some (array (l.map ofInt)))
    (hfits : ∀ i ∈ l, FitsI64 i) : required (readArray readI64) name get = Except.ok l := by
  rw [required_of_some h, readArray_map fun i hi => readI64_ofInt (hfits i hi).right]

/-- The status of a session is read back. -/
theorem SessionStatus.read_variant (s : SessionStatus) :
    readVariant variants (ofVariant variants s) = Except.ok s := by
  cases s <;> rfl

/-- The status of a target is read back. -/
theorem TargetStatus.read_variant (s : TargetStatus) :
    readVariant variants (ofVariant variants s) = Except.ok s := by
  cases s <;> rfl

/-- The stage of a target is read back. -/
theorem TargetStatusStage.read_variant (s : TargetStatusStage) :
    readVariant variants (ofVariant variants s) = Except.ok s := by
  cases s <;> rfl

/-- A delivery mode is read back. -/
theorem DeliveryMode.read_variant (m : DeliveryMode) :
    readVariant variants (ofVariant variants m) = Except.ok m := by
  cases m <;> rfl

/-- The fields of a structure that was written. -/
theorem fields_toJson {names : List String} {positional : ℕ} {fs : List (String × Option Json)}
    (hnames : fs.map Prod.fst = names) (h : names.Nodup) :
    fields names positional (ofFields fs) = Except.ok fun name => (fs.lookup name).join := by
  subst hnames
  have hget : (ofFields fs).get = fun name => (fs.lookup name).join :=
    funext fun name => get_ofFields h name
  rw [← hget]
  refine fields_of_get rfl fun name hname => mem_of_lookup_isSome ?_
  rw [← get_ofFields h]
  exact hname

/-- A range is read back. -/
theorem SessionRange.ofJson_toJson (r : SessionRange) : ofJson r.toJson = Except.ok r := by
  have hfields : fields names 5 r.toJson = Except.ok fun name => (r.toFields.lookup name).join :=
    fields_toJson rfl (by decide)
  refine bind_ok_iff.mpr ⟨_, hfields, ?_⟩
  generalize hf : (fun name => (r.toFields.lookup name).join) = f
  have hstart : optional readU64 "start_at" f = Except.ok r.startAt := optional_u64 (hf ▸ rfl)
  have hcount : optional readU64 "count" f = Except.ok r.count := optional_u64 (hf ▸ rfl)
  have hwarmup : optional readU64 "warmup" f = Except.ok r.warmup := optional_u64 (hf ▸ rfl)
  have hfilter : optional readString "filter" f = Except.ok r.filter := optional_string (hf ▸ rfl)
  have hnetwork : required readString "network" f = Except.ok r.network :=
    required_string (hf ▸ rfl)
  simp only [hstart, hcount, hwarmup, hfilter, hnetwork]
  rfl

/-- Measurements whose numbers fit are read back. -/
theorem TargetBench.ofJson_toJson {b : TargetBench} (h : b.Fits) :
    ofJson b.toJson = Except.ok b := by
  have hfields : fields names 6 b.toJson = Except.ok fun name => (b.toFields.lookup name).join :=
    fields_toJson rfl (by decide)
  refine bind_ok_iff.mpr ⟨_, hfields, ?_⟩
  generalize hf : (fun name => (b.toFields.lookup name).join) = f
  have hbaseline : required (readArray readI64) "baseline_run_ids" f
      = Except.ok b.baselineRunIds := required_i64s (hf ▸ rfl) h.baselineRunIds
  have hcandidate : required (readArray readI64) "candidate_run_ids" f
      = Except.ok b.candidateRunIds := required_i64s (hf ▸ rfl) h.candidateRunIds
  have hbaselineTotal : required readI64 "baseline_total_us" f = Except.ok b.baselineTotalUs :=
    (required_of_some (hf ▸ rfl)).trans (readI64_ofInt h.baselineTotalUs.right)
  have hcandidateTotal : required readI64 "candidate_total_us" f
      = Except.ok b.candidateTotalUs :=
    (required_of_some (hf ▸ rfl)).trans (readI64_ofInt h.candidateTotalUs.right)
  have himprovement : required readF64 "improvement_pct" f = Except.ok b.improvementPct :=
    (required_of_some (hf ▸ rfl)).trans (readF64_ofF64 h.improvementPct)
  have hpasses : required readBool "passes_noise_floor" f = Except.ok b.passesNoiseFloor :=
    required_of_some (v := bool b.passesNoiseFloor) (hf ▸ rfl)
  simp only [hbaseline, hcandidate, hbaselineTotal, hcandidateTotal, himprovement, hpasses]
  rfl

/-- A row whose measurements fit is read back. -/
theorem TargetRecord.ofJson_toJson {t : TargetRecord} (h : ∀ b, t.bench = some b → b.Fits) :
    ofJson t.toJson = Except.ok t := by
  have hfields : fields names 11 t.toJson = Except.ok fun name => (t.toFields.lookup name).join :=
    fields_toJson rfl (by decide)
  refine bind_ok_iff.mpr ⟨_, hfields, ?_⟩
  generalize hf : (fun name => (t.toFields.lookup name).join) = f
  have hid : required readString "id" f = Except.ok t.id := required_string (hf ▸ rfl)
  have hfamily : required readString "family_id" f = Except.ok t.familyId :=
    required_string (hf ▸ rfl)
  have hbucket : required readString "bucket" f = Except.ok t.bucket :=
    required_string (hf ▸ rfl)
  have hmode : required (readVariant DeliveryMode.variants) "delivery_mode" f
      = Except.ok t.deliveryMode :=
    (required_of_some (hf ▸ rfl)).trans t.deliveryMode.read_variant
  have hstatus : required (readVariant TargetStatus.variants) "status" f
      = Except.ok t.status := (required_of_some (hf ▸ rfl)).trans t.status.read_variant
  have hstageField : f "status_stage"
      = t.statusStage.map (ofVariant TargetStatusStage.variants) := hf ▸ rfl
  have hstage : optional (readVariant TargetStatusStage.variants) "status_stage" f
      = Except.ok t.statusStage :=
    optional_of_map hstageField fun s _ => ⟨nofun, s.read_variant⟩
  have hreason : optional readString "reason_code" f = Except.ok t.reasonCode :=
    optional_string (hf ▸ rfl)
  have hhead : optional readString "head_sha" f = Except.ok t.headSha :=
    optional_string (hf ▸ rfl)
  have hpr : optional readString "pr_url" f = Except.ok t.prUrl := optional_string (hf ▸ rfl)
  have hissue : optional readString "issue_url" f = Except.ok t.issueUrl :=
    optional_string (hf ▸ rfl)
  have hbenchField : f "bench" = t.bench.map TargetBench.toJson := hf ▸ rfl
  have hbench : optional TargetBench.ofJson "bench" f = Except.ok t.bench :=
    optional_of_map hbenchField fun b hb => ⟨nofun, TargetBench.ofJson_toJson (h b hb)⟩
  simp only [hid, hfamily, hbucket, hmode, hstatus, hstage, hreason, hhead, hpr, hissue, hbench]
  rfl

/-- **A record is what is under its names.** -/
theorem SessionRecord.ofGet_toFields {r : SessionRecord} (h : r.Fits)
    {f : String → Option Json} (hf : ∀ name, f name = (r.toFields.lookup name).join) :
    ofGet f = Except.ok r := by
  have hkind : required (readVariant [("session_completed", ())]) "kind" f = Except.ok () :=
    (required_of_some (v := string "session_completed") (hf _)).trans rfl
  have hversion : required (readVersion 3) "schema_version" f = Except.ok () :=
    required_of_some (v := nat 3) (hf _)
  have hid : required readString "id" f = Except.ok r.id := required_string (hf _)
  have hbranch : required readString "artifact_branch" f = Except.ok r.artifactBranch :=
    required_string (hf _)
  have hsha : required readString "artifact_sha" f = Except.ok r.artifactSha :=
    required_string (hf _)
  have hurl : optional readString "artifact_url" f = Except.ok r.artifactUrl :=
    optional_string (hf _)
  have hstarted : required readString "started_at" f = Except.ok r.startedAt :=
    required_string (hf _)
  have hfinished : required readString "finished_at" f = Except.ok r.finishedAt :=
    required_string (hf _)
  have hstatus : required (readVariant SessionStatus.variants) "status" f
      = Except.ok r.status := (required_of_some (hf _)).trans r.status.read_variant
  have hphase : optional readString "failure_phase" f = Except.ok r.failurePhase :=
    optional_string (hf _)
  have hreason : optional readString "failure_reason" f = Except.ok r.failureReason :=
    optional_string (hf _)
  have hbot : required readString "sbagent_version" f = Except.ok r.sbagentVersion :=
    required_string (hf _)
  have hbotSha : optional readString "sbagent_git_sha" f = Except.ok r.sbagentGitSha :=
    optional_string (hf _)
  have hrange : required SessionRange.ofJson "range" f = Except.ok r.range :=
    (required_of_some (hf _)).trans r.range.ofJson_toJson
  have hruns : required (readArray readI64) "baseline_run_ids" f = Except.ok r.baselineRunIds :=
    required_i64s (hf _) h.baselineRunIds
  have hphases : required (readMap readF64) "phase_durations_secs" f
      = Except.ok r.phaseDurationsSecs :=
    (required_of_some (hf _)).trans
      (readMap_ofMap fun p hp => readF64_ofF64 (h.phaseDurationsSecs p hp))
  have htargets : required (readArray TargetRecord.ofJson) "targets" f = Except.ok r.targets :=
    (required_of_some (hf _)).trans
      (readArray_map fun t ht => TargetRecord.ofJson_toJson (h.targets t ht))
  have hsource : optional readString "source_url" f = Except.ok r.sourceUrl :=
    optional_string (hf _)
  have hsourceBranch : optional readString "source_branch" f = Except.ok r.sourceBranch :=
    optional_string (hf _)
  have hsourceSha : optional readString "source_sha" f = Except.ok r.sourceSha :=
    optional_string (hf _)
  have hsourceFetched : optional readString "source_fetched_at" f
      = Except.ok r.sourceFetchedAt := optional_string (hf _)
  unfold ofGet
  simp only [hkind, hversion, hid, hbranch, hsha, hurl, hstarted, hfinished, hstatus, hphase,
    hreason, hbot, hbotSha, hrange, hruns, hphases, htargets, hsource, hsourceBranch,
    hsourceSha, hsourceFetched]
  rfl

end Reading

/-! ## The three versions -/

namespace SessionRecord

/-- A line of an older version, as it is read as one of the third. -/
def promote (v : Json) : Json :=
  (v.insert "schema_version" (nat 3)).remove "stacks_core_base_sha"

/-- An object has the fields of another one, but for those with some names. -/
structure AgreesBut (names : List String) (v w : Json) : Prop where
  isObject : v.isObject = true
  get_eq : ∀ name, name ∉ names → v.get name = w.get name

/-- A record in the second version, with the field that is gone or without it. -/
structure IsV2 (r : SessionRecord) (v : Json) : Prop where
  fields : AgreesBut ["schema_version", "stacks_core_base_sha"] v r.toJson
  version : v.get "schema_version" = some (nat 2)

/-- A record in the first version, which need not be named. -/
structure IsV1 (r : SessionRecord) (v : Json) : Prop where
  fields : AgreesBut ("schema_version" :: sourceNames) v r.toJson
  version : v.get "schema_version" = some (nat 1) ∨ v.get "schema_version" = none
  source : ∀ name ∈ sourceNames, v.get name = none

section Versions

variable {r : SessionRecord} {text : JsonText} {line : String} {v : Json}

/-- What stands in a field of a record. -/
theorem get_toJson (r : SessionRecord) (name : String) :
    r.toJson.get name = (r.toFields.lookup name).join := by
  refine get_ofFields ?_ name
  show (coreNames ++ sourceNames).Nodup
  decide

/-- What is read of an object depends on its fields alone. -/
theorem ofJson_of_get (h : r.Fits) (hv : v.isObject = true)
    (hget : ∀ name, v.get name = r.toJson.get name) : ofJson v = Except.ok r := by
  refine bind_ok_iff.mpr ⟨v.get, fields_of_get hv fun name hname => ?_,
    ofGet_toFields h fun name => (hget name).trans (r.get_toJson name)⟩
  rw [hget, get_toJson] at hname
  exact mem_of_lookup_isSome hname

/-- What promoting an older record does to its fields. -/
theorem get_promote (hv : v.isObject = true) (name : String) :
    (promote v).get name = if name = "stacks_core_base_sha" then none
      else if name = "schema_version" then some (nat 3) else v.get name := by
  unfold promote
  rw [get_remove, get_insert hv]

theorem isObject_promote (hv : v.isObject = true) : (promote v).isObject = true :=
  isObject_remove (isObject_insert hv)

theorem get_toJson_version (r : SessionRecord) : r.toJson.get "schema_version" = some (nat 3) :=
  r.get_toJson _

theorem get_toJson_base (r : SessionRecord) : r.toJson.get "stacks_core_base_sha" = none :=
  r.get_toJson _

/-- A record without a source has none of the fields of one. -/
theorem get_toJson_source (r : SessionRecord) {name : String} (h : name ∈ sourceNames) :
    r.withoutSource.toJson.get name = none := by
  rw [get_toJson]
  unfold sourceNames at h
  simp only [List.mem_cons, List.not_mem_nil, or_false] at h
  obtain rfl | rfl | rfl | rfl := h <;> rfl

/-- And is the same in all others. -/
theorem get_withoutSource (r : SessionRecord) {name : String} (h : name ∉ sourceNames) :
    r.withoutSource.toJson.get name = r.toJson.get name := by
  have hsource : ∀ r : SessionRecord, r.sourceFields.lookup name = none := fun r => lookup_eq_none h
  rw [get_toJson, get_toJson]
  unfold toFields
  rw [List.lookup_append, List.lookup_append, hsource, hsource]
  rfl

/-- A line of the second version becomes the record. -/
theorem IsV2.get_promote (h : IsV2 r v) (name : String) :
    (promote v).get name = r.toJson.get name := by
  rw [SessionRecord.get_promote h.fields.isObject]
  split_ifs with hbase hversion
  · rw [hbase, get_toJson_base]
  · rw [hversion, get_toJson_version]
  · exact h.fields.get_eq name (by simp [hbase, hversion])

/-- A line of the first version becomes the record without its source. -/
theorem IsV1.get_promote (h : IsV1 r v) (name : String) :
    (promote v).get name = r.withoutSource.toJson.get name := by
  rw [SessionRecord.get_promote h.fields.isObject]
  split_ifs with hbase hversion
  · rw [hbase, get_toJson_base]
  · rw [hversion, get_toJson_version]
  · by_cases hsource : name ∈ sourceNames
    · rw [h.source name hsource, get_toJson_source r hsource]
    · rw [get_withoutSource r hsource]
      refine h.fields.get_eq name ?_
      rw [List.mem_cons, not_or]
      exact ⟨hversion, hsource⟩

/-- It fits if the record does. -/
theorem Fits.withoutSource (h : r.Fits) : r.withoutSource.Fits :=
  ⟨h.baselineRunIds, h.phaseDurationsSecs, h.targets⟩

/-- How a line is read, by the version that it says it is of. -/
theorem fromLedgerLine_ok_iff (h : text.parse line = Except.ok v) :
    fromLedgerLine text.serde line = Except.ok r
      ↔ ((v.schemaVersion = 1 ∨ v.schemaVersion = 2) ∧ ofJson (promote v) = Except.ok r)
        ∨ (v.schemaVersion = 3 ∧ ofJson v = Except.ok r) := by
  have hparse : text.serde.fromStr line = Except.ok v := h
  have hvalue : text.serde.fromValue = ofJson := rfl
  have hpromote : ofJson ((v.insert "schema_version" (nat 3)).remove "stacks_core_base_sha")
      = ofJson (promote v) := rfl
  unfold fromLedgerLine
  rw [hparse]
  dsimp only
  rw [hvalue, hpromote]
  split
  case h_1 hversion =>
    rw [hversion]
    cases ofJson (promote v) <;> simp
  case h_2 hversion =>
    rw [hversion]
    cases ofJson (promote v) <;> simp
  case h_3 hversion =>
    rw [hversion]
    cases ofJson v <;> simp
  case h_4 hone htwo hthree =>
    refine iff_of_false bail_ne_ok.mp ?_
    rintro (⟨hversion | hversion, -⟩ | ⟨hversion, -⟩)
    · exact hone hversion
    · exact htwo hversion
    · exact hthree hversion

/-- A line has another version than the three. -/
def OtherVersion (v : Json) : Prop :=
  ∃ w, v.get "schema_version" = some w ∧ w ≠ nat 1 ∧ w ≠ nat 2 ∧ w ≠ nat 3

/-- The version of a line, if it has one, is a number that is not negative; or the line is
no record, whatever its version is. -/
def Refusable (v : Json) : Prop :=
  (∀ w, v.get "schema_version" = some w → w.asU64.isSome = true)
    ∨ (ofJson (promote v)).isOk = false

/-- The version is what stands in its field, or 1. -/
theorem schemaVersion_of_get {w : Json} (h : v.get "schema_version" = some w) :
    v.schemaVersion = w.asU64.getD 1 := by
  unfold schemaVersion
  rw [h, Option.bind_some]

/-- **A line of another version is refused** exactly when its version can be told, or when
it is no record in any case. -/
theorem refused_iff (h : text.parse line = Except.ok v) :
    (OtherVersion v → (fromLedgerLine text.serde line).isOk = false)
      ↔ OtherVersion v → Refusable v := by
  refine imp_congr_right fun ⟨w, hw, hone, htwo, hthree⟩ => ?_
  constructor
  · intro hrefused
    by_contra hnot
    obtain ⟨hversion, hok⟩ := not_or.mp hnot
    obtain ⟨r, hr⟩ := isOk_iff.mp (Bool.not_eq_false _ ▸ hok)
    have hnone : w.asU64 = none := by
      by_contra hsome
      refine hversion fun w' hw' => ?_
      rw [← Option.some.inj (hw.symm.trans hw')]
      exact Option.isSome_iff_ne_none.mpr hsome
    have hread : fromLedgerLine text.serde line = Except.ok r := by
      refine (fromLedgerLine_ok_iff h).mpr (Or.inl ⟨Or.inl ?_, hr⟩)
      rw [schemaVersion_of_get hw, hnone, Option.getD_none]
    rw [hread] at hrefused
    cases hrefused
  · intro hrefusable
    by_contra hok
    obtain ⟨r, hr⟩ := isOk_iff.mp (Bool.not_eq_false _ ▸ hok)
    obtain ⟨hversion, hpromoted⟩ | ⟨hversion, -⟩ := (fromLedgerLine_ok_iff h).mp hr
    · obtain hnumber | hnone := hrefusable
      · obtain ⟨n, hn⟩ := Option.isSome_iff_exists.mp (hnumber w hw)
        obtain rfl := asU64_eq_some_iff.mp hn
        rw [schemaVersion_of_get hw, hn, Option.getD_some] at hversion
        obtain rfl | rfl := hversion
        · exact hone rfl
        · exact htwo rfl
      · rw [hpromoted] at hnone
        cases hnone
    · cases hn : w.asU64 with
      | none =>
        rw [schemaVersion_of_get hw, hn] at hversion
        cases hversion
      | some n =>
        obtain rfl := asU64_eq_some_iff.mp hn
        rw [schemaVersion_of_get hw, hn, Option.getD_some] at hversion
        exact hthree (hversion ▸ rfl)

/-- **Compatibility of the ledger of sessions**: a record is read back from its line, from
its line in the second version, and, without its source, from its line in the first; and a
line of another version is refused exactly when its version can be told, or when it is no
record in any case. -/
theorem fromLedgerLine_compatible (text : JsonText) :
    (∀ r : SessionRecord, r.Fits → text.parse (text.print r.toJson) = Except.ok r.toJson →
      fromLedgerLine text.serde (text.print r.toJson) = Except.ok r)
    ∧ (∀ (r : SessionRecord) line v, r.Fits → text.parse line = Except.ok v → IsV2 r v →
      fromLedgerLine text.serde line = Except.ok r)
    ∧ (∀ (r : SessionRecord) line v, r.Fits → text.parse line = Except.ok v → IsV1 r v →
      fromLedgerLine text.serde line = Except.ok r.withoutSource)
    ∧ ∀ line v, text.parse line = Except.ok v →
      ((OtherVersion v → (fromLedgerLine text.serde line).isOk = false)
        ↔ OtherVersion v → Refusable v) := by
  refine ⟨fun r hfits hparse => ?_, fun r line v hfits hparse hv => ?_,
    fun r line v hfits hparse hv => ?_, fun line v hparse => refused_iff hparse⟩
  · refine (fromLedgerLine_ok_iff hparse).mpr (Or.inr ⟨?_, ofJson_of_get hfits rfl fun _ => rfl⟩)
    rw [schemaVersion_of_get r.get_toJson_version]
    rfl
  · refine (fromLedgerLine_ok_iff hparse).mpr (Or.inl ⟨Or.inr ?_, ?_⟩)
    · rw [schemaVersion_of_get hv.version]
      rfl
    · exact ofJson_of_get hfits (isObject_promote hv.fields.isObject) hv.get_promote
  · refine (fromLedgerLine_ok_iff hparse).mpr (Or.inl ⟨Or.inl ?_, ?_⟩)
    · obtain hone | hnone := hv.version
      · rw [schemaVersion_of_get hone]
        rfl
      · unfold schemaVersion
        rw [hnone]
        rfl
    · exact ofJson_of_get hfits.withoutSource (isObject_promote hv.fields.isObject) hv.get_promote

end Versions

/-! ## A record in all versions -/

section Demo

variable {r : SessionRecord}

/-- A text that is the only one that can be parsed. -/
def lineText (line : String) (v : Json) : JsonText where
  print _ := line
  parse l := if l = line then Except.ok v else bail "expected value"

/-- A line is parsed as the value that it is the text of. -/
theorem lineText_parse (line : String) (v : Json) : (lineText line v).parse line = Except.ok v :=
  if_pos rfl

/-- The version of a record is set, and nothing else. -/
theorem get_setVersion (r : SessionRecord) (version : Json) (name : String) :
    (r.toJson.insert "schema_version" version).get name
      = if name = "schema_version" then some version else r.toJson.get name :=
  get_insert rfl

/-- A record in the second version of the schema. -/
theorem isV2_insert (r : SessionRecord) (base : Json) :
    IsV2 r ((r.toJson.insert "schema_version" (nat 2)).insert "stacks_core_base_sha" base) := by
  have hobject : (r.toJson.insert "schema_version" (nat 2)).isObject = true := isObject_insert rfl
  refine ⟨⟨isObject_insert hobject, fun name hname => ?_⟩, ?_⟩
  · simp only [List.mem_cons, List.not_mem_nil, or_false, not_or] at hname
    rw [get_insert hobject, if_neg hname.right, get_setVersion, if_neg hname.left]
  · rw [get_insert hobject, if_neg (by decide), get_setVersion, if_pos rfl]

/-- A record without a source in the first one. -/
theorem isV1_insert (h : r.withoutSource = r) :
    IsV1 r (r.toJson.insert "schema_version" (nat 1)) := by
  refine ⟨⟨isObject_insert rfl, fun name hname => ?_⟩, Or.inl ?_, fun name hname => ?_⟩
  · rw [List.mem_cons, not_or] at hname
    rw [get_setVersion, if_neg hname.left]
  · rw [get_setVersion, if_pos rfl]
  · have hversion : name ≠ "schema_version" := by
      rintro rfl
      revert hname
      decide
    rw [get_setVersion, if_neg hversion, ← h]
    exact get_toJson_source r hname

/-- The line of a session that failed in triage, with a version and with more at its end. -/
def failedLine (version more : String) : String :=
  "\x7b\"kind\":\"session_completed\",\"schema_version\":" ++ version
    ++ ",\"id\":\"20260611-172955\","
    ++ "\"artifact_branch\":\"session/20260611-172955\",\"artifact_sha\":\"cafebabe\","
    ++ "\"started_at\":\"2026-06-11T17:29:55Z\",\"finished_at\":\"2026-06-11T18:00:00Z\","
    ++ "\"status\":\"failed\",\"failure_phase\":\"triage\",\"sbagent_version\":\"0.3.0\","
    ++ "\"range\":\x7b\"network\":\"mainnet\"\x7d,\"baseline_run_ids\":[],"
    ++ "\"phase_durations_secs\":\x7b\x7d,\"targets\":[]" ++ more ++ "\x7d"

/-- The line in the second version. -/
def failedV2Line : String := failedLine "2" ",\"stacks_core_base_sha\":\"f4cab0a0\""

/-- The session that failed, in the second version. -/
def failedV2 : JsonText :=
  lineText failedV2Line ((failedInTriage.toJson.insert "schema_version" (nat 2)).insert
    "stacks_core_base_sha" (string "f4cab0a0"))

/-- The line in the first version. -/
def failedV1Line : String := failedLine "1" ""

/-- The same without a source, in the first version. -/
def failedV1 : JsonText :=
  lineText failedV1Line (failedInTriage.toJson.insert "schema_version" (nat 1))

theorem failedInTriage_fits : failedInTriage.Fits where
  baselineRunIds _ h := by cases h
  phaseDurationsSecs := by decide +kernel
  targets _ h := by cases h

/-- The line of a session that failed is read in all three versions. -/
theorem fromLedgerLine_compatible_failedInTriage :
    fromLedgerLine (lineText failedInTriageText failedInTriage.toJson).serde failedInTriageText
        = Except.ok failedInTriage
      ∧ fromLedgerLine failedV2.serde failedV2Line = Except.ok failedInTriage
      ∧ fromLedgerLine failedV1.serde failedV1Line = Except.ok failedInTriage := by
  refine ⟨?_, ?_, ?_⟩
  · exact (fromLedgerLine_compatible (lineText failedInTriageText failedInTriage.toJson)).left
      failedInTriage failedInTriage_fits (lineText_parse _ _)
  · exact (fromLedgerLine_compatible failedV2).right.left failedInTriage failedV2Line _
      failedInTriage_fits (lineText_parse _ _) (isV2_insert _ _)
  · exact (fromLedgerLine_compatible failedV1).right.right.left failedInTriage failedV1Line _
      failedInTriage_fits (lineText_parse _ _) (isV1_insert rfl)

/-- **A version that is a text is taken for the first one.** -/
theorem not_refused_of_text :
    ¬ ∀ (text : JsonText) (line : String) (v : Json), text.parse line = Except.ok v →
      OtherVersion v → (fromLedgerLine text.serde line).isOk = false := by
  intro h
  let v := failedInTriage.toJson.insert "schema_version" (string "4")
  have hversion : v.get "schema_version" = some (string "4") := by
    rw [get_setVersion, if_pos rfl]
  have hparse := lineText_parse (failedLine "\"4\"" "") v
  have hread : fromLedgerLine (lineText (failedLine "\"4\"" "") v).serde (failedLine "\"4\"" "")
      = Except.ok failedInTriage := by
    refine (fromLedgerLine_ok_iff hparse).mpr (Or.inl ⟨Or.inl ?_, ?_⟩)
    · rw [schemaVersion_of_get hversion]
      rfl
    · refine ofJson_of_get failedInTriage_fits (isObject_promote (isObject_insert rfl))
        fun name => ?_
      rw [get_promote (isObject_insert rfl), get_setVersion]
      split_ifs with hbase hname
      · rw [hbase, get_toJson_base]
      · rw [hname, get_toJson_version]
      · rfl
  have hrefused := h _ _ v hparse ⟨string "4", hversion, nofun, nofun, nofun⟩
  rw [hread] at hrefused
  cases hrefused

end Demo

end SessionRecord
