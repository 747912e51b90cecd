import Sbagent.Common

/-!
# Linting the prompts

A prompt is a template, and what it says about the shape of an agent's output it says by an
example. An operator may edit both. So before a session starts the templates are rendered
with made-up values, and the examples that are marked as such are checked against the schemas
that the outputs will be checked against.

A marker is a line, with white space around it perhaps, and behind blank lines the example
follows in a fence of its own. What stands in a fence behind a marker is not looked at for
markers, and whatever is not marked is skipped. A linter that gives up or starts again at
the wrong line passes over an example; this one passes exactly the texts in which every
marker has its fence and every example is valid (`checkExampleFences_eq_nil_iff`).

Templates, JSON and schemas are read by libraries, which are parameters here.
-/

open Fallible

namespace Prompts

/-! ## Markers -/

/-- The name between two quotes of a kind, the first of which was read. -/
def untilQuote (quote : Char) (cs : List Char) : Option String :=
  if quote ∈ cs then some (String.ofList (cs.takeWhile fun c => c ≠ quote)) else none

/-- The name of the schema in a marker. -/
def parseExampleMarker (line : String) : Option String := do
  let comment ← Text.stripPrefix (Text.trim line).toList "<!--".toList
  let comment ← Text.stripSuffix comment "-->".toList
  let keyword ← Text.stripPrefix (Text.trim (String.ofList comment)).toList
    "lint:example".toList
  let schema ← Text.stripPrefix (keyword.dropWhile Text.isWhiteSpace) "schema=".toList
  match schema.dropWhile Text.isWhiteSpace with
  | '"' :: name => untilQuote '"' name
  | '\'' :: name => untilQuote '\'' name
  | _ => none

example : parseExampleMarker "  <!-- lint:example  schema= 'candidates'--> "
    = some "candidates" := by
  decide +kernel

/-! ## Findings -/

/-- One issue. -/
structure LintFinding where
  template : String
  message : String
  deriving DecidableEq

/-- The libraries that read templates, JSON and schemas, and the schemas of the bundle. -/
structure LintTools where
  Template : Type
  Value : Type
  templateFromStr : String → Except String Template
  /-- Render a template with the made-up values for the prompt in a file. -/
  render : Template → String → Except String String
  fromStr : String → Except String Value
  /-- Compile a schema to what it finds wrong with a value. -/
  compile : String → Except String (Value → List String)
  bundledSchemas : List (String × String)

namespace LintTools

variable (tools : LintTools)

/-- What is wrong with the body of an example, whose marker and fence are on the given
lines. -/
def checkBody (markerLine fenceLine : ℕ) (schemaName body : String) : Option String :=
  match tools.bundledSchemas.lookup s!"{schemaName}.schema.json" with
  | none => some (s!"lint:example schema=\"{schemaName}\" on line {markerLine} does not match "
      ++ "any bundled schema")
  | some schemaSrc =>
    match tools.fromStr body with
    | Except.error e => some (s!"lint:example fence on line {fenceLine} "
        ++ s!"(schema=\"{schemaName}\") is not parseable JSON: {e}")
    | Except.ok value =>
      match tools.compile schemaSrc with
      | Except.error e => some (s!"lint:example schema=\"{schemaName}\" failed to compile "
          ++ s!"bundled schema: {e}")
      | Except.ok validate =>
        if validate value = [] then none
        else some (s!"lint:example schema=\"{schemaName}\" (line {fenceLine}) failed "
          ++ "validation: " ++ "; ".intercalate (validate value))

/-- An example is one of the schema with a name. -/
def IsValid (schemaName body : String) : Prop :=
  ∃ schemaSrc value validate, tools.bundledSchemas.lookup s!"{schemaName}.schema.json"
      = some schemaSrc
    ∧ tools.fromStr body = Except.ok value ∧ tools.compile schemaSrc = Except.ok validate
    ∧ validate value = []

theorem checkBody_eq_none_iff {markerLine fenceLine : ℕ} {schemaName body : String} :
    tools.checkBody markerLine fenceLine schemaName body = none
      ↔ tools.IsValid schemaName body := by
  unfold checkBody IsValid
  cases hschema : tools.bundledSchemas.lookup s!"{schemaName}.schema.json" with
  | none => simp
  | some schemaSrc =>
    cases hvalue : tools.fromStr body with
    | error e => simp
    | ok value =>
      cases hvalidate : tools.compile schemaSrc with
      | error e => simp [hvalidate]
      | ok validate => simp [hvalidate]

end LintTools

/-! ## The scan -/

def isFence (line : String) : Bool := Text.trim line = "```json"

def isFenceEnd (line : String) : Bool := Text.trim line = "```"

/-- What is said of a marker without a fence. -/
def danglingMessage (markerLine : ℕ) (schemaName : String) : String :=
  s!"lint:example marker on line {markerLine} (schema=\"{schemaName}\") is not "
    ++ "immediately followed by a ```json fence"

/-- What is said of a fence that stays open. -/
def openMessage (fenceLine : ℕ) (schemaName : String) : String :=
  s!"lint:example fence opened on line {fenceLine} (schema=\"{schemaName}\") never closes"

/-- Behind the opening line of a fence: what is wrong with the example, where to go on, and
the lines there. -/
def scanFence (tools : LintTools) (i j : ℕ) (schemaName : String) (behind : List String) :
    List String × ℕ × List String :=
  let body := behind.takeWhile fun line => !isFenceEnd line
  match behind.dropWhile fun line => !isFenceEnd line with
  | [] => ([openMessage (j + 1) schemaName], j + 1 + body.length, [])
  | _ :: after =>
    ((tools.checkBody (i + 1) (j + 1) schemaName ("\n".intercalate body)).toList,
      j + 1 + body.length + 1, after)

/-- Behind a marker: the same. A marker without a fence is passed over, and what stands where
the fence should be is looked at again. -/
def scanMarker (tools : LintTools) (i : ℕ) (schemaName : String) (rest : List String) :
    List String × ℕ × List String :=
  let j := i + 1 + (rest.takeWhile Text.isBlank).length
  match rest.dropWhile Text.isBlank with
  | [] => ([danglingMessage (i + 1) schemaName], j, [])
  | opener :: behind =>
    if isFence opener then scanFence tools i j schemaName behind
    else ([danglingMessage (i + 1) schemaName], j, opener :: behind)

/-- What is wrong with the examples in the lines of a text from the line `i` on, counted from
zero, in so many rounds. -/
def messagesFrom (tools : LintTools) : ℕ → ℕ → List String → List String
  | 0, _, _ => []
  | _ + 1, _, [] => []
  | fuel + 1, i, line :: rest =>
    match parseExampleMarker line with
    | none => messagesFrom tools fuel (i + 1) rest
    | some schemaName =>
      let (messages, i, rest) := scanMarker tools i schemaName rest
      messages ++ messagesFrom tools fuel i rest

/-- A round reads at least a line, so that there are no more rounds than lines. -/
def checkExampleFences (tools : LintTools) (template rendered : String) : List LintFinding :=
  (messagesFrom tools (Text.lines rendered).length 0 (Text.lines rendered)).map
    fun message => ⟨template, message⟩

/-! ## What passes -/

/-- The lines of a fence behind its opening line, up to where it ends. -/
structure IsExample (tools : LintTools) (schemaName : String) (body : List String)
    (closer : String) : Prop where
  inside : ∀ line ∈ body, isFenceEnd line = false
  closes : isFenceEnd closer = true
  valid : tools.IsValid schemaName ("\n".intercalate body)

/-- Every marker has its fence, and every example is valid. -/
inductive Clean (tools : LintTools) : List String → Prop where
  | nil : Clean tools []
  | text {line : String} {rest : List String} (hmarker : parseExampleMarker line = none)
      (hrest : Clean tools rest) : Clean tools (line :: rest)
  | marked {line schemaName opener closer : String} {blank body rest : List String}
      (hmarker : parseExampleMarker line = some schemaName)
      (hblank : ∀ l ∈ blank, Text.isBlank l = true) (hopener : isFence opener = true)
      (hexample : IsExample tools schemaName body closer) (hrest : Clean tools rest) :
      Clean tools (line :: (blank ++ opener :: (body ++ closer :: rest)))

section Scan

variable {tools : LintTools} {i j : ℕ} {schemaName : String}

theorem dropWhile_append_cons {α : Type} {p : α → Bool} {front l : List α} {a : α}
    (hfront : ∀ b ∈ front, p b = true) (ha : p a = false) :
    (front ++ a :: l).takeWhile p = front ∧ (front ++ a :: l).dropWhile p = a :: l := by
  have ha' : ¬ p a = true := by simp [ha]
  rw [List.takeWhile_append_of_pos hfront, List.dropWhile_append_of_pos hfront,
    List.takeWhile_cons_of_neg ha', List.dropWhile_cons_of_neg ha', List.append_nil]
  exact ⟨rfl, rfl⟩

theorem dropWhile_eq_cons {α : Type} {p : α → Bool} {l rest : List α} {a : α}
    (h : l.dropWhile p = a :: rest) :
    l = l.takeWhile p ++ a :: rest ∧ p a = false := by
  refine ⟨by rw [← h, List.takeWhile_append_dropWhile], ?_⟩
  have hhead := List.head?_dropWhile_not p l
  rw [h] at hhead
  simpa using hhead

/-- A line that opens a fence is not a blank one. -/
theorem not_isBlank_of_isFence {line : String} (h : isFence line = true) :
    Text.isBlank line = false := by
  rw [isFence, decide_eq_true_iff] at h
  rw [Bool.eq_false_iff]
  intro hblank
  rw [Text.trim_eq_empty_iff.mpr hblank] at h
  exact absurd h (by decide)

/-! ### One fence, one marker -/

theorem scanFence_of_isExample {body rest : List String} {closer : String}
    (h : IsExample tools schemaName body closer) :
    scanFence tools i j schemaName (body ++ closer :: rest)
      = ([], j + 1 + body.length + 1, rest) := by
  have hbody : ∀ line ∈ body, (!isFenceEnd line) = true := fun line hline => by
    rw [h.inside line hline, Bool.not_false]
  obtain ⟨htake, hdrop⟩ := dropWhile_append_cons (l := rest) hbody
    (by rw [h.closes, Bool.not_true])
  rw [scanFence, htake, hdrop]
  dsimp only
  rw [tools.checkBody_eq_none_iff.mpr h.valid, Option.toList_none]

theorem isExample_of_scanFence {behind : List String}
    (h : (scanFence tools i j schemaName behind).1 = []) :
    ∃ body closer, behind = body ++ closer :: (scanFence tools i j schemaName behind).2.2
      ∧ IsExample tools schemaName body closer := by
  unfold scanFence at h ⊢
  dsimp only at h ⊢
  cases hdrop : behind.dropWhile fun line => !isFenceEnd line with
  | nil => simp [hdrop] at h
  | cons closer after =>
    obtain ⟨hbehind, hcloser⟩ := dropWhile_eq_cons hdrop
    rw [hdrop] at h
    refine ⟨_, closer, hbehind, fun line hline => ?_, ?_, ?_⟩
    · simpa using List.mem_takeWhile_imp hline
    · simpa using hcloser
    · rw [← tools.checkBody_eq_none_iff]
      exact Option.toList_eq_nil_iff.mp h

/-- Where a scan goes on is no further back than where it was. -/
theorem scanFence_length_le (behind : List String) :
    (scanFence tools i j schemaName behind).2.2.length ≤ behind.length := by
  unfold scanFence
  dsimp only
  cases hdrop : behind.dropWhile fun line => !isFenceEnd line with
  | nil => exact Nat.zero_le _
  | cons closer after =>
    have hle := (List.dropWhile_sublist (fun line => !isFenceEnd line) (l := behind)).length_le
    rw [hdrop, List.length_cons] at hle
    exact Nat.le_of_succ_le hle

theorem scanMarker_length_le (rest : List String) :
    (scanMarker tools i schemaName rest).2.2.length ≤ rest.length := by
  have hle := (List.dropWhile_sublist Text.isBlank (l := rest)).length_le
  unfold scanMarker
  dsimp only
  cases hdrop : rest.dropWhile Text.isBlank with
  | nil => exact Nat.zero_le _
  | cons opener behind =>
    rw [hdrop] at hle
    dsimp only
    split
    · exact ((scanFence_length_le behind).trans (Nat.le_succ _)).trans hle
    · exact hle

theorem scanMarker_of_isExample {blank body rest : List String} {opener closer : String}
    (hblank : ∀ l ∈ blank, Text.isBlank l = true) (hopener : isFence opener = true)
    (h : IsExample tools schemaName body closer) :
    ∃ k, scanMarker tools i schemaName (blank ++ opener :: (body ++ closer :: rest))
      = ([], k, rest) := by
  obtain ⟨htake, hdrop⟩ := dropWhile_append_cons (l := body ++ closer :: rest) hblank
    (not_isBlank_of_isFence hopener)
  have hscan : scanMarker tools i schemaName (blank ++ opener :: (body ++ closer :: rest))
      = scanFence tools i (i + 1 + blank.length) schemaName (body ++ closer :: rest) := by
    rw [scanMarker, htake, hdrop]
    dsimp only
    rw [if_pos hopener]
  exact ⟨_, hscan.trans (scanFence_of_isExample h)⟩

theorem isExample_of_scanMarker {rest : List String}
    (h : (scanMarker tools i schemaName rest).1 = []) :
    ∃ blank opener body closer,
      rest = blank ++ opener :: (body ++ closer :: (scanMarker tools i schemaName rest).2.2)
      ∧ (∀ l ∈ blank, Text.isBlank l = true) ∧ isFence opener = true
      ∧ IsExample tools schemaName body closer := by
  unfold scanMarker at h ⊢
  dsimp only at h ⊢
  cases hdrop : rest.dropWhile Text.isBlank with
  | nil => simp [hdrop] at h
  | cons opener behind =>
    rw [hdrop] at h
    dsimp only at h ⊢
    by_cases hopener : isFence opener = true
    · rw [if_pos hopener] at h ⊢
      obtain ⟨body, closer, hbehind, hexample⟩ := isExample_of_scanFence h
      refine ⟨rest.takeWhile Text.isBlank, opener, body, closer, ?_,
        fun l hl => List.mem_takeWhile_imp hl, hopener, hexample⟩
      rw [← hbehind]
      exact (dropWhile_eq_cons hdrop).1
    · rw [if_neg hopener] at h
      exact absurd h (List.cons_ne_nil _ _)

/-! ### The text -/

theorem messagesFrom_of_clean {lines : List String} (h : Clean tools lines) :
    ∀ fuel i, messagesFrom tools fuel i lines = [] := by
  induction h with
  | nil =>
    intro fuel i
    cases fuel <;> rfl
  | text hmarker hrest ih =>
    intro fuel i
    cases fuel with
    | zero => rfl
    | succ fuel =>
      rw [messagesFrom, hmarker]
      exact ih fuel (i + 1)
  | marked hmarker hblank hopener hexample hrest ih =>
    intro fuel i
    cases fuel with
    | zero => rfl
    | succ fuel =>
      obtain ⟨k, hscan⟩ := scanMarker_of_isExample (i := i) hblank hopener hexample
      rw [messagesFrom, hmarker]
      dsimp only
      rw [hscan]
      exact ih fuel k

theorem clean_of_messagesFrom : ∀ {fuel i : ℕ} {lines : List String}, lines.length ≤ fuel →
    messagesFrom tools fuel i lines = [] → Clean tools lines := by
  intro fuel
  induction fuel with
  | zero =>
    intro i lines hle _
    rw [List.length_eq_zero_iff.mp (Nat.le_zero.mp hle)]
    exact Clean.nil
  | succ fuel ih =>
    intro i lines hle h
    cases lines with
    | nil => exact Clean.nil
    | cons line rest =>
      have hrest : rest.length ≤ fuel := Nat.le_of_succ_le_succ hle
      rw [messagesFrom] at h
      cases hmarker : parseExampleMarker line with
      | none =>
        rw [hmarker] at h
        exact Clean.text hmarker (ih hrest h)
      | some schemaName =>
        rw [hmarker] at h
        obtain ⟨hmessages, hgo⟩ := List.append_eq_nil_iff.mp h
        obtain ⟨blank, opener, body, closer, hlines, hblank, hopener, hexample⟩ :=
          isExample_of_scanMarker hmessages
        have hclean := ih ((scanMarker_length_le rest).trans hrest) hgo
        rw [hlines]
        exact Clean.marked hmarker hblank hopener hexample hclean

/-- The scan finds nothing in exactly the texts in which every marker has its fence and every
example is valid. -/
theorem checkExampleFences_eq_nil_iff {template rendered : String} :
    checkExampleFences tools template rendered = [] ↔ Clean tools (Text.lines rendered) := by
  rw [checkExampleFences, List.map_eq_nil_iff]
  exact ⟨clean_of_messagesFrom (Nat.le_refl _), fun h => messagesFrom_of_clean h _ _⟩

end Scan

/-! ## The templates -/

/-- What reading a file gives. -/
inductive OnDisk where
  | contents (src : String)
  | notFound
  | failed (error : String)
  deriving DecidableEq

/-- The file names of the prompts, in the order in which they are linted. -/
def fileNames : List String :=
  ["triage.md", "analyzer.md", "merge-analyses.md", "optimizer.md", "results-analyzer.md",
    "pr-writer.md", "issue-writer.md"]

section Lint

variable (tools : LintTools) (path : String → String) (dir : String → OnDisk)

/-- The findings for one prompt. -/
def check (fileName : String) : List LintFinding :=
  match dir fileName with
  | OnDisk.notFound => [⟨fileName, s!"template not on disk at {path fileName} — run `sbagent` "
      ++ "once to seed"⟩]
  | OnDisk.failed e => [⟨fileName, s!"read failed: {e}"⟩]
  | OnDisk.contents src =>
    match tools.templateFromStr src with
    | Except.error e => [⟨fileName, s!"parse failed: {e}"⟩]
    | Except.ok template =>
      match tools.render template fileName with
      | Except.error e => [⟨fileName, s!"dry-render failed: {e}"⟩]
      | Except.ok rendered => checkExampleFences tools fileName rendered

/-- The findings for a directory of prompts, whose paths are displayed so. -/
def lint : List LintFinding := fileNames.flatMap (check tools path dir)

/-- The command. -/
def runLint : Fallible Unit :=
  bailIf (lint tools path dir ≠ [])
    s!"prompt lint failed with {(lint tools path dir).length} finding(s)"

/-- A prompt can be read and rendered, and its examples are valid. -/
def Passes (fileName : String) : Prop :=
  ∃ src template rendered, dir fileName = OnDisk.contents src
    ∧ tools.templateFromStr src = Except.ok template
    ∧ tools.render template fileName = Except.ok rendered
    ∧ Clean tools (Text.lines rendered)

variable {tools path dir} {fileName : String} {f : LintFinding}

theorem template_of_mem_check (hf : f ∈ check tools path dir fileName) :
    f.template = fileName := by
  unfold check at hf
  repeat' split at hf
  all_goals first
    | rw [List.mem_singleton.mp hf]
    | obtain ⟨message, -, rfl⟩ := List.mem_map.mp hf
      rfl

theorem check_eq_nil_iff :
    check tools path dir fileName = [] ↔ Passes tools dir fileName := by
  unfold check Passes
  cases hsrc : dir fileName with
  | notFound => simp
  | failed e => simp
  | contents src =>
    cases htemplate : tools.templateFromStr src with
    | error e => simp [htemplate]
    | ok template =>
      cases hrendered : tools.render template fileName with
      | error e => simp [htemplate, hrendered]
      | ok rendered => simp [htemplate, hrendered, checkExampleFences_eq_nil_iff]

/-- The findings name exactly the prompts that do not pass, and the command fails iff there
is one of these. -/
theorem lint_named (tools : LintTools) (path : String → String) (dir : String → OnDisk) :
    (∀ fileName, (∃ f ∈ lint tools path dir, f.template = fileName)
        ↔ fileName ∈ fileNames ∧ ¬ Passes tools dir fileName)
      ∧ (runLint tools path dir = Except.ok ()
        ↔ ∀ fileName ∈ fileNames, Passes tools dir fileName) := by
  constructor
  · intro fileName
    constructor
    · rintro ⟨f, hf, rfl⟩
      obtain ⟨name, hname, hf⟩ := List.mem_flatMap.mp hf
      rw [template_of_mem_check hf]
      refine ⟨hname, fun hpasses => ?_⟩
      rw [check_eq_nil_iff.mpr hpasses] at hf
      exact absurd hf List.not_mem_nil
    · rintro ⟨hname, hpasses⟩
      obtain ⟨f, hf⟩ := List.exists_mem_of_ne_nil _ (mt check_eq_nil_iff.mp hpasses)
      exact ⟨f, List.mem_flatMap.mpr ⟨fileName, hname, hf⟩, template_of_mem_check hf⟩
  · rw [runLint, bailIf_ok_iff, not_not, lint, List.flatMap_eq_nil_iff]
    exact forall₂_congr fun fileName _ => check_eq_nil_iff

end Lint

end Prompts
