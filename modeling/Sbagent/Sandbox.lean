import Sbagent.Common
import Sbagent.TomlStrings

/-!
# What an agent may write to

An agent runs in a sandbox, and may write to its own directory and to those that it is given.
They are given as one argument of the command line, in which they stand as an array of TOML:
each path between quotes, with a backslash in front of every quote and backslash in it.

So which directories an agent may write to is what is read back from that argument. It is
the ones that were given, whatever quotes, brackets and commas stand in their paths, and it is
no other ones (`roots_read`). A control character in a path is not escaped, and no
array is read back then, so none of the directories is given.

A path is taken to be the text that it is shown as.
-/

open Fallible

/-- What an agent is run with, as far as its command line goes. -/
structure InvokeInputs where
  renderedPrompt : String
  cwd : String
  addDirs : List String
  lastMessage : String
  model : String
  reasoningEffort : Option String
  skipGitRepoCheck : Bool
  dangerouslyBypassSandbox : Bool
  enableWebSearch : Bool

namespace InvokeInputs

/-- A text with every character of one kind replaced. -/
def replace (c : Char) (replacement s : List Char) : List Char :=
  s.flatMap fun d => if d = c then replacement else [d]

/-- A path as it stands between quotes. -/
def escaped (path : String) : List Char :=
  replace '"' ['\\', '"'] (replace '\\' ['\\', '\\'] path.toList)

/-- The setting with the directories that the agent may write to. -/
def rootsKey : String := "sandbox_workspace_write.writable_roots"

/-- The directories between commas, each in quotes. -/
def tomlArray (dirs : List String) : String :=
  ",".intercalate (dirs.map fun p => String.ofList ('"' :: (escaped p ++ ['"'])))

/-- How many bytes a prompt may have. -/
def promptByteBudget : ℕ := 96 * 1024

/-- The options in front of the subcommand. -/
def topLevelArgs (i : InvokeInputs) : List String :=
  ["-m", i.model, "-c", "features.fast_mode=false"]
    ++ i.reasoningEffort.toList.flatMap (fun effort =>
      ["-c", s!"model_reasoning_effort={effort}"])
    ++ (if i.dangerouslyBypassSandbox then ["--dangerously-bypass-approvals-and-sandbox"]
      else ["--ask-for-approval", "never"])
    ++ if i.dangerouslyBypassSandbox = false ∧ i.addDirs ≠ [] then
        ["-c", s!"{rootsKey}=[{tomlArray i.addDirs}]"]
      else []

def execArgs (i : InvokeInputs) : List String :=
  ["exec"]
    ++ (if i.skipGitRepoCheck then ["--skip-git-repo-check"] else [])
    ++ ["--cd", i.cwd]
    ++ (if i.dangerouslyBypassSandbox then [] else ["--sandbox", "workspace-write"])
    ++ ["--json"]
    ++ (if i.enableWebSearch then ["--search"] else [])
    ++ ["--output-last-message", i.lastMessage]

def args (i : InvokeInputs) : Fallible (List String) := do
  bailIf (promptByteBudget < Text.byteLen i.renderedPrompt)
    (s!"rendered prompt is {Text.byteLen i.renderedPrompt} bytes; codex CLI carries the prompt "
      ++ "as a single argv element and Linux limits this to ~128 KB. The merge phase is the "
      ++ "typical culprit (it inlines $\x7bACCEPTED_ANALYSES_JSON\x7d); shrink the upstream "
      ++ "payload or split the work across smaller invocations.")
  return i.topLevelArgs ++ i.execArgs ++ [i.renderedPrompt]

/-! ## Reading the command line -/

/-- A key, and what is behind the first `=`. -/
def settingOf (setting : String) : String × String :=
  (String.ofList (setting.toList.takeWhile fun c => c ≠ '='),
    String.ofList ((setting.toList.dropWhile fun c => c ≠ '=').drop 1))

/-- The settings that a command line overrides, in front of its subcommand. -/
def overrides : List String → List (String × String)
  | "-c" :: setting :: rest => settingOf setting :: overrides rest
  | "-m" :: _ :: rest => overrides rest
  | "--ask-for-approval" :: _ :: rest => overrides rest
  | "--dangerously-bypass-approvals-and-sandbox" :: rest => overrides rest
  | _ => []

/-- The directories that a command line gives: those of the last override, where it is
an array of texts. -/
def writableRoots (args : List String) : Option (List String) :=
  (((overrides args).filter fun p => p.1 = rootsKey).getLast?).bind fun p =>
    (Toml.readArray p.2.toList).map fun roots => roots.map String.ofList

/-! ## The array of the directories -/

section Roots

variable {i : InvokeInputs} {args : List String}

/-- Paths are escaped as texts of the format are. -/
theorem escaped_eq (path : String) : escaped path = path.toList.flatMap Toml.escape := by
  unfold escaped replace
  rw [List.flatMap_assoc]
  refine List.flatMap_congr fun c _ => ?_
  unfold Toml.escape
  by_cases hback : c = '\\'
  · subst hback
    rfl
  · rw [if_neg hback, if_neg hback, List.flatMap_singleton]

/-- The directories are written as the items of an array. -/
theorem toList_tomlArray (dirs : List String) :
    (tomlArray dirs).toList = Toml.items (dirs.map String.toList) := by
  unfold tomlArray
  induction dirs with
  | nil => rfl
  | cons d dirs ih =>
    have hquoted : (String.ofList ('"' :: (escaped d ++ ['"']))).toList
        = Toml.quoted d.toList := by
      rw [String.toList_ofList, escaped_eq, Toml.quoted]
    cases dirs with
    | nil => rw [List.map_singleton, String.intercalate_singleton, hquoted]; rfl
    | cons d' dirs =>
      rw [List.map_cons] at ih
      rw [List.map_cons, List.map_cons, String.intercalate_cons_cons, String.toList_append,
        String.toList_append, hquoted, ih, List.append_assoc]
      rfl

/-- They are read back exactly when each of them is plain. -/
theorem readArray_tomlArray (dirs : List String) :
    (Toml.readArray s!"[{tomlArray dirs}]".toList).map (fun roots => roots.map String.ofList)
      = if dirs.all fun d => Toml.isPlain d.toList then some dirs else none := by
  have harray : s!"[{tomlArray dirs}]".toList = Toml.array (dirs.map String.toList) := by
    rw [Toml.array, ← toList_tomlArray, String.toList_append, String.toList_append,
      List.append_assoc]
    rfl
  have hplain : (dirs.map String.toList).all Toml.isPlain
      = dirs.all fun d => Toml.isPlain d.toList := List.all_map
  rw [harray, Toml.readArray_array, hplain]
  by_cases hplain : dirs.all fun d => Toml.isPlain d.toList
  · have hmap : (dirs.map String.toList).map String.ofList = dirs := by
      rw [List.map_map]
      exact (List.map_congr_left fun d _ => String.ofList_toList).trans (List.map_id dirs)
    rw [if_pos hplain, if_pos hplain, Option.map_some, hmap]
  · rw [if_neg hplain, if_neg hplain]
    rfl

/-! ## The command line -/

/-- A setting is taken apart at the first equals sign. -/
theorem settingOf_eq {key : String} (hkey : '=' ∉ key.toList) (value : String) :
    settingOf s!"{key}={value}" = (key, value) := by
  have hlist : s!"{key}={value}".toList = key.toList ++ '=' :: value.toList := by
    rw [String.toList_append, String.toList_append, List.append_assoc]
    rfl
  have hall : ∀ c ∈ key.toList, decide (c ≠ '=') = true :=
    fun c hc => decide_eq_true fun heq => hkey (heq ▸ hc)
  unfold settingOf
  rw [hlist, List.takeWhile_append_of_pos hall, List.dropWhile_append_of_pos hall,
    List.takeWhile_cons_of_neg (by decide), List.dropWhile_cons_of_neg (by decide),
    List.append_nil, String.ofList_toList, List.drop_one, List.tail_cons, String.ofList_toList]

/-- What is overridden, in order. -/
theorem overrides_topLevelArgs (i : InvokeInputs) (rest : List String) :
    overrides (i.topLevelArgs ++ "exec" :: rest)
      = ("features.fast_mode", "false")
        :: i.reasoningEffort.toList.map (fun effort => ("model_reasoning_effort", effort))
        ++ if i.dangerouslyBypassSandbox = false ∧ i.addDirs ≠ [] then
            [(rootsKey, s!"[{tomlArray i.addDirs}]")]
          else [] := by
  have hfast : settingOf "features.fast_mode=false" = ("features.fast_mode", "false") := by
    decide
  have hroots : settingOf s!"{rootsKey}=[{tomlArray i.addDirs}]"
      = (rootsKey, s!"[{tomlArray i.addDirs}]") := by
    have heq := settingOf_eq (show '=' ∉ rootsKey.toList by decide) s!"[{tomlArray i.addDirs}]"
    rw [← heq]
    congr 1
  have hlast : overrides ((if i.dangerouslyBypassSandbox = false ∧ i.addDirs ≠ [] then
      ["-c", s!"{rootsKey}=[{tomlArray i.addDirs}]"] else []) ++ "exec" :: rest)
      = if i.dangerouslyBypassSandbox = false ∧ i.addDirs ≠ [] then
          [(rootsKey, s!"[{tomlArray i.addDirs}]")]
        else [] := by
    split_ifs
    · show settingOf _ :: overrides ("exec" :: rest) = _
      rw [hroots]
      rfl
    · rfl
  -- the flags of the mode override nothing
  have hmode : ∀ rest', overrides ((if i.dangerouslyBypassSandbox then
      ["--dangerously-bypass-approvals-and-sandbox"] else ["--ask-for-approval", "never"])
        ++ rest') = overrides rest' := by
    intro rest'
    split_ifs
    · rfl
    · rfl
  have heffort : ∀ rest', overrides (i.reasoningEffort.toList.flatMap (fun effort =>
      ["-c", s!"model_reasoning_effort={effort}"]) ++ rest')
        = i.reasoningEffort.toList.map (fun effort => ("model_reasoning_effort", effort))
          ++ overrides rest' := by
    intro rest'
    cases i.reasoningEffort with
    | none => rfl
    | some effort =>
      have heq := settingOf_eq (show '=' ∉ "model_reasoning_effort".toList by decide) effort
      exact congrArg (· :: overrides rest') heq
  unfold topLevelArgs
  rw [List.append_assoc, List.append_assoc, List.append_assoc]
  show settingOf _ :: overrides (_ ++ (_ ++ (_ ++ _))) = _
  rw [hfast, List.nil_append, heffort, hmode, hlast]
  rfl

/-- **Which directories an agent may write to.** Those that it is given, if it is given any,
is in the sandbox, and no path has a control character; and never other ones. Outside of the
sandbox there is nothing to be said of them. -/
theorem roots_read (h : i.args = Except.ok args) :
    (((overrides args).filter fun p => p.1 = rootsKey) = []
        ↔ i.dangerouslyBypassSandbox = true ∨ i.addDirs = [])
      ∧ (i.dangerouslyBypassSandbox = false → i.addDirs ≠ [] →
        writableRoots args
          = if i.addDirs.all fun d => Toml.isPlain d.toList then some i.addDirs else none)
      ∧ ∀ roots, writableRoots args = some roots → roots = i.addDirs := by
  obtain ⟨-, h⟩ := seq_ok_iff.mp h
  obtain rfl := Except.ok.inj h
  have hover : ((overrides (i.topLevelArgs ++ i.execArgs ++ [i.renderedPrompt])).filter
      fun p => p.1 = rootsKey)
        = if i.dangerouslyBypassSandbox = false ∧ i.addDirs ≠ [] then
            [(rootsKey, s!"[{tomlArray i.addDirs}]")]
          else [] := by
    have hexec : ∃ rest, i.execArgs ++ [i.renderedPrompt] = "exec" :: rest := ⟨_, rfl⟩
    obtain ⟨rest, hrest⟩ := hexec
    rw [List.append_assoc, hrest, overrides_topLevelArgs, List.filter_append]
    -- the other overrides have other keys
    have hother : (("features.fast_mode", "false") :: i.reasoningEffort.toList.map
        (fun effort => ("model_reasoning_effort", effort))).filter (fun p => p.1 = rootsKey)
          = [] := by
      refine List.filter_eq_nil_iff.mpr fun p hp => ?_
      obtain rfl | hp := List.mem_cons.mp hp
      · decide
      · obtain ⟨effort, -, rfl⟩ := List.mem_map.mp hp
        exact of_decide_eq_false rfl
    rw [hother, List.nil_append]
    split_ifs
    · rfl
    · rfl
  have hgiven : ¬ (i.dangerouslyBypassSandbox = false ∧ i.addDirs ≠ [])
      ↔ i.dangerouslyBypassSandbox = true ∨ i.addDirs = [] := by
    rw [not_and_or, Bool.not_eq_false, not_not]
  unfold writableRoots
  rw [hover, ← hgiven]
  by_cases hcond : i.dangerouslyBypassSandbox = false ∧ i.addDirs ≠ []
  · rw [if_pos hcond]
    have hread : ([(rootsKey, s!"[{tomlArray i.addDirs}]")].getLast?.bind fun p =>
        (Toml.readArray p.2.toList).map fun roots => roots.map String.ofList)
          = if i.addDirs.all fun d => Toml.isPlain d.toList then some i.addDirs else none :=
      readArray_tomlArray i.addDirs
    refine ⟨iff_of_false (List.cons_ne_nil _ _) (not_not.mpr hcond), fun _ _ => hread,
      fun roots hroots => ?_⟩
    rw [hread] at hroots
    split_ifs at hroots
    exact (Option.some.inj hroots).symm
  · rw [if_neg hcond]
    refine ⟨iff_of_true rfl hcond, fun hbypass hne => absurd ⟨hbypass, hne⟩ hcond,
      fun roots hroots => ?_⟩
    cases hroots

/-- An agent with two directories, in the path of one of which there are a quote and
brackets. -/
def quotedDirs : InvokeInputs where
  renderedPrompt := "Go."
  cwd := "/repo"
  addDirs := ["/a\"],[\"/b", "/c"]
  lastMessage := "/out/final-message.md"
  model := "gpt"
  reasoningEffort := none
  skipGitRepoCheck := false
  dangerouslyBypassSandbox := false
  enableWebSearch := false

theorem roots_read_quoted : ∃ args, quotedDirs.args = Except.ok args
    ∧ writableRoots args = some ["/a\"],[\"/b", "/c"] := by
  have hargs : quotedDirs.args = Except.ok (quotedDirs.topLevelArgs ++ quotedDirs.execArgs
      ++ [quotedDirs.renderedPrompt]) := seq_ok_iff.mpr ⟨bailIf_ok_iff.mpr (by decide), rfl⟩
  refine ⟨_, hargs, ((roots_read hargs).right.left rfl (List.cons_ne_nil _ _)).trans ?_⟩
  exact if_pos (by decide)

end Roots

end InvokeInputs
