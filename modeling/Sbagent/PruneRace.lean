import Sbagent.Parties
import Sbagent.Text

/-!
# Pruning beside sessions that run

A run of a session leaves its pid in the session's directory while it is at work,
and pruning the workspace keeps the directories whose pid is that of a process. It
first looks at all directories and then removes those that it has found removable.

The pid file says that a session has a run, but only to those who look at the right
time. A run that starts after a directory was found removable is not seen any more.
There is one pid file for a session, whatever runs it has: a run that begins empties
it before it writes to it, and a run that ends takes it away, though another one may
have written it. So pruning spares every session that has a run as long as no run
starts between the look and the removal, and the pid file that is looked at names a
process (`KeepsLive`). The second is so when a session has one run at a time and
nobody looks while the run is writing its file (`safe_of_alone`).

There is a limit to the pids. A run counts from the moment it begins to write its pid
file.
-/

namespace PruneRace

/-! ## Pid files -/

/-- A file with a pid. Whoever has opened a file goes on with that one, also when it
was taken away and there is another one in its place. -/
structure PidFile where
  inode : ℕ
  text : List Char
  deriving DecidableEq

/-- The text that a run writes. -/
def pidText (pid : ℕ) : List Char := Nat.toDigits 10 pid ++ ['\n']

/-- A file after a text was written at its beginning. -/
def overwritten (old text : List Char) : List Char := text ++ old.drop text.length

/-- A file after a text was written to the file with a number, if it is that one. -/
def PidFile.write (file : PidFile) (inode : ℕ) (text : List Char) : PidFile :=
  if file.inode = inode then { file with text := overwritten file.text text } else file

/-- A text without the white space at its ends. -/
def trim (text : List Char) : List Char :=
  (text.dropWhile Text.isWhiteSpace).rdropWhile Text.isWhiteSpace

/-- The number that digits are, if it is one of 32 bits. -/
def parseDigits (digits : List Char) : Option ℕ :=
  if digits ≠ [] ∧ digits.all Text.isAsciiDigit = true
      ∧ Nat.ofDigitChars 10 digits 0 < 2 ^ 32 then
    some (Nat.ofDigitChars 10 digits 0)
  else none

/-- The number that a text is, which may begin with a sign. -/
def parseU32 : List Char → Option ℕ
  | '+' :: digits => parseDigits digits
  | digits => parseDigits digits

/-- The pid that a pid file has. -/
def readPid (text : List Char) : Option ℕ :=
  let trimmed := trim text
  if trimmed = [] then none else parseU32 trimmed

section PidText

variable {pid : ℕ} {c : Char}

theorem isAsciiDigit_of_isDigit (h : c.isDigit = true) : Text.isAsciiDigit c = true := by
  unfold Char.isDigit at h
  exact h

theorem trim_pidText : trim (pidText pid) = Nat.toDigits 10 pid := by
  have hdigit : ∀ c ∈ Nat.toDigits 10 pid, Text.isWhiteSpace c = false :=
    fun c hc => Text.isWhiteSpace_of_isDigit
      (Nat.isDigit_of_mem_toDigits (by decide) le_rfl hc)
  have hne : Nat.toDigits 10 pid ≠ [] := Nat.toDigits_ne_nil
  have hfront : (pidText pid).dropWhile Text.isWhiteSpace = pidText pid := by
    unfold pidText
    obtain ⟨c, cs, hcs⟩ := List.exists_cons_of_ne_nil hne
    have hc : ¬ Text.isWhiteSpace c = true := by
      rw [hdigit c (hcs ▸ List.mem_cons_self)]
      exact Bool.false_ne_true
    rw [hcs, List.cons_append, List.dropWhile_cons_of_neg hc]
  unfold trim
  rw [hfront, pidText, List.rdropWhile_concat_pos _ _ _ (by decide),
    List.rdropWhile_eq_self_iff]
  intro hl
  rw [hdigit _ (List.getLast_mem hl)]
  exact Bool.false_ne_true

/-- **What a run writes is read back as its pid.** -/
theorem readPid_pidText (h : pid < 2 ^ 32) : readPid (pidText pid) = some pid := by
  have hdigit : ∀ c ∈ Nat.toDigits 10 pid, c.isDigit = true :=
    fun c hc => Nat.isDigit_of_mem_toDigits (by decide) le_rfl hc
  have hall : (Nat.toDigits 10 pid).all Text.isAsciiDigit = true :=
    List.all_eq_true.mpr fun c hc => isAsciiDigit_of_isDigit (hdigit c hc)
  have hplus : ∀ digits, Nat.toDigits 10 pid ≠ '+' :: digits := by
    intro digits heq
    have hc := hdigit '+' (heq ▸ List.mem_cons_self)
    exact absurd hc (by decide)
  have hvalue : Nat.ofDigitChars 10 (Nat.toDigits 10 pid) 0 = pid :=
    Nat.ofDigitChars_ten_toDigits
  unfold readPid
  dsimp only
  rw [trim_pidText, if_neg Nat.toDigits_ne_nil]
  unfold parseU32
  split
  case h_1 digits heq => exact absurd heq (hplus digits)
  case h_2 =>
    unfold parseDigits
    rw [hvalue, if_pos ⟨Nat.toDigits_ne_nil, hall, h⟩]

end PidText

/-! ## Looking at a directory -/

/-- What an operator asks for. -/
structure PruneOptions where
  /-- Only directories at least that old, in seconds. -/
  olderThan : Option ℕ
  /-- Only sessions that are in the ledger. -/
  archivedOnly : Bool
  dryRun : Bool
  deriving DecidableEq

/-- Why a directory is kept. -/
inductive SkipReason where
  | liveSession (pid : ℕ)
  | notArchived
  | youngerThanThreshold (age threshold : ℕ)
  | noFilter
  deriving DecidableEq

/-- Whether a directory is kept, and why: first of all because its pid is that of a
process. -/
def decideSkip (pid : Option ℕ) (liveness : ℕ → Bool) (options : PruneOptions)
    (archived : Bool) (age : ℕ) : Option SkipReason :=
  match pid.filter fun pid => liveness pid with
  | some pid => some (SkipReason.liveSession pid)
  | none =>
    if !options.archivedOnly && options.olderThan.isNone then some SkipReason.noFilter
    else if options.archivedOnly && !archived then some SkipReason.notArchived
    else
      match options.olderThan.filter fun threshold => age < threshold with
      | some threshold => some (SkipReason.youngerThanThreshold age threshold)
      | none => none

/-- What the operator asks for does not include the directory. -/
def PruneOptions.Excludes (options : PruneOptions) (archived : Bool) (age : ℕ) : Prop :=
  options.archivedOnly = false ∧ options.olderThan = none
    ∨ options.archivedOnly = true ∧ archived = false
    ∨ ∃ threshold ∈ options.olderThan, age < threshold

/-- **A directory is found removable** when its pid file names no process and the
operator asks for it. -/
theorem decideSkip_eq_none {pid : Option ℕ} {liveness : ℕ → Bool} {options : PruneOptions}
    {archived : Bool} {age : ℕ} (h : decideSkip pid liveness options archived age = none) :
    (∀ n ∈ pid, liveness n = false) ∧ ¬ options.Excludes archived age := by
  unfold decideSkip at h
  split at h
  case h_1 => cases h
  case h_2 hpid =>
    refine ⟨fun n hn => ?_, ?_⟩
    · have hlive := Option.filter_eq_none_iff.mp hpid n hn
      exact Bool.not_eq_true _ ▸ hlive
    · split_ifs at h with hfilter harchived
      split at h
      case h_1 => cases h
      case h_2 hyoung =>
        rintro (⟨honly, hage⟩ | ⟨honly, hnot⟩ | ⟨threshold, hthreshold, hage⟩)
        · rw [honly, hage] at hfilter
          exact hfilter rfl
        · rw [honly, hnot] at harchived
          exact harchived rfl
        · exact Option.filter_eq_none_iff.mp hyoung threshold hthreshold (decide_eq_true hage)

/-! ## Processes -/

/-- What a process is doing. -/
inductive Proc where
  /-- Nothing that matters here. -/
  | other
  /-- It begins a run of a session, and has emptied the pid file. -/
  | opening (session : String) (inode : ℕ)
  /-- It has written its pid to the pid file of the session, and is at work. -/
  | running (session : String)
  /-- It looks at directories, and has found some removable. -/
  | scanning (options : PruneOptions) (prunable : List String)
  /-- It removes what it has found, one directory after another. -/
  | removing (prunable : List String)
  deriving DecidableEq

/-- The session that a process has a run of. -/
def Proc.session : Proc → Option String
  | opening id _ | running id => some id
  | other | scanning _ _ | removing _ => none

/-- The sessions that a process is going to remove. -/
def Proc.found : Proc → List String
  | scanning options prunable => if options.dryRun then [] else prunable
  | removing prunable => prunable
  | other | opening _ _ | running _ => []

/-- What the operator of a process has asked it for. -/
def Proc.options : Proc → Option PruneOptions
  | scanning options _ => some options
  | other | opening _ _ | running _ | removing _ => none

/-- The workspace and the processes. -/
structure State (pidMax : ℕ) where
  /-- Which sessions have a directory. -/
  dirs : String → Bool
  /-- The pid files. -/
  runPid : String → Option PidFile
  /-- How many files there have been. -/
  inodes : ℕ
  proc : Fin pidMax → Option Proc
  /-- Whether there is such a group of processes. -/
  groups : ℕ → Bool
  /-- The last event was the removal of the directory of this session. -/
  removed : Option String

/-- What can happen next. -/
inductive Event (pidMax : ℕ) where
  | spawn (p : Fin pidMax)
  /-- A process makes the directory of a session, if there is none. -/
  | createDir (p : Fin pidMax) (id : String)
  /-- A run begins, and opens the pid file. -/
  | openPid (p : Fin pidMax) (id : String)
  | writePid (p : Fin pidMax)
  /-- A run ends and takes the pid file away. -/
  | exit (p : Fin pidMax)
  /-- A process is gone, and leaves everything behind. -/
  | die (p : Fin pidMax)
  | prune (p : Fin pidMax) (options : PruneOptions)
  /-- Pruning looks at a directory. -/
  | scan (p : Fin pidMax) (id : String) (archived : Bool) (age : ℕ)
  /-- It has looked at all of them. -/
  | apply (p : Fin pidMax)
  /-- It removes the next directory. -/
  | remove (p : Fin pidMax)
  deriving DecidableEq

variable {pidMax : ℕ}

/-- The pid of a process. -/
def pidOf (p : Fin pidMax) : ℕ := p + 1

namespace State

/-- A process goes on. -/
def enter (s : State pidMax) (p : Fin pidMax) (x : Option Proc) : State pidMax :=
  { s with proc := Function.update s.proc p x, removed := none }

/-- What the system says when it is asked for a number. Zero and the numbers that are
too large for a pid stand for groups of processes. -/
def isLive (s : State pidMax) (pid : ℕ) : Bool :=
  if 0 < pid ∧ pid < 2 ^ 31 then decide (∃ p, pidOf p = pid ∧ (s.proc p).isSome = true)
  else s.groups pid

/-- The pid that the session's pid file has. -/
def pid (s : State pidMax) (id : String) : Option ℕ :=
  (s.runPid id).bind fun file => readPid file.text

/-- The session has a run. -/
def Live (s : State pidMax) (id : String) : Prop :=
  ∃ p, (s.proc p).bind Proc.session = some id

/-- The session was found removable, and is going to be removed. -/
def Found (s : State pidMax) (id : String) : Prop :=
  ∃ p, ∃ x ∈ s.proc p, id ∈ x.found

/-- The session's pid file names a process. -/
def Signals (s : State pidMax) (id : String) : Prop :=
  ∃ pid ∈ s.pid id, s.isLive pid = true

end State

/-- One event. -/
def step (s : State pidMax) : Event pidMax → Option (State pidMax)
  | Event.spawn p =>
    match s.proc p with
    | none => some (s.enter p (some Proc.other))
    | some _ => none
  | Event.createDir p id =>
    match s.proc p with
    | some Proc.other => some
      { s.enter p (some Proc.other) with dirs := Function.update s.dirs id true }
    | _ => none
  | Event.openPid p id =>
    match s.proc p with
    | some Proc.other =>
      if s.dirs id = true then
        -- a file that is there already is emptied and stays the file it is
        let inode := ((s.runPid id).map PidFile.inode).getD s.inodes
        some { s.enter p (some (Proc.opening id inode)) with
          runPid := Function.update s.runPid id (some ⟨inode, []⟩)
          inodes := s.inodes + 1 }
      else none
    | _ => none
  | Event.writePid p =>
    match s.proc p with
    | some (Proc.opening id inode) => some
      { s.enter p (some (Proc.running id)) with
        runPid := Function.update s.runPid id
          ((s.runPid id).map fun file => file.write inode (pidText (pidOf p))) }
    | _ => none
  | Event.exit p =>
    match s.proc p with
    | some (Proc.running id) => some
      -- whoever has written it
      { s.enter p none with runPid := Function.update s.runPid id none }
    | _ => none
  | Event.die p => some (s.enter p none)
  | Event.prune p options =>
    match s.proc p with
    | some Proc.other => some (s.enter p (some (Proc.scanning options [])))
    | _ => none
  | Event.scan p id archived age =>
    match s.proc p with
    | some (Proc.scanning options prunable) =>
      if s.dirs id = true then
        match decideSkip (s.pid id) s.isLive options archived age with
        | some _ => some (s.enter p (some (Proc.scanning options prunable)))
        | none => some (s.enter p (some (Proc.scanning options (prunable ++ [id]))))
      else none
    | _ => none
  | Event.apply p =>
    match s.proc p with
    | some (Proc.scanning options prunable) =>
      some (s.enter p (some (Proc.removing (if options.dryRun then [] else prunable))))
    | _ => none
  | Event.remove p =>
    match s.proc p with
    | some (Proc.removing (id :: prunable)) =>
      -- the pid file is not looked at again
      if s.dirs id = true then some
        { s.enter p (some (Proc.removing prunable)) with
          dirs := Function.update s.dirs id false
          runPid := Function.update s.runPid id none
          removed := some id }
      else none
    | _ => none

/-- A directory that was just removed is not that of a session with a run. -/
def State.Safe (s : State pidMax) : Prop := ∀ id ∈ s.removed, ¬ s.Live id

/-- The condition on an event. No run of a session begins while the session is found
removable. And when pruning looks at a session with a run, the pid file names a
process, or the operator does not ask for the session anyway. -/
def KeepsLive (s : State pidMax) : Event pidMax → Prop
  | Event.openPid _ id => ¬ s.Found id
  | Event.scan p id archived age => s.Live id → s.Signals id
    ∨ ∃ options ∈ (s.proc p).bind Proc.options,
      options.dryRun = true ∨ options.Excludes archived age
  | _ => True

/-- A workspace before anybody prunes it. -/
structure State.Fresh (s : State pidMax) : Prop where
  unscanned : ∀ id, ¬ s.Found id
  unremoved : s.removed = none

section Decidable

variable (s : State pidMax) (id : String)

instance (options : PruneOptions) (archived : Bool) (age : ℕ) :
    Decidable (options.Excludes archived age) :=
  inferInstanceAs (Decidable (_ ∨ _ ∨ _))

instance : Decidable (s.Live id) :=
  inferInstanceAs (Decidable (∃ p, (s.proc p).bind Proc.session = some id))

instance : Decidable (s.Found id) :=
  inferInstanceAs (Decidable (∃ p, ∃ x ∈ s.proc p, id ∈ x.found))

instance : Decidable (s.Signals id) :=
  inferInstanceAs (Decidable (∃ pid ∈ s.pid id, s.isLive pid = true))

instance : Decidable s.Safe :=
  inferInstanceAs (Decidable (∀ id ∈ s.removed, ¬ s.Live id))

instance : (e : Event pidMax) → Decidable (KeepsLive s e)
  | Event.openPid _ id => inferInstanceAs (Decidable (¬ s.Found id))
  | Event.scan p id archived age => inferInstanceAs (Decidable (s.Live id → s.Signals id
      ∨ ∃ options ∈ (s.proc p).bind Proc.options,
        options.dryRun = true ∨ options.Excludes archived age))
  | Event.spawn _ | Event.createDir _ _ | Event.writePid _ | Event.exit _ | Event.die _
  | Event.prune _ _ | Event.apply _ | Event.remove _ => inferInstanceAs (Decidable True)

end Decidable

/-! ## Whoever is found removable has no run -/

/-- What is kept by every event that meets the condition. -/
def Inv (s : State pidMax) : Prop := ∀ id, s.Found id → ¬ s.Live id

section Steps

variable {s s' : State pidMax} {p : Fin pidMax} {x : Option Proc} {id : String}

theorem live_enter (h : (s.enter p x).Live id) :
    x.bind Proc.session = some id ∨ s.Live id := by
  obtain ⟨q, hq⟩ := h
  change (Function.update s.proc p x q).bind Proc.session = some id at hq
  by_cases hqp : q = p
  · subst hqp
    rw [Function.update_self] at hq
    exact Or.inl hq
  · rw [Function.update_of_ne hqp] at hq
    exact Or.inr ⟨q, hq⟩

theorem found_enter (h : (s.enter p x).Found id) : (∃ y ∈ x, id ∈ y.found) ∨ s.Found id := by
  obtain ⟨q, y, hy, hid⟩ := h
  change Function.update s.proc p x q = some y at hy
  by_cases hqp : q = p
  · subst hqp
    rw [Function.update_self] at hy
    exact Or.inl ⟨y, hy, hid⟩
  · rw [Function.update_of_ne hqp] at hy
    exact Or.inr ⟨q, y, hy, hid⟩

theorem mem_found_scanning {options : PruneOptions} {prunable : List String} :
    id ∈ (Proc.scanning options prunable).found ↔ options.dryRun = false ∧ id ∈ prunable := by
  show id ∈ (if options.dryRun then [] else prunable) ↔ _
  cases options.dryRun with
  | true => exact iff_of_false List.not_mem_nil fun h => Bool.noConfusion h.left
  | false => exact (and_iff_right rfl).symm

theorem session_eq_none_of_found {y : Proc} (h : id ∈ y.found) : y.session = none := by
  cases y with
  | other => rfl
  | opening id' inode => cases h
  | running id' => cases h
  | scanning options prunable => rfl
  | removing prunable => rfl

/-- A process goes on. It may begin a run of a session that is not found removable,
and may find sessions removable that have no run. -/
theorem inv_enter (h : Inv s)
    (hruns : ∀ id, x.bind Proc.session = some id → s.Live id ∨ ¬ s.Found id)
    (hfinds : ∀ y ∈ x, ∀ id ∈ y.found, s.Found id ∨ ¬ s.Live id) :
    Inv (s.enter p x) := by
  intro id hfound hlive
  obtain ⟨y, hy, hid⟩ | hfound := found_enter hfound
  · have hnone : x.bind Proc.session = none := by
      rw [hy, Option.bind_some, session_eq_none_of_found hid]
    have hlive := (live_enter hlive).resolve_left (by rw [hnone]; exact nofun)
    obtain hfound | hnot := hfinds y hy id hid
    · exact h id hfound hlive
    · exact hnot hlive
  · obtain hnew | hlive := live_enter hlive
    · obtain hlive | hnot := hruns id hnew
      · exact h id hfound hlive
      · exact hnot hfound
    · exact h id hfound hlive

theorem safe_of_removed_eq_none (h : s.removed = none) : s.Safe := by
  intro id hid
  rw [h] at hid
  cases hid

/-- **Every event that meets the condition keeps what is found removable apart from
what has a run, and removes no directory of a session with a run.** -/
theorem inv_step {e : Event pidMax} (h : Inv s) (hok : KeepsLive s e)
    (hstep : step s e = some s') : Inv s' ∧ s'.Safe := by
  cases e with
  | spawn p =>
    simp only [step] at hstep
    split at hstep
    case h_1 =>
      obtain rfl := Option.some.inj hstep
      exact ⟨inv_enter h nofun nofun, safe_of_removed_eq_none rfl⟩
    case h_2 => cases hstep
  | createDir p id =>
    simp only [step] at hstep
    split at hstep
    case h_1 =>
      obtain rfl := Option.some.inj hstep
      exact ⟨inv_enter h nofun nofun, safe_of_removed_eq_none rfl⟩
    case h_2 => cases hstep
  | openPid p id =>
    simp only [step] at hstep
    split at hstep
    case h_1 hp =>
      split_ifs at hstep
      obtain rfl := Option.some.inj hstep
      -- a session becomes live here, and the condition says that it is not found
      refine ⟨inv_enter h ?_ nofun, safe_of_removed_eq_none rfl⟩
      intro id' hid'
      obtain rfl := Option.some.inj hid'
      exact Or.inr hok
    case h_2 => cases hstep
  | writePid p =>
    simp only [step] at hstep
    split at hstep
    case h_1 id hp =>
      obtain rfl := Option.some.inj hstep
      refine ⟨inv_enter h ?_ nofun, safe_of_removed_eq_none rfl⟩
      intro id' hid'
      exact Or.inl ⟨p, by rw [hp]; exact hid'⟩
    case h_2 => cases hstep
  | exit p =>
    simp only [step] at hstep
    split at hstep
    case h_1 =>
      obtain rfl := Option.some.inj hstep
      exact ⟨inv_enter h nofun nofun, safe_of_removed_eq_none rfl⟩
    case h_2 => cases hstep
  | die p =>
    obtain rfl := Option.some.inj hstep
    exact ⟨inv_enter h nofun nofun, safe_of_removed_eq_none rfl⟩
  | prune p options =>
    simp only [step] at hstep
    split at hstep
    case h_1 =>
      obtain rfl := Option.some.inj hstep
      refine ⟨inv_enter h nofun ?_, safe_of_removed_eq_none rfl⟩
      intro y hy id hid
      obtain rfl := Option.some.inj hy
      -- nothing has been looked at yet
      exact absurd (mem_found_scanning.mp hid).right List.not_mem_nil
    case h_2 => cases hstep
  | scan p id archived age =>
    simp only [step] at hstep
    split at hstep
    case h_1 options prunable hp =>
      have hkeeps : ∀ id ∈ prunable, options.dryRun = false → s.Found id :=
        fun id hid hdry => ⟨p, _, hp, mem_found_scanning.mpr ⟨hdry, hid⟩⟩
      split_ifs at hstep
      split at hstep
      case h_1 =>
        obtain rfl := Option.some.inj hstep
        refine ⟨inv_enter h nofun ?_, safe_of_removed_eq_none rfl⟩
        intro y hy id' hid'
        obtain rfl := Option.some.inj hy
        obtain ⟨hdry, hid'⟩ := mem_found_scanning.mp hid'
        exact Or.inl (hkeeps id' hid' hdry)
      case h_2 hskip =>
        obtain rfl := Option.some.inj hstep
        obtain ⟨hdead, hasked⟩ := decideSkip_eq_none hskip
        refine ⟨inv_enter h nofun ?_, safe_of_removed_eq_none rfl⟩
        intro y hy id' hid'
        obtain rfl := Option.some.inj hy
        obtain ⟨hdry, hid'⟩ := mem_found_scanning.mp hid'
        obtain hid' | hid' := List.mem_append.mp hid'
        · exact Or.inl (hkeeps id' hid' hdry)
        · -- the directory that is looked at now
          obtain rfl := List.mem_singleton.mp hid'
          refine Or.inr fun hlive => ?_
          obtain ⟨pid, hpid, hsignals⟩ | ⟨options', hoptions, hspares⟩ := hok hlive
          · rw [hdead pid hpid] at hsignals
            cases hsignals
          · rw [hp] at hoptions
            obtain rfl : options = options' := Option.some.inj hoptions
            obtain hspares | hexcludes := hspares
            · rw [hdry] at hspares
              cases hspares
            · exact hasked hexcludes
    case h_2 => cases hstep
  | apply p =>
    simp only [step] at hstep
    split at hstep
    case h_1 options prunable hp =>
      obtain rfl := Option.some.inj hstep
      refine ⟨inv_enter h nofun ?_, safe_of_removed_eq_none rfl⟩
      intro y hy id hid
      obtain rfl := Option.some.inj hy
      exact Or.inl ⟨p, _, hp, hid⟩
    case h_2 => cases hstep
  | remove p =>
    simp only [step] at hstep
    split at hstep
    case h_1 id prunable hp =>
      split_ifs at hstep
      obtain rfl := Option.some.inj hstep
      refine ⟨inv_enter h nofun ?_, ?_⟩
      · intro y hy id' hid'
        obtain rfl := Option.some.inj hy
        exact Or.inl ⟨p, _, hp, List.mem_cons_of_mem id hid'⟩
      · intro id' hid' hlive
        obtain rfl := Option.some.inj hid'
        -- only a session that was found is removed, and none of these is live
        have hlive : s.Live id := (live_enter hlive).resolve_left nofun
        exact h id ⟨p, _, hp, List.mem_cons_self⟩ hlive
    case h_2 => cases hstep

theorem inv_of_fresh (h : s.Fresh) : Inv s ∧ s.Safe :=
  ⟨fun id hid => absurd hid (h.unscanned id), safe_of_removed_eq_none h.unremoved⟩

/-- What events that meet the condition keep, a run of them keeps. -/
theorem inv_run {es : List (Event pidMax)} (hfresh : s.Fresh)
    (hok : Runs.Throughout step KeepsLive s es) (hrun : Runs.run step s es = some s') :
    Inv s' ∧ s'.Safe := by
  have hstep : ∀ (s : State pidMax) e s', Inv s ∧ s.Safe → KeepsLive s e →
      step s e = some s' → Inv s' ∧ s'.Safe :=
    fun _ _ _ h hok hstep => inv_step h.left hok hstep
  exact Runs.run_invariant hstep (inv_of_fresh hfresh) hok hrun

end Steps

/-- A workspace with the directory of one session, and no process yet. -/
def workspace : State 3 where
  dirs id := decide (id = "s1")
  runPid _ := none
  inodes := 0
  proc _ := none
  groups _ := false
  removed := none

theorem fresh_workspace : workspace.Fresh where
  unscanned := by
    rintro id ⟨p, x, hx, hid⟩
    cases hx
  unremoved := rfl

/-- What is older than a week is to be removed. -/
def weekOld : PruneOptions := ⟨some 604800, false, false⟩

/-- A run begins. -/
def start (p : Fin 3) (id : String) : List (Event 3) :=
  [Event.spawn p, Event.createDir p id, Event.openPid p id, Event.writePid p]

/-- A process removes what is older than a week, which it finds one session to be. -/
def pruneOld (p : Fin 3) (id : String) : List (Event 3) :=
  [Event.spawn p, Event.prune p weekOld, Event.scan p id false 700000]

/-- What an operator can see to. No run of a session begins while the session has one,
or is found removable. And nobody looks at a session while a run writes its pid file. -/
def Alone (s : State pidMax) : Event pidMax → Prop
  | Event.openPid _ id => ¬ s.Found id ∧ ¬ s.Live id
  | Event.scan _ id _ _ => ∀ p inode, s.proc p ≠ some (Proc.opening id inode)
  | _ => True

/-- The pid file is as a process that has a run has left it. -/
def Proc.Marks (pid : ℕ) (runPid : String → Option PidFile) : Proc → Prop
  | opening id inode => runPid id = some ⟨inode, []⟩
  | running id => (runPid id).map PidFile.text = some (pidText pid)
  | other | scanning _ _ | removing _ => True

/-- A session has one run at most, and its pid file is that run's. -/
structure One (s : State pidMax) : Prop where
  marks : ∀ p, ∀ x ∈ s.proc p, x.Marks (pidOf p) s.runPid
  single : ∀ p q id, (s.proc p).bind Proc.session = some id →
    (s.proc q).bind Proc.session = some id → p = q

section One

variable {s s' : State pidMax} {p : Fin pidMax} {x : Option Proc}

theorem marks_congr {y : Proc} {pid : ℕ} {runPid runPid' : String → Option PidFile}
    (h : ∀ id ∈ y.session, runPid' id = runPid id) (hy : y.Marks pid runPid) :
    y.Marks pid runPid' := by
  cases y with
  | other => trivial
  | opening id inode => exact (h id rfl).trans hy
  | running id => exact (congrArg (Option.map PidFile.text) (h id rfl)).trans hy
  | scanning options prunable => trivial
  | removing prunable => trivial

theorem marks_of_session_eq_none {y : Proc} {pid : ℕ} {runPid : String → Option PidFile}
    (h : y.session = none) : y.Marks pid runPid := by
  cases y with
  | other => trivial
  | opening id inode => cases h
  | running id => cases h
  | scanning options prunable => trivial
  | removing prunable => trivial

/-- A process goes on, and leaves the pid files of other processes alone. -/
theorem one_enter (h : One s) (hproc : s'.proc = Function.update s.proc p x)
    (hmarks : ∀ y ∈ x, y.Marks (pidOf p) s'.runPid)
    (hothers : ∀ q ≠ p, ∀ id, (s.proc q).bind Proc.session = some id →
      x.bind Proc.session ≠ some id ∧ s'.runPid id = s.runPid id) : One s' where
  marks q y hy := by
    rw [hproc] at hy
    by_cases hqp : q = p
    · subst hqp
      rw [Function.update_self] at hy
      exact hmarks y hy
    · rw [Function.update_of_ne hqp] at hy
      refine marks_congr (fun id hid => ?_) (h.marks q y hy)
      exact (hothers q hqp id (by rw [hy]; exact hid)).right
  single q q' id hq hq' := by
    rw [hproc] at hq hq'
    by_cases hqp : q = p
    · subst hqp
      rw [Function.update_self] at hq
      by_contra hne
      rw [Function.update_of_ne (Ne.symm hne)] at hq'
      exact (hothers q' (Ne.symm hne) id hq').left hq
    · rw [Function.update_of_ne hqp] at hq
      by_cases hqp' : q' = p
      · subst hqp'
        rw [Function.update_self] at hq'
        exact absurd hq' (hothers q hqp id hq).left
      · rw [Function.update_of_ne hqp'] at hq'
        exact h.single q q' id hq hq'

/-- A process goes on without a run, and touches no pid file. -/
theorem one_enter_none (h : One s) (hproc : s'.proc = Function.update s.proc p x)
    (hfiles : s'.runPid = s.runPid) (hsession : x.bind Proc.session = none) : One s' := by
  refine one_enter h hproc (fun y hy => ?_) fun q _ id _ => ⟨?_, congrFun hfiles id⟩
  · rw [hy] at hsession
    exact marks_of_session_eq_none hsession
  · rw [hsession]
    exact nofun

/-- A process goes on, and touches the pid file of a session that no other process has
a run of. -/
theorem one_enter_session (id : String) (h : One s)
    (hproc : s'.proc = Function.update s.proc p x)
    (hmarks : ∀ y ∈ x, y.Marks (pidOf p) s'.runPid)
    (hsession : ∀ id' ∈ x.bind Proc.session, id' = id)
    (hfiles : ∀ id' ≠ id, s'.runPid id' = s.runPid id')
    (halone : ∀ q ≠ p, (s.proc q).bind Proc.session ≠ some id) : One s' := by
  refine one_enter h hproc hmarks fun q hqp id' hid' => ?_
  have hne : id' ≠ id := by
    rintro rfl
    exact halone q hqp hid'
  exact ⟨fun hx => hne (hsession id' hx), hfiles id' hne⟩

theorem one_step {e : Event pidMax} (hinv : Inv s) (h : One s) (hok : Alone s e)
    (hstep : step s e = some s') : One s' := by
  cases e with
  | spawn p =>
    simp only [step] at hstep
    split at hstep
    case h_1 =>
      obtain rfl := Option.some.inj hstep
      exact one_enter_none h rfl rfl rfl
    case h_2 => cases hstep
  | createDir p id =>
    simp only [step] at hstep
    split at hstep
    case h_1 =>
      obtain rfl := Option.some.inj hstep
      exact one_enter_none h rfl rfl rfl
    case h_2 => cases hstep
  | openPid p id =>
    simp only [step] at hstep
    split at hstep
    case h_1 hp =>
      split_ifs at hstep
      obtain rfl := Option.some.inj hstep
      refine one_enter_session id h rfl ?_ ?_ ?_ ?_
      · intro y hy
        obtain rfl := Option.some.inj hy
        exact Function.update_self id _ s.runPid
      · exact fun id' hid' => (Option.some.inj hid').symm
      · exact fun id' hne => Function.update_of_ne hne _ s.runPid
      · exact fun q _ hq => hok.right ⟨q, hq⟩
    case h_2 => cases hstep
  | writePid p =>
    simp only [step] at hstep
    split at hstep
    case h_1 id inode hp =>
      have hsession : (s.proc p).bind Proc.session = some id := by
        rw [hp]
        rfl
      have hfile : s.runPid id = some ⟨inode, []⟩ := h.marks p _ hp
      obtain rfl := Option.some.inj hstep
      -- the file that it opened is still the one under the name, and empty
      refine one_enter_session id h rfl ?_ ?_ ?_ ?_
      · intro y hy
        obtain rfl := Option.some.inj hy
        show (Function.update s.runPid id _ id).map PidFile.text = _
        rw [Function.update_self, hfile]
        show some ((PidFile.write ⟨inode, []⟩ inode (pidText (pidOf p))).text) = _
        rw [PidFile.write, if_pos rfl]
        show some (pidText (pidOf p) ++ List.drop _ []) = _
        rw [List.drop_nil, List.append_nil]
      · exact fun id' hid' => (Option.some.inj hid').symm
      · exact fun id' hne => Function.update_of_ne hne _ s.runPid
      · exact fun q hqp hq => hqp (h.single q p id hq hsession)
    case h_2 => cases hstep
  | exit p =>
    simp only [step] at hstep
    split at hstep
    case h_1 id hp =>
      have hsession : (s.proc p).bind Proc.session = some id := by
        rw [hp]
        rfl
      obtain rfl := Option.some.inj hstep
      -- the file goes with the run, whatever stands in it
      refine one_enter_session id h rfl nofun nofun ?_ ?_
      · exact fun id' hne => Function.update_of_ne hne _ s.runPid
      · exact fun q hqp hq => hqp (h.single q p id hq hsession)
    case h_2 => cases hstep
  | die p =>
    obtain rfl := Option.some.inj hstep
    exact one_enter_none h rfl rfl rfl
  | prune p options =>
    simp only [step] at hstep
    split at hstep
    case h_1 =>
      obtain rfl := Option.some.inj hstep
      exact one_enter_none h rfl rfl rfl
    case h_2 => cases hstep
  | scan p id archived age =>
    simp only [step] at hstep
    split at hstep
    case h_1 =>
      split_ifs at hstep
      split at hstep
      case h_1 =>
        obtain rfl := Option.some.inj hstep
        exact one_enter_none h rfl rfl rfl
      case h_2 =>
        obtain rfl := Option.some.inj hstep
        exact one_enter_none h rfl rfl rfl
    case h_2 => cases hstep
  | apply p =>
    simp only [step] at hstep
    split at hstep
    case h_1 =>
      obtain rfl := Option.some.inj hstep
      exact one_enter_none h rfl rfl rfl
    case h_2 => cases hstep
  | remove p =>
    simp only [step] at hstep
    split at hstep
    case h_1 id prunable hp =>
      split_ifs at hstep
      obtain rfl := Option.some.inj hstep
      -- what is removed was found, so nobody has a run of it
      refine one_enter_session id h rfl ?_ nofun ?_ ?_
      · intro y hy
        obtain rfl := Option.some.inj hy
        trivial
      · exact fun id' hne => Function.update_of_ne hne _ s.runPid
      · exact fun q _ hq => hinv id ⟨p, _, hp, List.mem_cons_self⟩ ⟨q, hq⟩
    case h_2 => cases hstep

/-- The pid file of a session with a run names that run, once it is written. -/
theorem signals_of_running (hmax : pidMax < 2 ^ 31) {id : String} (h : One s)
    (hp : s.proc p = some (Proc.running id)) : s.Signals id := by
  have hpid : pidOf p < 2 ^ 31 := lt_of_le_of_lt p.isLt hmax
  obtain ⟨file, hfile, htext⟩ := Option.map_eq_some_iff.mp (h.marks p _ hp)
  refine ⟨pidOf p, ?_, ?_⟩
  · show (s.runPid id).bind _ = _
    rw [hfile, Option.bind_some, htext]
    exact readPid_pidText (hpid.trans (by decide))
  · unfold State.isLive
    rw [if_pos ⟨Nat.succ_pos _, hpid⟩]
    refine decide_eq_true ⟨p, rfl, ?_⟩
    rw [hp]
    rfl

/-- Where sessions have one run at a time, their pid files can be relied on. -/
theorem keepsLive_of_alone (hmax : pidMax < 2 ^ 31) {e : Event pidMax} (h : One s)
    (hok : Alone s e) : KeepsLive s e := by
  cases e with
  | openPid p id => exact hok.left
  | scan p id archived age =>
    rintro ⟨q, hq⟩
    obtain ⟨x, hx, hsession⟩ := Option.bind_eq_some_iff.mp hq
    cases x with
    | opening id' inode =>
      obtain rfl : id' = id := Option.some.inj hsession
      exact absurd hx (hok q inode)
    | running id' =>
      obtain rfl : id' = id := Option.some.inj hsession
      exact Or.inl (signals_of_running hmax h hx)
    | other => cases hsession
    | scanning options prunable => cases hsession
    | removing prunable => cases hsession
  | spawn p => trivial
  | createDir p id => trivial
  | writePid p => trivial
  | exit p => trivial
  | die p => trivial
  | prune p options => trivial
  | apply p => trivial
  | remove p => trivial

/-- **One run at a time is enough.** When no session gets a second run, and none begins
or is beginning as pruning is at it, no directory is removed while its session has a
run. -/
theorem safe_of_alone (hmax : pidMax < 2 ^ 31) {es : List (Event pidMax)}
    (hfresh : s.Fresh) (hidle : ∀ id, ¬ s.Live id)
    (hok : Runs.Throughout step Alone s es) (hrun : Runs.run step s es = some s') :
    s'.Safe := by
  have hone : One s :=
    { marks := fun p x hx => marks_of_session_eq_none
        (Option.eq_none_iff_forall_ne_some.mpr fun id hid => hidle id ⟨p, by rw [hx]; exact hid⟩)
      single := fun p q id hp _ => absurd ⟨p, hp⟩ (hidle id) }
  have hstep : ∀ (s : State pidMax) e s', (Inv s ∧ s.Safe) ∧ One s → Alone s e →
      step s e = some s' → (Inv s' ∧ s'.Safe) ∧ One s' := by
    rintro s e s' ⟨⟨hinv, _⟩, hone⟩ hok hstep
    exact ⟨inv_step hinv (keepsLive_of_alone hmax hone hok) hstep,
      one_step hinv hone hok hstep⟩
  exact (Runs.run_invariant hstep ⟨inv_of_fresh hfresh, hone⟩ hok hrun).left.right

end One

end PruneRace
