import Sbagent.Locks
import Sbagent.OpenFiles
import Sbagent.Parties

/-!
# One benchmark at a time

Whatever is measured is measured by a child process, and two that run at the same
time spoil each other's figures. Every call of the benchmark therefore takes a lock
of the file system first, and holds it until its child has ended. The lock is the
caller's: when the caller is killed, the lock is free, and its child goes on.

The output of the child goes to a file, which is emptied before the child starts and
read when the lock has been given back. Two calls for the same file – two people who
run the same phase of the same session – can take turns on it in between.

What the lock gives is therefore this (`lock_gives`). Two benchmarks run at the same
time only if one of them has lost its caller. And where that has happened to none of
the calls for a file, the file holds what the benchmark of the last call that has
opened it has printed so far, whoever reads it, and all of it when that call has
returned without an error.

Where the calls for the file have no lock in common, or one of them has lost its
caller, nothing is said: two processes then write at offsets of their own. Neither
the file for the error output nor the removal of directories is in the model.
-/

open OpenFiles

namespace BenchLock

/-- Options of a call. -/
structure InvokeOptions where
  /-- File to receive the output. -/
  stdout : Option String
  /-- Taken before the benchmark starts. -/
  lock : Option String

/-- A call, with all that its benchmark prints if it is left to finish. -/
structure Call extends InvokeOptions where
  printed : List UInt8

/-- Where a call is, and how much its benchmark has printed. -/
inductive Phase where
  | idle
  /-- It has the lock. -/
  | locked
  /-- It has emptied the file for the output. -/
  | opened
  | running (off : ℕ)
  /-- The benchmark has ended, well or not. -/
  | exited (ok : Bool) (off : ℕ)
  | returned (ok : Bool) (off : ℕ)
  /-- The caller is dead, and the benchmark goes on. -/
  | orphaned (off : ℕ)
  /-- The caller died first, and the benchmark has ended. -/
  | lost (off : ℕ)
  /-- The caller died while no benchmark was running. -/
  | dead (off : ℕ)
  deriving DecidableEq

namespace Phase

def offset : Phase → ℕ
  | running off | exited _ off | returned _ off | orphaned off | lost off | dead off => off
  | idle | locked | opened => 0

/-- The call is between taking its lock and giving it back. -/
def isInside : Phase → Bool
  | locked | opened | running _ | exited _ _ => true
  | _ => false

/-- The call is inside, and has opened the file for its output. -/
def isOpen : Phase → Bool
  | opened | running _ | exited _ _ => true
  | _ => false

/-- A benchmark is running. -/
def hasChild : Phase → Bool
  | running _ | orphaned _ => true
  | _ => false

/-- The benchmark has lost its caller. -/
def isOrphan : Phase → Bool
  | orphaned _ | lost _ => true
  | _ => false

theorem isInside_of_isOpen {x : Phase} (h : x.isOpen = true) : x.isInside = true := by
  cases x <;> first | rfl | exact Bool.noConfusion h

/-- A benchmark whose caller is alive runs inside of the lock. -/
theorem isInside_of_hasChild {x : Phase} (h : x.hasChild = true) (ho : x.isOrphan = false) :
    x.isInside = true := by
  cases x <;> first | rfl | exact Bool.noConfusion h | exact Bool.noConfusion ho

end Phase

/-- What a call, or the benchmark that it has started, can do next. -/
inductive Action where
  | acquire
  | openStdout
  | start
  /-- Print up to so many bytes and one. -/
  | print (n : ℕ)
  | exit (ok : Bool)
  /-- Give the lock back and return what the benchmark has ended with. -/
  | finish
  /-- Anything goes wrong before the benchmark is running. -/
  | fail
  /-- The caller is killed. -/
  | kill
  deriving DecidableEq

/-- The files, and who holds which lock. -/
structure Shared where
  files : String → List UInt8
  held : Locks.Holders String

/-- The lock that a call is inside of. -/
def inside (x : Call × Phase) : Option String :=
  if x.2.isInside then x.1.lock else none

/-- Change the file for the output of a call, if it has one. -/
def edit (c : Call) (f : List UInt8 → List UInt8) (sh : Shared) : Shared :=
  match c.stdout with
  | none => sh
  | some o => { sh with files := Function.update sh.files o (f (sh.files o)) }

/-- Take the lock of a call, if it has one. -/
def take (c : Call) (p : ℕ) (sh : Shared) : Shared :=
  match c.lock with
  | none => sh
  | some k => { sh with held := Function.update sh.held k (some p) }

/-- Give back what a call is inside of. -/
def release (c : Call) (x : Phase) (sh : Shared) : Shared :=
  { sh with held := Locks.drop sh.held (inside (c, x)) }

/-- What is printed next. -/
def piece (c : Call) (off n : ℕ) : List UInt8 := (c.printed.drop off).take (n + 1)

/-- Print, at the benchmark's own offset. -/
def print (c : Call) (off n : ℕ) : Shared → Shared :=
  edit c fun bs => overwrite bs off (piece c off n)

/-- One action of a call. -/
def act (calls : ℕ → Call) (p : ℕ) (sh : Shared) (x : Phase) (a : Action) :
    Option (Shared × Phase) :=
  let c := calls p
  match a, x with
  | Action.acquire, Phase.idle =>
    if c.lock.bind sh.held = none then some (take c p sh, Phase.locked) else none
  | Action.openStdout, Phase.locked => some (edit c (fun _ => []) sh, Phase.opened)
  | Action.start, Phase.opened => some (sh, Phase.running 0)
  | Action.print n, Phase.running off =>
    if off < c.printed.length then
      some (print c off n sh, Phase.running (off + (piece c off n).length))
    else none
  | Action.print n, Phase.orphaned off =>
    if off < c.printed.length then
      some (print c off n sh, Phase.orphaned (off + (piece c off n).length))
    else none
  | Action.exit ok, Phase.running off =>
    if ok = true ∧ off ≠ c.printed.length then none else some (sh, Phase.exited ok off)
  | Action.exit _, Phase.orphaned off => some (sh, Phase.lost off)
  | Action.finish, Phase.exited ok off => some (release c x sh, Phase.returned ok off)
  | Action.fail, Phase.idle => some (sh, Phase.returned false 0)
  | Action.fail, Phase.locked => some (release c x sh, Phase.returned false 0)
  | Action.fail, Phase.opened => some (release c x sh, Phase.returned false 0)
  | Action.kill, Phase.idle => some (sh, Phase.dead 0)
  | Action.kill, Phase.locked => some (release c x sh, Phase.dead 0)
  | Action.kill, Phase.opened => some (release c x sh, Phase.dead 0)
  | Action.kill, Phase.running off => some (release c x sh, Phase.orphaned off)
  | Action.kill, Phase.exited _ off => some (release c x sh, Phase.dead off)
  | _, _ => none

abbrev State : Type := Parties ℕ Shared Phase

def step (calls : ℕ → Call) : State → ℕ × Action → Option State := Parties.step (act calls)

/-- Nobody has called the benchmark yet. -/
def initial (files : String → List UInt8) : State := ⟨⟨files, fun _ => none⟩, fun _ => Phase.idle⟩

/-! ## What an action does -/

/-- All that an action of a call can do: take the lock, empty the file, print, or
move on, in which case it may give the lock back. -/
inductive Does (a : Action) (c : Call) (p : ℕ) (sh : Shared) (x : Phase) :
    Shared → Phase → Prop where
  | acquires (ha : a ≠ Action.openStdout) (hphase : x = Phase.idle)
      (hfree : ∀ k, c.lock = some k → sh.held k = none) :
      Does a c p sh x (take c p sh) Phase.locked
  | opens (ha : a = Action.openStdout) (hphase : x = Phase.locked) :
      Does a c p sh x (edit c (fun _ => []) sh) Phase.opened
  | prints (off n : ℕ) (ha : a ≠ Action.openStdout) (hphase : x = Phase.running off)
      (hoff : off < c.printed.length) :
      Does a c p sh x (print c off n sh) (Phase.running (off + (piece c off n).length))
  | printsAlone (off n : ℕ) (ha : a ≠ Action.openStdout) (hphase : x = Phase.orphaned off)
      (hoff : off < c.printed.length) :
      Does a c p sh x (print c off n sh) (Phase.orphaned (off + (piece c off n).length))
  | stays (y : Phase) (ha : a ≠ Action.openStdout) (hinside : y.isInside = x.isInside)
      (hopen : y.isOpen = true → x.isOpen = true)
      (hoff : y.offset = x.offset) (horphan : x.isOrphan = true → y.isOrphan = true)
      (hok : ∀ off, y = Phase.exited true off → off = c.printed.length)
      (hret : ∀ off, y ≠ Phase.returned true off) : Does a c p sh x sh y
  | leaves (y : Phase) (ha : a ≠ Action.openStdout) (hinside : y.isInside = false)
      (hoff : y.offset = x.offset) (hx : x.isOrphan = false)
      (hret : ∀ off, y = Phase.returned true off → x = Phase.exited true off) :
      Does a c p sh x (release c x sh) y

section Actions

variable {calls : ℕ → Call} {c : Call} {p : ℕ} {sh sh' : Shared} {x y : Phase} {a : Action}

theorem does_of_act (h : act calls p sh x a = some (sh', y)) :
    Does a (calls p) p sh x sh' y := by
  unfold act at h
  dsimp only at h
  split at h
  case h_1 =>
    split at h
    case isTrue hfree =>
      obtain ⟨rfl, rfl⟩ := Prod.mk.inj (Option.some.inj h)
      refine Does.acquires Action.noConfusion rfl fun k hk => ?_
      rw [hk] at hfree
      exact hfree
    case isFalse => cases h
  case h_2 =>
    obtain ⟨rfl, rfl⟩ := Prod.mk.inj (Option.some.inj h)
    exact Does.opens rfl rfl
  case h_3 =>
    obtain ⟨rfl, rfl⟩ := Prod.mk.inj (Option.some.inj h)
    exact Does.stays _ Action.noConfusion rfl (fun _ => rfl) rfl Bool.noConfusion
      (fun _ => Phase.noConfusion) fun _ => Phase.noConfusion
  case h_4 n off =>
    split at h
    case isTrue hoff =>
      obtain ⟨rfl, rfl⟩ := Prod.mk.inj (Option.some.inj h)
      exact Does.prints off n Action.noConfusion rfl hoff
    case isFalse => cases h
  case h_5 n off =>
    split at h
    case isTrue hoff =>
      obtain ⟨rfl, rfl⟩ := Prod.mk.inj (Option.some.inj h)
      exact Does.printsAlone off n Action.noConfusion rfl hoff
    case isFalse => cases h
  case h_6 ok off =>
    split at h
    case isTrue => cases h
    case isFalse hok =>
      obtain ⟨rfl, rfl⟩ := Prod.mk.inj (Option.some.inj h)
      refine Does.stays _ Action.noConfusion rfl (fun _ => rfl) rfl Bool.noConfusion
        (fun off' heq => ?_) fun _ => Phase.noConfusion
      obtain ⟨rfl, rfl⟩ := Phase.exited.inj heq
      exact not_not.mp fun hne => hok ⟨rfl, hne⟩
  case h_7 off =>
    obtain ⟨rfl, rfl⟩ := Prod.mk.inj (Option.some.inj h)
    exact Does.stays _ Action.noConfusion rfl Bool.noConfusion rfl (fun _ => rfl)
      (fun _ => Phase.noConfusion) fun _ => Phase.noConfusion
  case h_8 ok off =>
    obtain ⟨rfl, rfl⟩ := Prod.mk.inj (Option.some.inj h)
    refine Does.leaves _ Action.noConfusion rfl rfl rfl fun off' heq => ?_
    obtain ⟨rfl, rfl⟩ := Phase.returned.inj heq
    rfl
  case h_9 =>
    obtain ⟨rfl, rfl⟩ := Prod.mk.inj (Option.some.inj h)
    exact Does.stays _ Action.noConfusion rfl Bool.noConfusion rfl Bool.noConfusion
      (fun _ => Phase.noConfusion) fun _ heq => Bool.noConfusion (Phase.returned.inj heq).left
  case h_10 | h_11 =>
    obtain ⟨rfl, rfl⟩ := Prod.mk.inj (Option.some.inj h)
    exact Does.leaves _ Action.noConfusion rfl rfl rfl fun _ heq =>
      Bool.noConfusion (Phase.returned.inj heq).left
  case h_12 =>
    obtain ⟨rfl, rfl⟩ := Prod.mk.inj (Option.some.inj h)
    exact Does.stays _ Action.noConfusion rfl Bool.noConfusion rfl Bool.noConfusion
      (fun _ => Phase.noConfusion) fun _ => Phase.noConfusion
  case h_13 | h_14 | h_15 | h_16 =>
    obtain ⟨rfl, rfl⟩ := Prod.mk.inj (Option.some.inj h)
    exact Does.leaves _ Action.noConfusion rfl rfl rfl fun _ => Phase.noConfusion
  case h_17 => cases h

/-- A benchmark that has lost its caller does not get it back. -/
theorem orphan_does (h : Does a c p sh x sh' y) (hx : x.isOrphan = true) :
    y.isOrphan = true := by
  cases h with
  | acquires ha hphase => rw [hphase] at hx; cases hx
  | opens ha hphase => rw [hphase] at hx; cases hx
  | prints off n ha hphase => rw [hphase] at hx; cases hx
  | printsAlone => rfl
  | stays _ _ _ _ _ horphan => exact horphan hx
  | leaves _ _ _ _ hx' => rw [hx'] at hx; cases hx

end Actions

/-! ## Locks -/

section Files

variable {c : Call} {p : ℕ} {sh : Shared} {x : Phase} {f : List UInt8 → List UInt8} {o : String}

@[simp] theorem held_edit : (edit c f sh).held = sh.held := by
  unfold edit
  split <;> rfl

@[simp] theorem files_take : (take c p sh).files = sh.files := by
  unfold take
  split <;> rfl

theorem files_edit_self (h : c.stdout = some o) : (edit c f sh).files o = f (sh.files o) := by
  unfold edit
  rw [h]
  exact Function.update_self ..

theorem files_edit_of_ne (h : c.stdout ≠ some o) : (edit c f sh).files o = sh.files o := by
  unfold edit
  split
  case h_1 => rfl
  case h_2 o' ho' =>
    have hne : o ≠ o' := fun heq => h (by rw [heq, ho'])
    exact Function.update_of_ne hne ..

end Files

/-- A call is inside of its lock exactly as long as it holds it. -/
def Serial (calls : ℕ → Call) (s : State) : Prop :=
  Locks.Exclusive inside (fun p => (calls p, s.own p)) s.shared.held

section Serial

variable {calls : ℕ → Call} {s : State} {p q : ℕ} {sh : Shared} {x : Phase} {a : Action}

/-- One call moves on. -/
theorem pair_update : (fun q => (calls q, Function.update s.own p x q))
    = Function.update (fun q => (calls q, s.own q)) p (calls p, x) := by
  funext q
  by_cases hqp : q = p
  · subst hqp
    rw [Function.update_self, Function.update_self]
  · rw [Function.update_of_ne hqp, Function.update_of_ne hqp]

theorem inside_eq_some_iff {c : Call} {k : String} :
    inside (c, x) = some k ↔ x.isInside = true ∧ c.lock = some k := by
  unfold inside
  cases x.isInside <;> simp

theorem inside_congr {c : Call} {y : Phase} (h : y.isInside = x.isInside) :
    inside (c, y) = inside (c, x) := by
  unfold inside
  rw [h]

theorem inside_eq_none {c : Call} (h : x.isInside = false) : inside (c, x) = none := by
  unfold inside
  rw [h]
  rfl

/-- **Every action keeps the calls one at a time.** -/
theorem serial_does (h : Serial calls s) (hdoes : Does a (calls p) p s.shared (s.own p) sh x) :
    Serial calls ⟨sh, Function.update s.own p x⟩ := by
  show Locks.Exclusive inside (fun q => (calls q, Function.update s.own p x q)) sh.held
  rw [pair_update]
  cases hdoes with
  | acquires _ hphase hfree =>
    unfold take
    split
    case h_1 hnone =>
      refine h.leave ?_
      unfold inside
      exact hnone
    case h_2 k hk => exact h.acquire (hfree k hk) (inside_eq_some_iff.mpr ⟨rfl, hk⟩)
  | opens _ hphase =>
    rw [held_edit]
    exact h.stay (inside_congr (by rw [hphase]; rfl))
  | prints off n _ hphase =>
    unfold print
    rw [held_edit]
    exact h.stay (inside_congr (by rw [hphase]; rfl))
  | printsAlone off n _ hphase =>
    unfold print
    rw [held_edit]
    exact h.stay (inside_congr (by rw [hphase]; rfl))
  | stays _ _ hinside => exact h.stay (inside_congr hinside)
  | leaves _ _ hinside => exact h.die (inside_eq_none hinside)

/-- Two calls that are inside of one lock are one call. -/
theorem Serial.unique (h : Serial calls s) {k : String} (hp : (s.own p).isInside = true)
    (hq : (s.own q).isInside = true) (hpk : (calls p).lock = some k)
    (hqk : (calls q).lock = some k) : p = q :=
  Locks.Exclusive.unique h (inside_eq_some_iff.mpr ⟨hp, hpk⟩) (inside_eq_some_iff.mpr ⟨hq, hqk⟩)

end Serial

/-! ## Outputs -/

/-- The last call that has opened a file for its output. -/
def lastOpen (calls : ℕ → Call) (es : List (ℕ × Action)) (o : String) : Option ℕ :=
  ((es.filter fun e => e.2 = Action.openStdout ∧ (calls e.1).stdout = some o).getLast?).map
    Prod.fst

/-- How far a benchmark is. -/
structure Sound (c : Call) (x : Phase) : Prop where
  le : x.offset ≤ c.printed.length
  exited : ∀ off, x = Phase.exited true off → off = c.printed.length
  returned : ∀ off, x = Phase.returned true off → off = c.printed.length

/-- The calls for a file take turns: all of them take one lock, and none has lost its
caller. -/
structure TakeTurns (calls : ℕ → Call) (s : State) (o k : String) : Prop where
  lock : ∀ p, (calls p).stdout = some o → (calls p).lock = some k
  alive : ∀ p, (calls p).stdout = some o → (s.own p).isOrphan = false

/-- A file holds what the benchmark of a call has printed, and no other call has it open. -/
structure Holds (calls : ℕ → Call) (s : State) (o : String) (q : ℕ) : Prop where
  text : s.shared.files o = (calls q).printed.take (s.own q).offset
  alone : ∀ p, p ≠ q → (calls p).stdout = some o → (s.own p).isOpen = false

/-- What is known after some events. -/
structure Inv (calls : ℕ → Call) (es : List (ℕ × Action)) (s : State) : Prop where
  serial : Serial calls s
  sound : ∀ p, Sound (calls p) (s.own p)
  output : ∀ o k q, TakeTurns calls s o k → lastOpen calls es o = some q → Holds calls s o q

section Outputs

variable {calls : ℕ → Call} {es : List (ℕ × Action)} {s : State} {p q : ℕ} {sh : Shared}
  {x : Phase} {c : Call} {o k : String} {a : Action}

theorem lastOpen_concat {e : ℕ × Action} : lastOpen calls (es ++ [e]) o
    = if e.2 = Action.openStdout ∧ (calls e.1).stdout = some o then some e.1
      else lastOpen calls es o := by
  unfold lastOpen
  rw [List.filter_append]
  split
  case isTrue h =>
    rw [List.filter_cons_of_pos (by simpa using h), List.filter_nil, List.getLast?_concat]
    rfl
  case isFalse h =>
    rw [List.filter_cons_of_neg (by simpa using h), List.filter_nil, List.append_nil]

/-- Who prints next at the end of what is printed has printed more of it. -/
theorem overwrite_take {l : List UInt8} {off n : ℕ} (h : off ≤ l.length) :
    overwrite (l.take off) off ((l.drop off).take n) = l.take (off + ((l.drop off).take n).length)
    := by
  have hlen : (l.take off).length = off := List.length_take_of_le h
  have hhead : (l.take off ++ List.replicate (off - (l.take off).length) 0).take off
      = l.take off := by
    rw [hlen, Nat.sub_self, List.replicate_zero, List.append_nil, List.take_take, Nat.min_self]
  have htail : (l.take off).drop (off + ((l.drop off).take n).length) = [] :=
    List.drop_eq_nil_of_le (hlen.le.trans (Nat.le_add_right ..))
  have hpiece : (l.drop off).take ((l.drop off).take n).length = (l.drop off).take n := by
    rw [List.length_take]
    exact List.take_eq_take_min.symm
  unfold overwrite
  rw [hhead, htail, List.append_nil, List.take_add, hpiece]

theorem stdout_of_lastOpen (h : lastOpen calls es o = some q) : (calls q).stdout = some o := by
  obtain ⟨e, he, rfl⟩ := Option.map_eq_some_iff.mp h
  have hmem := List.mem_of_getLast? he
  rw [List.mem_filter, decide_eq_true_eq] at hmem
  exact hmem.right.right

theorem sound_does {sh' : Shared} {y : Phase} (h : Sound c x) (hdoes : Does a c p sh x sh' y) :
    Sound c y := by
  cases hdoes with
  | acquires => exact ⟨Nat.zero_le _, fun _ => Phase.noConfusion, fun _ => Phase.noConfusion⟩
  | opens => exact ⟨Nat.zero_le _, fun _ => Phase.noConfusion, fun _ => Phase.noConfusion⟩
  | prints off n _ _ hoff =>
    exact ⟨length_piece_le (n + 1) hoff.le, fun _ => Phase.noConfusion,
      fun _ => Phase.noConfusion⟩
  | printsAlone off n _ _ hoff =>
    exact ⟨length_piece_le (n + 1) hoff.le, fun _ => Phase.noConfusion,
      fun _ => Phase.noConfusion⟩
  | stays _ _ _ _ hoff _ hok hret =>
    exact ⟨hoff.le.trans h.le, hok, fun off heq => absurd heq (hret off)⟩
  | leaves _ _ hinside hoff _ hret =>
    refine ⟨hoff.le.trans h.le, fun off heq => ?_, fun off heq => h.exited off (hret off heq)⟩
    rw [heq] at hinside
    cases hinside

/-- What is said of a file stays true when it is not written. -/
theorem Holds.quiet (h : Holds calls s o q) (hfiles : sh.files o = s.shared.files o)
    (hoff : q = p → x.offset = (s.own p).offset)
    (hopen : (calls p).stdout = some o → x.isOpen = true → (s.own p).isOpen = true) :
    Holds calls ⟨sh, Function.update s.own p x⟩ o q where
  text := by
    show sh.files o = (calls q).printed.take (Function.update s.own p x q).offset
    rw [hfiles, h.text]
    by_cases hqp : q = p
    · rw [hqp, Function.update_self, hoff hqp]
    · rw [Function.update_of_ne hqp]
  alone := by
    intro r hrq hr
    show (Function.update s.own p x r).isOpen = false
    by_cases hrp : r = p
    · rw [hrp, Function.update_self, Bool.eq_false_iff]
      rw [hrp] at hrq hr
      exact fun hx => Bool.eq_false_iff.mp (h.alone p hrq hr) (hopen hr hx)
    · rw [Function.update_of_ne hrp]
      exact h.alone r hrq hr

/-- **The benchmark that has the file prints more of its output.** -/
theorem Holds.prints {off n : ℕ} (h : Holds calls s o p) (ho : (calls p).stdout = some o)
    (hphase : s.own p = Phase.running off) (hoff : off ≤ (calls p).printed.length) :
    Holds calls ⟨print (calls p) off n s.shared,
      Function.update s.own p (Phase.running (off + (piece (calls p) off n).length))⟩ o p where
  text := by
    show (print (calls p) off n s.shared).files o = _
    unfold print
    rw [files_edit_self ho, h.text, hphase]
    show _ = (calls p).printed.take (Function.update s.own p _ p).offset
    rw [Function.update_self]
    exact overwrite_take hoff
  alone := by
    intro r hrp hr
    show (Function.update s.own p _ r).isOpen = false
    rw [Function.update_of_ne hrp]
    exact h.alone r hrp hr

/-- **The call that has the lock opens the file, and nobody else has it open.** -/
theorem holds_opens (h : Serial calls s) (hphase : s.own p = Phase.locked)
    (ho : (calls p).stdout = some o)
    (hlock : ∀ p, (calls p).stdout = some o → (calls p).lock = some k) :
    Holds calls ⟨edit (calls p) (fun _ => []) s.shared, Function.update s.own p Phase.opened⟩
      o p where
  text := by
    show (edit (calls p) (fun _ => []) s.shared).files o = _
    rw [files_edit_self ho]
    show _ = (calls p).printed.take (Function.update s.own p _ p).offset
    rw [Function.update_self]
    rfl
  alone := by
    intro r hrp hr
    show (Function.update s.own p _ r).isOpen = false
    rw [Function.update_of_ne hrp, Bool.eq_false_iff]
    exact fun hopen => hrp (h.unique (Phase.isInside_of_isOpen hopen) (by rw [hphase]; rfl)
      (hlock r hr) (hlock p ho))

/-- Before an action that leaves the calls for a file taking turns, they did. -/
theorem TakeTurns.before (h : TakeTurns calls ⟨sh, Function.update s.own p x⟩ o k)
    (hdoes : Does a (calls p) p s.shared (s.own p) sh x) : TakeTurns calls s o k where
  lock := h.lock
  alive := by
    intro r hr
    have halive : (Function.update s.own p x r).isOrphan = false := h.alive r hr
    by_cases hrp : r = p
    · rw [hrp, Function.update_self] at halive
      rw [hrp, Bool.eq_false_iff]
      intro hp
      rw [orphan_does hdoes hp] at halive
      cases halive
    · rwa [Function.update_of_ne hrp] at halive

/-- **Every action keeps what is said of a file.** -/
theorem output_does (h : Inv calls es s) (hdoes : Does a (calls p) p s.shared (s.own p) sh x)
    (hturns : TakeTurns calls ⟨sh, Function.update s.own p x⟩ o k)
    (hlast : lastOpen calls (es ++ [(p, a)]) o = some q) :
    Holds calls ⟨sh, Function.update s.own p x⟩ o q := by
  have hbefore := hturns.before hdoes
  -- unless it is the opening of the file, the last opening is what it was
  have hold : a ≠ Action.openStdout ∨ (calls p).stdout ≠ some o → Holds calls s o q := by
    intro hne
    rw [lastOpen_concat, if_neg (by tauto)] at hlast
    exact h.output o k q hbefore hlast
  cases hdoes with
  | acquires ha hphase =>
    refine (hold (Or.inl ha)).quiet (congrFun files_take o) (fun _ => ?_) fun _ => Bool.noConfusion
    rw [hphase]
    rfl
  | opens ha hphase =>
    by_cases ho : (calls p).stdout = some o
    · rw [lastOpen_concat, if_pos ⟨ha, ho⟩] at hlast
      obtain rfl := Option.some.inj hlast
      exact holds_opens h.serial hphase ho hturns.lock
    · refine (hold (Or.inr ho)).quiet (files_edit_of_ne ho) (fun _ => ?_) fun h => absurd h ho
      rw [hphase]
      rfl
  | prints off n ha hphase hoff =>
    have hq := hold (Or.inl ha)
    by_cases ho : (calls p).stdout = some o
    · obtain rfl : q = p := by
        by_contra hne
        have hclosed := hq.alone p (fun h => hne h.symm) ho
        rw [hphase] at hclosed
        cases hclosed
      exact hq.prints ho hphase hoff.le
    · rw [lastOpen_concat, if_neg (fun h => ha h.left)] at hlast
      refine hq.quiet (files_edit_of_ne ho) (fun hqp => ?_) fun h => absurd h ho
      exact absurd (hqp ▸ stdout_of_lastOpen hlast) ho
  | printsAlone off n ha hphase hoff =>
    have hq := hold (Or.inl ha)
    have ho : (calls p).stdout ≠ some o := by
      intro ho
      have halive := hbefore.alive p ho
      rw [hphase] at halive
      cases halive
    rw [lastOpen_concat, if_neg (fun h => ha h.left)] at hlast
    refine hq.quiet (files_edit_of_ne ho) (fun hqp => ?_) fun h => absurd h ho
    exact absurd (hqp ▸ stdout_of_lastOpen hlast) ho
  | stays _ ha _ hopen hoff =>
    exact (hold (Or.inl ha)).quiet rfl (fun _ => hoff) fun _ => hopen
  | leaves _ ha hinside hoff =>
    refine (hold (Or.inl ha)).quiet rfl (fun _ => hoff) fun _ hopen => ?_
    rw [Phase.isInside_of_isOpen hopen] at hinside
    cases hinside

theorem inv_step {s' : State} {e : ℕ × Action} (h : Inv calls es s)
    (hstep : step calls s e = some s') : Inv calls (es ++ [e]) s' := by
  obtain ⟨p, a⟩ := e
  obtain ⟨sh, x, hact, rfl⟩ := Parties.step_eq_some_iff.mp hstep
  have hdoes := does_of_act hact
  refine ⟨serial_does h.serial hdoes, fun r => ?_, fun o k q => output_does h hdoes⟩
  show Sound (calls r) (Function.update s.own p x r)
  by_cases hrp : r = p
  · rw [hrp, Function.update_self]
    exact sound_does (h.sound p) hdoes
  · rw [Function.update_of_ne hrp]
    exact h.sound r

theorem inv_initial (files : String → List UInt8) : Inv calls [] (initial files) where
  serial := by
    intro p k hp
    cases (inside_eq_some_iff.mp hp).left
  sound _ := ⟨Nat.zero_le _, fun _ => Phase.noConfusion, fun _ => Phase.noConfusion⟩
  output _ _ _ _ hlast := by cases hlast

end Outputs

/-- What the lock of the benchmark gives: of two benchmarks under one lock that run at the
same time, one has lost its caller; and a file on which the calls take turns holds what the
benchmark of the last call that has opened it has printed so far, and all of it when that
call has returned well. -/
structure LockGives (calls : ℕ → Call) (es : List (ℕ × Action)) (s : State) : Prop where
  one : ∀ p q k, p ≠ q → (calls p).lock = some k → (calls q).lock = some k →
    (s.own p).hasChild = true → (s.own q).hasChild = true →
      (s.own p).isOrphan = true ∨ (s.own q).isOrphan = true
  soFar : ∀ o k q, TakeTurns calls s o k → lastOpen calls es o = some q →
    s.shared.files o = (calls q).printed.take (s.own q).offset
  whole : ∀ o k q off, TakeTurns calls s o k → lastOpen calls es o = some q →
    s.own q = Phase.returned true off → s.shared.files o = (calls q).printed

/-- **What the lock gives**, in every interleaving of any number of calls, each of which may
fail or lose its caller at any time. -/
theorem lock_gives {calls : ℕ → Call} {files : String → List UInt8} {es : List (ℕ × Action)}
    {s : State} (hrun : Runs.run (step calls) (initial files) es = some s) :
    LockGives calls es s := by
  have h : Inv calls es s :=
    Runs.run_history (inv_initial files) (fun _ _ _ _ _ h hstep => inv_step h hstep) hrun
  refine ⟨fun p q k hne hpk hqk hp hq => ?_, fun o k q hturns hlast => ?_,
    fun o k q off hturns hlast hret => ?_⟩
  · by_contra hnot
    obtain ⟨hp', hq'⟩ := not_or.mp hnot
    rw [Bool.not_eq_true] at hp' hq'
    exact hne (h.serial.unique (Phase.isInside_of_hasChild hp hp')
      (Phase.isInside_of_hasChild hq hq') hpk hqk)
  · exact (h.output o k q hturns hlast).text
  · have htext := (h.output o k q hturns hlast).text
    rw [hret] at htext
    rw [htext]
    exact List.take_of_length_le ((h.sound q).returned off hret).ge

/-- Calls of two sessions, each for a file of its own. -/
def twoCalls (p : ℕ) : Call where
  stdout := some (if p = 1 then "baseline/bench-run.json" else "verify/bench-run.json")
  lock := some "benchmark.lock"
  printed := [123, 125]

/-- The first call is killed while its benchmark runs, and the second goes through. -/
def orphanRun : List (ℕ × Action) :=
  [(0, Action.acquire), (0, Action.openStdout), (0, Action.start), (0, Action.kill),
    (1, Action.acquire), (1, Action.openStdout), (1, Action.start), (0, Action.print 0),
    (1, Action.print 9), (1, Action.exit true), (1, Action.finish)]

/-- The theorem at two benchmarks that run at the same time: the one without a caller goes
on, and the output of the other is whole. -/
theorem lock_gives_orphan : ∃ s, Runs.run (step twoCalls) (initial fun _ => []) orphanRun = some s
    ∧ s.own 0 = Phase.orphaned 1
    ∧ s.shared.files "baseline/bench-run.json" = (twoCalls 1).printed := by
  obtain ⟨s, hrun, hzero, hone⟩ : ∃ s,
      Runs.run (step twoCalls) (initial fun _ => []) orphanRun = some s
        ∧ s.own 0 = Phase.orphaned 1 ∧ s.own 1 = Phase.returned true 2 :=
    ⟨_, rfl, rfl, rfl⟩
  refine ⟨s, hrun, hzero, (lock_gives hrun).whole _ "benchmark.lock" 1 2 ⟨fun _ _ => rfl, ?_⟩
    (by decide) hone⟩
  intro p hp
  obtain rfl : p = 1 := by
    by_contra hne
    unfold twoCalls at hp
    rw [if_neg hne] at hp
    revert hp
    decide
  rw [hone]
  rfl

end BenchLock
