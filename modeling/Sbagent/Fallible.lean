import Mathlib

/-!
# Results that carry a chain of messages

A fallible computation either returns a value or fails with a chain of
messages, the outermost first: each caller on the way up may put its own
message in front of what it received. A validator is a computation that
returns nothing: what it says about its input is *whether* it returns, and the
messages are what it says otherwise.

Everything here is about the first of the two questions. Each combinator has
one lemma that reads its success as a proposition – a guard succeeds when its
condition fails to hold, a sequence when both parts do, a loop when every
round does – so that the success of a validator rewrites, combinator by
combinator, to the property it checks.
-/

universe u v

/-- A result: a value, or a chain of messages with the outermost first. -/
abbrev Fallible (α : Type u) : Type u := Except (List String) α

namespace Fallible

variable {α : Type u} {β : Type v}

/-- Fail with a single message. -/
def bail (msg : String) : Fallible α := Except.error [msg]

/-- Fail with a message when a condition holds, and do nothing otherwise. -/
def bailIf (p : Prop) [Decidable p] (msg : String) : Fallible Unit :=
  if p then bail msg else Except.ok ()

/-- Put a message in front of the chain of a failure. -/
def context (r : Fallible α) (msg : String) : Fallible α :=
  match r with
  | Except.ok a => Except.ok a
  | Except.error e => Except.error (msg :: e)

/-- Whether a result is a value. -/
def isOk : Fallible α → Bool
  | Except.ok _ => true
  | Except.error _ => false

/-- Run a check on the value of an option, if it has one. -/
def onSome (o : Option α) (f : α → Fallible Unit) : Fallible Unit :=
  match o with
  | some a => f a
  | none => Except.ok ()

/-- Run a check on every element of a list, in order, with its position
counted from `k`: the first failure is the result. -/
def forEachFrom (f : ℕ → α → Fallible Unit) : ℕ → List α → Fallible Unit
  | _, [] => Except.ok ()
  | k, a :: l => do
    f k a
    forEachFrom f (k + 1) l

/-- Run a check on every element of a list, in order, with its position. -/
def forEach (f : ℕ → α → Fallible Unit) (l : List α) : Fallible Unit :=
  forEachFrom f 0 l

/-- Run a check on every element of a list and refuse a key seen before. A
round first runs `pre`, then looks the key up among those of the earlier
elements, then runs `post`: validators differ in which of their checks come
before the duplicate is noticed. -/
def scanDistinctFrom {κ : Type v} [DecidableEq κ] (key : α → κ)
    (dup : ℕ → α → String) (pre post : ℕ → α → Fallible Unit) :
    ℕ → Finset κ → List α → Fallible Unit
  | _, _, [] => Except.ok ()
  | k, seen, a :: l => do
    pre k a
    bailIf (key a ∈ seen) (dup k a)
    post k a
    scanDistinctFrom key dup pre post (k + 1) (insert (key a) seen) l

/-- Run a check on every element of a list and refuse a repeated key. -/
def scanDistinct {κ : Type v} [DecidableEq κ] (key : α → κ)
    (dup : ℕ → α → String) (pre post : ℕ → α → Fallible Unit) (l : List α) :
    Fallible Unit :=
  scanDistinctFrom key dup pre post 0 ∅ l

/-- The value of an option, or a failure with the given message. -/
def ofOption (o : Option α) (msg : String) : Fallible α :=
  match o with
  | some a => Except.ok a
  | none => bail msg

/-! ## Success of each combinator -/

@[simp] theorem isOk_ok (a : α) : isOk (Except.ok a : Fallible α) = true := rfl

@[simp] theorem isOk_error (e : List String) :
    isOk (Except.error e : Fallible α) = false := rfl

theorem isOk_iff {r : Fallible α} : r.isOk = true ↔ ∃ a, r = Except.ok a := by
  cases r with
  | ok a => exact ⟨fun _ => ⟨a, rfl⟩, fun _ => rfl⟩
  | error e => simp

theorem isOk_unit_iff {r : Fallible Unit} : r.isOk = true ↔ r = Except.ok () := by
  cases r with
  | ok a => exact ⟨fun _ => rfl, fun _ => rfl⟩
  | error e => simp

theorem ok_of_toOption {r : Fallible α} {a : α} (h : r.toOption = some a) :
    r = Except.ok a := by
  cases r with
  | ok b => exact congrArg Except.ok (Option.some.inj h)
  | error e => cases h

@[simp] theorem bail_ne_ok {msg : String} {a : α} :
    (bail msg : Fallible α) = Except.ok a ↔ False := by
  simp [bail]

@[simp] theorem bailIf_ok_iff {p : Prop} [Decidable p] {msg : String} {u : Unit} :
    bailIf p msg = Except.ok u ↔ ¬ p := by
  unfold bailIf
  split <;> simp_all

@[simp] theorem context_ok_iff {r : Fallible α} {msg : String} {a : α} :
    r.context msg = Except.ok a ↔ r = Except.ok a := by
  cases r <;> simp [context]

@[simp] theorem ofOption_ok_iff {o : Option α} {msg : String} {a : α} :
    ofOption o msg = Except.ok a ↔ o = some a := by
  cases o <;> simp [ofOption]

@[simp] theorem onSome_ok_iff {o : Option α} {f : α → Fallible Unit} {u : Unit} :
    onSome o f = Except.ok u ↔ ∀ a ∈ o, f a = Except.ok () := by
  cases o <;> simp [onSome]

/-- **A sequence succeeds when both parts do.** -/
@[simp] theorem bind_ok_iff {α β : Type u} {r : Fallible α} {f : α → Fallible β}
    {b : β} : (r >>= f) = Except.ok b ↔ ∃ a, r = Except.ok a ∧ f a = Except.ok b := by
  cases r with
  | ok a => simp [bind, Except.bind]
  | error e => simp [bind, Except.bind]

/-- **A check followed by the rest succeeds when both do.** -/
@[simp high] theorem seq_ok_iff {β : Type} {r : Fallible Unit}
    {f : Unit → Fallible β} {b : β} :
    (r >>= f) = Except.ok b ↔ r = Except.ok () ∧ f () = Except.ok b := by
  rw [bind_ok_iff]
  constructor
  · rintro ⟨_, h⟩
    exact h
  · intro h
    exact ⟨(), h⟩

@[simp] theorem pure_ok_iff {a b : α} :
    (pure a : Fallible α) = Except.ok b ↔ a = b := by
  simp [pure, Except.pure]

theorem forEachFrom_ok_iff {f : ℕ → α → Fallible Unit} {k : ℕ} {l : List α}
    {u : Unit} : forEachFrom f k l = Except.ok u
      ↔ ∀ i a, l[i]? = some a → f (k + i) a = Except.ok () := by
  induction l generalizing k with
  | nil => simp [forEachFrom]
  | cons a l ih =>
    simp only [forEachFrom, seq_ok_iff, ih]
    constructor
    · rintro ⟨h₀, h⟩ i b hb
      cases i with
      | zero => obtain rfl : a = b := by simpa using hb
                exact h₀
      | succ i =>
        rw [show k + (i + 1) = k + 1 + i by omega]
        exact h i b (by simpa using hb)
    · intro h
      refine ⟨h 0 a (by simp), fun i b hb => ?_⟩
      rw [show k + 1 + i = k + (i + 1) by omega]
      exact h (i + 1) b (by simpa using hb)

/-- **A loop succeeds when every round does.** -/
theorem forEach_ok_iff {f : ℕ → α → Fallible Unit} {l : List α} {u : Unit} :
    forEach f l = Except.ok u ↔ ∀ i a, l[i]? = some a → f i a = Except.ok () := by
  simp [forEach, forEachFrom_ok_iff]

/-- When the rounds do not read their position beyond their messages, a loop
succeeds when every element passes. -/
theorem forEach_ok_iff_forall {f : ℕ → α → Fallible Unit} {P : α → Prop}
    {l : List α} {u : Unit} (hf : ∀ i a, f i a = Except.ok () ↔ P a) :
    forEach f l = Except.ok u ↔ ∀ a ∈ l, P a := by
  simp only [forEach_ok_iff, hf]
  constructor
  · intro h a ha
    obtain ⟨i, hi⟩ := List.mem_iff_getElem?.mp ha
    exact h i a hi
  · intro h i a hi
    exact h a (List.mem_of_getElem? hi)

theorem scanDistinctFrom_ok_iff {κ : Type v} [DecidableEq κ] {key : α → κ}
    {dup : ℕ → α → String} {pre post : ℕ → α → Fallible Unit} {k : ℕ}
    {seen : Finset κ} {l : List α} {u : Unit} :
    scanDistinctFrom key dup pre post k seen l = Except.ok u
      ↔ (l.map key).Nodup ∧ (∀ a ∈ l, key a ∉ seen)
        ∧ ∀ i a, l[i]? = some a →
            pre (k + i) a = Except.ok () ∧ post (k + i) a = Except.ok () := by
  induction l generalizing k seen with
  | nil => simp [scanDistinctFrom]
  | cons a l ih =>
    simp only [scanDistinctFrom, seq_ok_iff, bailIf_ok_iff, ih, List.map_cons,
      List.nodup_cons, List.mem_map, List.forall_mem_cons, Finset.mem_insert,
      not_or]
    constructor
    · rintro ⟨hpre, hseen, hpost, hnd, hl, hchk⟩
      refine ⟨⟨?_, hnd⟩, ⟨hseen, fun b hb => (hl b hb).right⟩, fun i b hb => ?_⟩
      · rintro ⟨b, hb, hkey⟩
        exact (hl b hb).left hkey
      · cases i with
        | zero => obtain rfl : a = b := by simpa using hb
                  exact ⟨hpre, hpost⟩
        | succ i =>
          rw [show k + (i + 1) = k + 1 + i by omega]
          exact hchk i b (by simpa using hb)
    · rintro ⟨⟨hfresh, hnd⟩, ⟨hseen, hl⟩, hchk⟩
      have h₀ := hchk 0 a (by simp)
      refine ⟨h₀.left, hseen, h₀.right, hnd, fun b hb => ⟨?_, hl b hb⟩,
        fun i b hb => ?_⟩
      · intro hkey
        exact hfresh ⟨b, hb, hkey⟩
      · rw [show k + 1 + i = k + (i + 1) by omega]
        exact hchk (i + 1) b (by simpa using hb)

/-- **A scan that refuses duplicates succeeds when the keys are distinct and
every round's checks succeed** – in particular, where in a round the
duplicate is noticed does not matter to what is accepted. -/
theorem scanDistinct_ok_iff {κ : Type v} [DecidableEq κ] {key : α → κ}
    {dup : ℕ → α → String} {pre post : ℕ → α → Fallible Unit} {l : List α}
    {u : Unit} : scanDistinct key dup pre post l = Except.ok u
      ↔ (l.map key).Nodup ∧ ∀ i a, l[i]? = some a →
          pre i a = Except.ok () ∧ post i a = Except.ok () := by
  simp [scanDistinct, scanDistinctFrom_ok_iff]

/-- **Computing a value for every element succeeds when every element has
one**, and the values are then in the order of the elements. -/
theorem mapM_ok_iff {α β : Type u} {f : α → Fallible β} {l : List α}
    {bs : List β} : l.mapM f = Except.ok bs
      ↔ List.Forall₂ (fun a b => f a = Except.ok b) l bs := by
  induction l generalizing bs with
  | nil =>
    simp only [List.mapM_nil, pure_ok_iff, List.forall₂_nil_left_iff]
    exact eq_comm
  | cons a l ih =>
    simp only [List.mapM_cons, bind_ok_iff, pure_ok_iff, ih,
      List.forall₂_cons_left_iff]
    constructor
    · rintro ⟨b, hb, cs, hcs, rfl⟩
      exact ⟨b, cs, hb, hcs, rfl⟩
    · rintro ⟨b, cs, hb, hcs, rfl⟩
      exact ⟨b, hb, cs, hcs, rfl⟩

section Pointwise

variable {α β : Type*} {R : α → β → Prop} {as : List α} {bs : List β}

/-- What stands on the right of a pointwise relation is related to something on
the left. -/
theorem exists_of_mem_right (h : List.Forall₂ R as bs) {b : β} (hb : b ∈ bs) :
    ∃ a ∈ as, R a b := by
  induction h with
  | nil => cases hb
  | @cons a _ _ _ hab _ ih =>
    obtain rfl | hb := List.mem_cons.mp hb
    · exact ⟨a, List.mem_cons_self, hab⟩
    · obtain ⟨a', ha', hr⟩ := ih hb
      exact ⟨a', List.mem_cons_of_mem a ha', hr⟩

/-- What stands on the left is related to something on the right. -/
theorem exists_of_mem_left (h : List.Forall₂ R as bs) {a : α} (ha : a ∈ as) :
    ∃ b ∈ bs, R a b := exists_of_mem_right h.flip ha

/-- What stands at a position on the left is related to what stands there on
the right. -/
theorem getElem?_of_forall₂ (h : List.Forall₂ R as bs) {i : ℕ} {a : α}
    (ha : as[i]? = some a) : ∃ b, bs[i]? = some b ∧ R a b := by
  induction h generalizing i with
  | nil => cases ha
  | cons hab _ ih =>
    cases i with
    | zero =>
      obtain rfl := Option.some.inj ha
      exact ⟨_, rfl, hab⟩
    | succ i => exact ih ha

/-- Where every element has a value, the values stand in the order of the
elements. -/
theorem forall₂_filterMap {f : α → Option β} {l : List α}
    (h : ∀ a ∈ l, ∃ b, f a = some b ∧ R a b) : List.Forall₂ R l (l.filterMap f) := by
  induction l with
  | nil => exact List.Forall₂.nil
  | cons a l ih =>
    obtain ⟨b, hb, hr⟩ := h a List.mem_cons_self
    rw [List.filterMap_cons_some hb]
    exact List.Forall₂.cons hr (ih fun a' ha' => h a' (List.mem_cons_of_mem a ha'))

end Pointwise

section MapM

variable {α β : Type u} {f : α → Fallible β} {l : List α} {bs : List β}

/-- Every value is that of an element. -/
theorem exists_of_mem_mapM (h : l.mapM f = Except.ok bs) {b : β} (hb : b ∈ bs) :
    ∃ a ∈ l, f a = Except.ok b := exists_of_mem_right (mapM_ok_iff.mp h) hb

/-- Every element has a value. -/
theorem exists_mem_of_mapM (h : l.mapM f = Except.ok bs) {a : α} (ha : a ∈ l) :
    ∃ b ∈ bs, f a = Except.ok b := exists_of_mem_left (mapM_ok_iff.mp h) ha

end MapM

end Fallible

/-! ## Reading files -/

/-- What reading and parsing a file can find. -/
inductive FileRead (α : Type u) where
  /-- There is no such file. -/
  | notFound
  /-- The file is there and cannot be read. -/
  | ioError
  /-- The file was read and is not what it should be. -/
  | malformed
  /-- The file holds a value. -/
  | parsed (a : α)
  deriving DecidableEq

namespace FileRead

open Fallible

section Decidable

variable {α : Type u} {P : α → Prop} [DecidablePred P]

instance (f : FileRead α) : Decidable (∀ a, f = parsed a → P a) :=
  match f with
  | notFound => isTrue fun _ h => by cases h
  | ioError => isTrue fun _ h => by cases h
  | malformed => isTrue fun _ h => by cases h
  | parsed a => decidable_of_iff (P a)
      ⟨fun h _ hb => parsed.inj hb ▸ h, fun h => h a rfl⟩

instance (f : FileRead α) : Decidable (∃ a, f = parsed a ∧ P a) :=
  match f with
  | notFound => isFalse (by simp)
  | ioError => isFalse (by simp)
  | malformed => isFalse (by simp)
  | parsed a => decidable_of_iff (P a) (by simp)

end Decidable

variable {α : Type}

/-- What a file holds, if it could be read. -/
def value? : FileRead α → Option α
  | parsed a => some a
  | _ => none

/-- Open, read and parse a file that has to be there. -/
def parseJson (path : String) : FileRead α → Fallible α
  | notFound => bail s!"opening {path}"
  | ioError => bail s!"opening {path}"
  | malformed => bail s!"parsing {path}"
  | parsed a => Except.ok a

/-- Open, read, parse and validate a file that has to be there. -/
def parseValidated (validate : α → Fallible Unit) (path : String)
    (f : FileRead α) : Fallible α := do
  let a ← f.parseJson path
  (validate a).context s!"validating {path}"
  return a

/-- Read, parse and validate a file that need not be there. The three messages
say what was being done when it failed. -/
def readOptional (validate : α → Fallible Unit)
    (reading parsing validating : String) : FileRead α → Fallible (Option α)
  | notFound => Except.ok none
  | ioError => bail reading
  | malformed => bail parsing
  | parsed a => do
    (validate a).context validating
    return some a

@[simp] theorem parseJson_ok_iff {path : String} {f : FileRead α} {a : α} :
    f.parseJson path = Except.ok a ↔ f = parsed a := by
  cases f <;> simp [parseJson]

/-- **A file that has to be there and be valid is read exactly when it is.** -/
@[simp] theorem parseValidated_ok_iff {validate : α → Fallible Unit}
    {path : String} {f : FileRead α} {a : α} :
    f.parseValidated validate path = Except.ok a
      ↔ f = parsed a ∧ validate a = Except.ok () := by
  simp only [parseValidated, bind_ok_iff, parseJson_ok_iff, context_ok_iff,
    pure_ok_iff]
  constructor
  · rintro ⟨b, hf, _, hv, rfl⟩
    exact ⟨hf, hv⟩
  · rintro ⟨hf, hv⟩
    exact ⟨a, hf, (), hv, rfl⟩

section ReadOptional

variable {validate : α → Fallible Unit} {reading parsing validating : String}
  {f : FileRead α}

/-- A file that need not be there is read as nothing when it is not. -/
@[simp] theorem readOptional_ok_none_iff :
    f.readOptional validate reading parsing validating = Except.ok none
      ↔ f = notFound := by
  cases f with
  | notFound => simp [readOptional]
  | ioError => simp [readOptional]
  | malformed => simp [readOptional]
  | parsed b => simp only [readOptional, bind_ok_iff, pure_ok_iff, reduceCtorEq,
      and_false, exists_false]

/-- **A file that need not be there is read as a value when it holds a valid
one.** In every other case reading it fails. -/
@[simp] theorem readOptional_ok_some_iff {a : α} :
    f.readOptional validate reading parsing validating = Except.ok (some a)
      ↔ f = parsed a ∧ validate a = Except.ok () := by
  cases f with
  | notFound => simp [readOptional]
  | ioError => simp [readOptional]
  | malformed => simp [readOptional]
  | parsed b =>
    simp only [readOptional, bind_ok_iff, context_ok_iff, pure_ok_iff,
      parsed.injEq, Option.some.injEq]
    constructor
    · rintro ⟨_, hv, rfl⟩
      exact ⟨rfl, hv⟩
    · rintro ⟨rfl, hv⟩
      exact ⟨(), hv, rfl⟩

end ReadOptional

end FileRead
