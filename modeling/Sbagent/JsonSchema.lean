import Sbagent.JsonValue

/-!
# JSON Schema

The part of JSON Schema in which rules between the fields of a document are written: what
has to be there, what must not be, and what follows from what. A keyword says something
about values of one kind and nothing about the others, so that a rule about a property is
kept by an object that does not have it.

A pattern is a regular expression of some dialect. The only one here is the one that finds
a character that is no white space, and what is white space is up to the dialect.
-/

open Fallible

namespace JsonSchema

/-- A value that others are compared with. -/
inductive Scalar where
  | bool (b : Bool)
  | nat (n : ℕ)
  | string (s : String)
  deriving DecidableEq

/-- A value is the given one. Numbers are compared as numbers. -/
def Scalar.is : Scalar → Json → Bool
  | bool b, Json.bool b' => b = b'
  | nat n, Json.nat n' => n = n'
  | nat n, Json.float x => x.eq (F64.nearest n)
  | string s, Json.string s' => s = s'
  | _, _ => false

/-- A schema: a keyword, or two schemas at once. -/
inductive Schema where
  | always
  | never
  | const (w : Scalar)
  | enum (ws : List Scalar)
  /-- The type is null. -/
  | null
  /-- The type is an array. -/
  | array
  | not (s : Schema)
  | both (s t : Schema)
  | ifThenElse (s t u : Schema)
  | required (name : String)
  | property (name : String) (s : Schema)
  | items (s : Schema)
  | minItems (n : ℕ)
  | minLength (n : ℕ)
  /-- The pattern that finds a character that is no white space. -/
  | notSpace
  | minimum (n : ℕ)

namespace Schema

/-- Several schemas at once: the keywords of an object, or what `allOf` lists. -/
def all (ss : List Schema) : Schema := ss.foldr both always

/-- What holds in a case. -/
def ifThen (s t : Schema) : Schema := ifThenElse s t always

/-- Several names under `required`. -/
def requireds (names : List String) : Schema := all (names.map required)

/-- Several names under `properties`. -/
def properties (ps : List (String × Schema)) : Schema :=
  all (ps.map fun p => property p.fst p.snd)

end Schema

end JsonSchema

namespace Json

/-- A null. -/
def isNull : Json → Bool
  | null => true
  | _ => false

/-- The elements of an array. -/
def elements : Json → Option (List Json)
  | array vs => some vs
  | _ => none

/-- The text of a string. -/
def text : Json → Option String
  | string s => some s
  | _ => none

/-- A number that is not below another. What is no number is not compared. -/
def atLeast (n : ℕ) : Json → Bool
  | nat n' => n ≤ n'
  | negative _ => false
  | float x => (F64.nearest n).le x
  | _ => true

end Json

namespace JsonSchema

section Accepts

/- The characters that patterns take for white space. -/
variable (space : Char → Bool)

/-- A schema accepts a value. -/
def accepts : Schema → Json → Bool
  | Schema.always, _ => true
  | Schema.never, _ => false
  | Schema.const w, v => w.is v
  | Schema.enum ws, v => ws.any fun w => w.is v
  | Schema.null, v => v.isNull
  | Schema.array, v => v.elements.isSome
  | Schema.not s, v => !accepts s v
  | Schema.both s t, v => accepts s v && accepts t v
  | Schema.ifThenElse s t u, v => if accepts s v = true then accepts t v else accepts u v
  | Schema.required name, v => !v.isObject || (v.get name).isSome
  | Schema.property name s, v => (v.get name).all (accepts s)
  | Schema.items s, v => v.elements.all fun vs => vs.all (accepts s)
  | Schema.minItems n, v => v.elements.all fun vs => n ≤ vs.length
  | Schema.minLength n, v => v.text.all fun s => n ≤ s.length
  | Schema.notSpace, v => v.text.all fun s => s.toList.any fun c => !space c
  | Schema.minimum n, v => v.atLeast n

end Accepts

section Rules

variable {space : Char → Bool} {s t : Schema} {ss : List Schema} {v w : Json} {name : String}

@[simp] theorem accepts_all_iff :
    accepts space (Schema.all ss) v = true ↔ ∀ s ∈ ss, accepts space s v = true := by
  induction ss with
  | nil => exact iff_of_true rfl fun s hs => absurd hs List.not_mem_nil
  | cons s ss ih =>
    rw [List.forall_mem_cons, ← ih]
    exact Bool.and_eq_true_iff

/-- Schemas of two lists. -/
theorem accepts_all_append {ss ts : List Schema} :
    accepts space (Schema.all (ss ++ ts)) v = true
      ↔ accepts space (Schema.all ss) v = true ∧ accepts space (Schema.all ts) v = true := by
  rw [accepts_all_iff, List.forall_mem_append, ← accepts_all_iff, ← accepts_all_iff]

@[simp] theorem accepts_not_iff :
    accepts space (Schema.not s) v = true ↔ ¬ accepts space s v = true := by
  rw [accepts, Bool.not_eq_true', Bool.not_eq_true]

@[simp] theorem accepts_ifThen_iff : accepts space (Schema.ifThen s t) v = true
    ↔ (accepts space s v = true → accepts space t v = true) := by
  unfold Schema.ifThen
  rw [accepts]
  split_ifs with hs
  · exact ⟨fun h _ => h, fun h => h hs⟩
  · exact iff_of_true rfl fun h => absurd h hs

/-- An object has a field that it has to have. -/
theorem accepts_required_iff (h : v.isObject = true) :
    accepts space (Schema.required name) v = true ↔ (v.get name).isSome = true := by
  rw [accepts, h]
  exact Iff.rfl

@[simp] theorem accepts_requireds_iff {names : List String} :
    accepts space (Schema.requireds names) v = true
      ↔ ∀ name ∈ names, accepts space (Schema.required name) v = true := by
  unfold Schema.requireds
  rw [accepts_all_iff, List.forall_mem_map]

/-- A schema of a field is one of what stands there. -/
theorem accepts_property_iff : accepts space (Schema.property name s) v = true
    ↔ ∀ w, v.get name = some w → accepts space s w = true := by
  rw [accepts, Option.all_eq_true]

/-- The same where the field is there. -/
theorem accepts_property_of_some (h : v.get name = some w) :
    accepts space (Schema.property name s) v = true ↔ accepts space s w = true := by
  rw [accepts_property_iff, h]
  simp

@[simp] theorem accepts_properties_iff {ps : List (String × Schema)} :
    accepts space (Schema.properties ps) v = true
      ↔ ∀ p ∈ ps, accepts space (Schema.property p.fst p.snd) v = true := by
  unfold Schema.properties
  rw [accepts_all_iff, List.forall_mem_map]

/-- A property is there and has a value. -/
def whenConst (name : String) (w : Scalar) : Schema :=
  Schema.all [Schema.properties [(name, Schema.const w)], Schema.requireds [name]]

/-- A field has a fixed value. -/
theorem accepts_whenConst_iff {c : Scalar} (h : v.isObject = true) :
    accepts space (whenConst name c) v = true ↔ ∃ w, v.get name = some w ∧ c.is w = true := by
  unfold whenConst
  simp only [accepts_all_iff, List.forall_mem_cons, accepts_properties_iff, accepts_requireds_iff,
    accepts_property_iff, accepts_required_iff h]
  cases v.get name with
  | none => simp
  | some w => simp [accepts]

end Rules

end JsonSchema

/-! ## What was read -/

namespace Json

section Read

variable {α β : Type} {read : Json → Fallible α} {name : String} {v : Json}

/-- A list that may be left out, and is empty then. -/
def defaulted (read : Json → Fallible α) (name : String) (get : String → Option Json) :
    Fallible (List α) :=
  match get name with
  | none => Except.ok []
  | some v => readArray read v

/-- One of some names, as a text. -/
def readName (variants : List (String × α)) (v : Json) : Fallible α :=
  match v.text.bind fun s => variants.lookup s with
  | some a => Except.ok a
  | none => bail "unknown variant"

/-- A field that has to be there is read. -/
theorem required_ok_iff {get : String → Option Json} {a : α} :
    required read name get = Except.ok a ↔ ∃ v, get name = some v ∧ read v = Except.ok a := by
  unfold required
  cases get name with
  | none => simp [bail]
  | some v => simp

/-- A field that is there and not null is read. -/
theorem optional_of_ne_null {get : String → Option Json} (h : get name = some v)
    (hv : v ≠ null) : optional read name get = read v >>= fun a => Except.ok (some a) := by
  unfold optional
  rw [h]
  cases v with
  | null => exact absurd rfl hv
  | _ => rfl

/-- A value is read from what is there and not null. -/
theorem optional_ok_iff {get : String → Option Json} {o : Option α} :
    optional read name get = Except.ok o
      ↔ (o = none ∧ (get name = none ∨ get name = some null))
        ∨ ∃ v a, get name = some v ∧ v ≠ null ∧ read v = Except.ok a ∧ o = some a := by
  cases hget : get name with
  | none =>
    unfold optional
    rw [hget]
    simp [eq_comm]
  | some v =>
    by_cases hv : v = null
    · unfold optional
      rw [hget, hv]
      simp [eq_comm]
    · rw [optional_of_ne_null hget hv, bind_ok_iff]
      simp [hv, eq_comm]

@[simp] theorem readBool_ok_iff {b : Bool} : readBool v = Except.ok b ↔ v = bool b := by
  cases v <;> simp [readBool, bail]

@[simp] theorem readString_ok_iff {s : String} : readString v = Except.ok s ↔ v = string s := by
  cases v <;> simp [readString, bail]

/-- An array is read when each of its values is. -/
theorem readArray_ok_iff {as : List α} : readArray read v = Except.ok as
    ↔ ∃ vs, v = array vs ∧ vs.mapM read = Except.ok as := by
  cases v <;> simp [readArray, bail]

/-- Values that are read as texts are texts. -/
theorem mapM_readString_ok_iff {vs : List Json} {ss : List String} :
    vs.mapM readString = Except.ok ss ↔ vs = ss.map string := by
  rw [mapM_ok_iff]
  simp only [readString_ok_iff]
  rw [← List.forall₂_map_right_iff (R := fun v w : Json => v = w), List.forall₂_eq_eq_eq]

/-- A name is read as what it is the name of. -/
theorem readName_ok_iff {variants : List (String × α)} {a : α} :
    readName variants v = Except.ok a ↔ ∃ s, v = string s ∧ variants.lookup s = some a := by
  unfold readName
  cases v with
  | string s =>
    show (match variants.lookup s with
      | some a => Except.ok a
      | none => bail "unknown variant") = Except.ok a ↔ _
    cases hs : variants.lookup s with
    | none => simp [bail, hs]
    | some b => simp [hs]
  | _ => simp [text, bail]

end Read

/-- A variant has one name. -/
theorem lookup_injective {α : Type} {variants : List (String × α)} {s t : String} {a : α}
    (hnodup : (variants.map Prod.snd).Nodup) (hs : variants.lookup s = some a)
    (ht : variants.lookup t = some a) : s = t := by
  have hmem : ∀ {s : String}, variants.lookup s = some a → (s, a) ∈ variants := by
    intro s h
    obtain ⟨l, l', rfl, -⟩ := List.lookup_eq_some_iff.mp h
    exact List.mem_append_right l List.mem_cons_self
  exact congrArg Prod.fst (List.inj_on_of_nodup_map hnodup (hmem hs) (hmem ht) rfl)

end Json

/-! ## Numbers -/

namespace F64

variable {b n : ℕ}

/-- The bits of a number that is finite and has no sign are its magnitude. -/
theorem magnitude_ofBits (h : b < infinityMagnitude) : magnitude ⟨BitVec.ofNat 64 b⟩ = b := by
  unfold infinityMagnitude at h
  unfold magnitude
  rw [BitVec.toNat_ofNat]
  omega

/-- The bits of a finite number that is not negative. -/
theorem sign_ofBits (h : b < infinityMagnitude) : sign ⟨BitVec.ofNat 64 b⟩ = false := by
  unfold infinityMagnitude at h
  unfold sign
  rw [BitVec.msb_eq_decide, BitVec.toNat_ofNat, decide_eq_false_iff_not]
  omega

/-- A number below 2^53 is finite and not negative, and zero only if it is. -/
theorem exists_ofNat_bits (h : n < 2 ^ 53) :
    ∃ b < infinityMagnitude, ofNat n = ⟨BitVec.ofNat 64 b⟩ ∧ (n ≠ 0 → b ≠ 0) := by
  unfold ofNat infinityMagnitude
  split_ifs with h0
  · exact ⟨0, by norm_num, rfl, fun hn => absurd h0 hn⟩
  · refine ⟨_, ?_, rfl, fun _ => ?_⟩
    · have hlog : n.log2 < 53 := (Nat.log2_lt h0).mpr h
      have hrest : n - 2 ^ n.log2 < 2 ^ n.log2 := by
        have hlt := @Nat.lt_log2_self n
        rw [Nat.pow_succ] at hlt
        omega
      have hmantissa : (n - 2 ^ n.log2) * 2 ^ (52 - n.log2) < 2 ^ 52 := by
        calc (n - 2 ^ n.log2) * 2 ^ (52 - n.log2)
            < 2 ^ n.log2 * 2 ^ (52 - n.log2) := Nat.mul_lt_mul_of_pos_right hrest (by positivity)
          _ = 2 ^ 52 := by rw [← Nat.pow_add, Nat.add_sub_cancel' (by omega)]
      omega
    · positivity

/-- So is what a number of 64 bits is rounded to. -/
theorem exists_nearest_bits (h : n < 2 ^ 64) :
    ∃ b < infinityMagnitude, nearest n = ⟨BitVec.ofNat 64 b⟩ ∧ (n ≠ 0 → b ≠ 0) := by
  unfold nearest
  split_ifs with hsmall
  · exact exists_ofNat_bits hsmall
  · refine ⟨_, ?_, rfl, fun _ => ?_⟩
    · have h0 : n ≠ 0 := by
        rintro rfl
        exact hsmall (by positivity)
      have hlog : n.log2 < 64 := (Nat.log2_lt h0).mpr h
      have hlog' : 53 ≤ n.log2 := (Nat.le_log2 h0).mpr (not_lt.mp hsmall)
      have hbelow : n / 2 ^ (n.log2 - 52) < 2 ^ 53 := by
        rw [Nat.div_lt_iff_lt_mul (by positivity), ← Nat.pow_add]
        have hexp : 53 + (n.log2 - 52) = n.log2 + 1 := by omega
        rw [hexp]
        exact Nat.lt_log2_self
      unfold infinityMagnitude
      split_ifs <;> omega
    · have hexp : 0 < (1023 + n.log2) * 2 ^ 52 := Nat.mul_pos (by omega) (by norm_num)
      omega

/-- A finite number is a number. -/
theorem isNaN_of_isFinite {x : F64} (h : x.isFinite = true) : x.isNaN = false :=
  decide_eq_false (not_lt.mpr (decide_eq_true_iff.mp h).le)

/-- Finite numbers are in the order of their keys. -/
theorem lt_of_isFinite {x y : F64} (hx : x.isFinite = true) (hy : y.isFinite = true) :
    x.lt y = decide (x.key < y.key) := by
  unfold lt
  rw [isNaN_of_isFinite hx, isNaN_of_isFinite hy]
  rfl

/-- At most is not greater. -/
theorem le_of_isFinite {x y : F64} (hx : x.isFinite = true) (hy : y.isFinite = true) :
    x.le y = !y.lt x := by
  unfold le
  rw [lt_of_isFinite hy hx, isNaN_of_isFinite hx, isNaN_of_isFinite hy]
  simp only [Bool.not_false, Bool.true_and, ← decide_not, not_lt]

/-- A whole number is read as a number that is not below zero. -/
theorem nearest_not_lt_zero (h : n < 2 ^ 64) :
    (nearest n).isFinite = true ∧ (nearest n).lt zero = false := by
  obtain ⟨b, hb, heq, -⟩ := exists_nearest_bits h
  have hfinite : (nearest n).isFinite = true := by
    rw [heq, isFinite, magnitude_ofBits hb, decide_eq_true_iff]
    exact hb
  refine ⟨hfinite, ?_⟩
  rw [lt_of_isFinite hfinite rfl, decide_eq_false_iff_not, not_lt, heq]
  show (0 : ℤ) ≤ _
  unfold key
  rw [sign_ofBits hb, if_neg Bool.false_ne_true]
  exact Int.natCast_nonneg _

/-- A negative number is read as one that is below zero. -/
theorem negate_nearest_lt_zero (h : n < 2 ^ 64) (hn : n ≠ 0) :
    (nearest n).negate.lt zero = true := by
  obtain ⟨b, hb, heq, hb0⟩ := exists_nearest_bits h
  have hmagnitude : (nearest n).negate.magnitude = b := by
    rw [← magnitude_ofBits hb, heq]
    unfold magnitude negate
    rw [BitVec.toNat_or, Nat.or_mod_two_pow]
    exact Nat.or_zero _
  have hsign : (nearest n).negate.sign = true := by
    unfold sign negate
    rw [BitVec.msb_or]
    exact Bool.or_true _
  have hfinite : (nearest n).negate.isFinite = true := by
    rw [isFinite, hmagnitude, decide_eq_true_iff]
    exact hb
  rw [lt_of_isFinite hfinite rfl, decide_eq_true_iff, key, hsign, if_pos rfl, hmagnitude]
  show -(b : ℤ) < 0
  have hpos := Nat.pos_of_ne_zero (hb0 hn)
  omega

end F64

namespace Json

/-- A number that a text can hold: whole numbers of 64 bits, and finite ones. -/
def Fits : Json → Prop
  | nat n => n < 2 ^ 64
  | negative n => n < 2 ^ 63
  | float x => x.isFinite = true
  | _ => True

/-- A number is at least zero in a schema exactly when what is read is finite and not negative. -/
theorem atLeast_zero_iff {v : Json} {x : F64} (hfits : v.Fits) (h : readF64 v = Except.ok x) :
    v.atLeast 0 = true ↔ x.isFinite = true ∧ x.lt F64.zero = false := by
  cases v with
  | nat n =>
    obtain rfl : F64.nearest n = x := Except.ok.inj h
    exact iff_of_true (decide_eq_true n.zero_le) (F64.nearest_not_lt_zero hfits)
  | negative n =>
    obtain rfl : (F64.nearest (n + 1)).negate = x := Except.ok.inj h
    have hn : n < 2 ^ 63 := hfits
    refine iff_of_false Bool.false_ne_true fun ⟨_, hlt⟩ => ?_
    rw [F64.negate_nearest_lt_zero (by omega) n.succ_ne_zero] at hlt
    cases hlt
  | float y =>
    obtain rfl : y = x := Except.ok.inj h
    have hfinite : y.isFinite = true := hfits
    show (F64.nearest 0).le y = true ↔ _
    rw [F64.le_of_isFinite rfl hfinite, Bool.not_eq_true', and_iff_right hfinite]
    rfl
  | _ => cases h

end Json
