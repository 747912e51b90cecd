import Sbagent.Fallible
import Sbagent.Grouping
import Sbagent.Text

/-!
# JSON values

What a JSON text holds, and how values of a type are written as JSON and read. A
structure is written as an object without the fields that have no value, and is read from
an object, in which every field has to be known. It is also read from an array, in which the
fields have no names and stand in their order.

Of an object, reading sees no more than which value is under which name. So two objects
with the same names and values are read as the same (`fields_of_get`), and what was
written is there to be read (`get_ofFields`).
-/

open Fallible Keyed

/-- The number that is nearest to a whole number. Of two, it is the one with the even
mantissa. -/
def F64.nearest (n : ℕ) : F64 :=
  if n < 2 ^ 53 then F64.ofNat n
  else
    let shift := n.log2 - 52
    let below := n / 2 ^ shift
    let rest := n % 2 ^ shift
    let up := 2 ^ (shift - 1) < rest ∨ (2 ^ (shift - 1) = rest ∧ below % 2 = 1)
    ⟨BitVec.ofNat 64 ((1023 + n.log2) * 2 ^ 52 + (below - 2 ^ 52) + if up then 1 else 0)⟩

/-- A number with the sign bit set. -/
def F64.negate (x : F64) : F64 := ⟨x.bits ||| BitVec.ofNat 64 (2 ^ 63)⟩

/-- A JSON value. -/
inductive Json where
  | null
  | bool (b : Bool)
  | nat (n : ℕ)
  | negative (n : ℕ)
  | float (x : F64)
  | string (s : String)
  | array (vs : List Json)
  | object (fields : List (String × Json))

namespace Json

/-- The field of an object. -/
def get (v : Json) (key : String) : Option Json :=
  match v with
  | object fields => fields.lookup key
  | _ => none

/-- A value with fields. -/
def isObject : Json → Bool
  | object _ => true
  | _ => false

/-- A number that is not negative. -/
def asU64 : Json → Option ℕ
  | nat n => some n
  | _ => none

/-- A count is a number that is not negative. -/
theorem asU64_eq_some_iff {v : Json} {n : ℕ} : v.asU64 = some n ↔ v = nat n := by
  cases v <;> simp [asU64]

/-- Set a field of an object. Nothing else has fields. -/
def insert (v : Json) (key : String) (w : Json) : Json :=
  match v with
  | object fields =>
    if (fields.lookup key).isSome = true then
      object (fields.map fun f => if f.fst = key then (key, w) else f)
    else object (fields ++ [(key, w)])
  | v => v

/-- Remove a field of an object. -/
def remove (v : Json) (key : String) : Json :=
  match v with
  | object fields => object (fields.filter fun f => f.fst ≠ key)
  | v => v

/-! ## Reading -/

section Read

variable {α : Type}

/-- A text is read. -/
def readString : Json → Fallible String
  | string s => Except.ok s
  | _ => bail "invalid type, expected a string"

/-- A truth value is read. -/
def readBool : Json → Fallible Bool
  | bool b => Except.ok b
  | _ => bail "invalid type, expected a boolean"

/-- A count is read. -/
def readU64 : Json → Fallible ℕ
  | nat n => Except.ok n
  | negative _ => bail "invalid value, expected u64"
  | _ => bail "invalid type, expected u64"

/-- A negative number is one less than what it is written with here. -/
def readI64 : Json → Fallible ℤ
  | nat n => if n < 2 ^ 63 then Except.ok n else bail "invalid value, expected i64"
  | negative n => Except.ok (Int.negSucc n)
  | _ => bail "invalid type, expected i64"

/-- A number is read as the nearest float. -/
def readF64 : Json → Fallible F64
  | float x => Except.ok x
  | nat n => Except.ok (F64.nearest n)
  | negative n => Except.ok (F64.nearest (n + 1)).negate
  | _ => bail "invalid type, expected f64"

/-- An array is read, one value after the other. -/
def readArray (read : Json → Fallible α) : Json → Fallible (List α)
  | array vs => vs.mapM read
  | _ => bail "invalid type, expected a sequence"

/-- An object is read as a map. -/
def readMap (read : Json → Fallible α) : Json → Fallible (Std.ExtTreeMap String α)
  | object fields => do
    let entries ← fields.mapM fun f => do
      let a ← read f.snd
      return (f.fst, a)
    return insertAll compare entries
  | _ => bail "invalid type, expected a map"

/-- One of some names, by itself or as the name of the only field of an object. -/
def readVariant (variants : List (String × α)) : Json → Fallible α
  | string s | object [(s, null)] =>
    match variants.lookup s with
    | some a => Except.ok a
    | none => bail s!"unknown variant `{s}`"
  | _ => bail "invalid type, expected an enum"

/-- The fields of a structure, which is written with all of them, or as an array without
names. As many fields as are given have to be in the array. -/
def fields (names : List String) (positional : ℕ) : Json → Fallible (String → Option Json)
  | object fields =>
    match fields.find? fun f => f.fst ∉ names with
    | some f => bail s!"unknown field `{f.fst}`"
    | none => Except.ok fun name => fields.lookup name
  | array vs =>
    if positional ≤ vs.length ∧ vs.length ≤ names.length then
      Except.ok fun name => vs[names.idxOf name]?
    else bail s!"invalid length {vs.length}"
  | _ => bail "invalid type, expected a struct"

/-- A field that has to be there. -/
def required (read : Json → Fallible α) (name : String) (get : String → Option Json) :
    Fallible α :=
  match get name with
  | none => bail s!"missing field `{name}`"
  | some v => read v

/-- A field that need not be there, and may be null. -/
def optional (read : Json → Fallible α) (name : String) (get : String → Option Json) :
    Fallible (Option α) :=
  match get name with
  | none => Except.ok none
  | some null => Except.ok none
  | some v => do
    let a ← read v
    return some a

end Read

/-! ## Writing -/

section Write

variable {α : Type}

/-- An integer as JSON. -/
def ofInt : ℤ → Json
  | Int.ofNat n => nat n
  | Int.negSucc n => negative n

/-- A number, or null if it has no digits. -/
def ofF64 (x : F64) : Json := if x.isFinite = true then float x else null

/-- The name of a variant. -/
def ofVariant [DecidableEq α] (variants : List (String × α)) (a : α) : Json :=
  string (((variants.find? fun p => p.snd = a).map Prod.fst).getD "")

/-- A map as an object. -/
def ofMap (write : α → Json) (m : Std.ExtTreeMap String α) : Json :=
  object (m.toList.map fun p => (p.fst, write p.snd))

/-- The fields that have a value. -/
def present (fs : List (String × Option Json)) : List (String × Json) :=
  fs.filterMap fun f => f.snd.map fun v => (f.fst, v)

/-- A structure is written without the fields that have no value. -/
def ofFields (fs : List (String × Option Json)) : Json := object (present fs)

end Write

/-! ## Looking up -/

section Lookup

variable {fs : List (String × Option Json)} {kvs : List (String × Json)} {key name : String}
  {w : Json}

/-- The first entry, or the others. -/
theorem lookup_cons {β : Type} {key name : String} {b : β} {l : List (String × β)} :
    ((key, b) :: l).lookup name = if name = key then some b else l.lookup name := by
  rw [List.lookup_cons]
  by_cases h : name = key
  · rw [if_pos h, beq_iff_eq.mpr h]
  · rw [if_neg h, beq_eq_false_iff_ne.mpr h]

/-- A field that is written is one of the fields. -/
theorem mem_present {f : String × Json} (h : f ∈ present fs) : f.fst ∈ fs.map Prod.fst := by
  obtain ⟨g, hg, hv⟩ := List.mem_filterMap.mp h
  obtain ⟨v, -, rfl⟩ := Option.map_eq_some_iff.mp hv
  exact List.mem_map_of_mem hg

/-- A name that is not there is not found. -/
theorem lookup_eq_none {β : Type} {l : List (String × β)} (h : name ∉ l.map Prod.fst) :
    l.lookup name = none := by
  rw [List.lookup_eq_none_iff]
  intro p hp
  rw [bne_iff_ne]
  rintro rfl
  exact h (List.mem_map_of_mem hp)

/-- **Writing keeps what is under a name.** -/
theorem lookup_present (h : (fs.map Prod.fst).Nodup) :
    (present fs).lookup name = (fs.lookup name).join := by
  induction fs with
  | nil => rfl
  | cons f fs ih =>
    obtain ⟨key, o⟩ := f
    obtain ⟨hkey, hnodup⟩ := List.nodup_cons.mp h
    have hcons : present ((key, o) :: fs)
        = (o.map fun v => (key, v)).toList ++ present fs := by
      cases o <;> rfl
    rw [hcons, List.lookup_append, lookup_cons]
    by_cases heq : name = key
    · subst heq
      rw [if_pos rfl]
      cases o with
      | some v =>
        rw [Option.map_some, Option.toList_some, lookup_cons, if_pos rfl, Option.some_or]
        rfl
      | none =>
        have hnone : name ∉ (present fs).map Prod.fst := by
          intro hmem
          obtain ⟨g, hg, rfl⟩ := List.mem_map.mp hmem
          exact hkey (mem_present hg)
        rw [lookup_eq_none hnone]
        rfl
    · rw [if_neg heq, ← ih hnodup]
      cases o with
      | some v =>
        rw [Option.map_some, Option.toList_some, lookup_cons, if_neg heq]
        rfl
      | none => rfl

/-- A field that is there is found. -/
theorem lookup_isSome {f : String × Json} (h : f ∈ kvs) : (kvs.lookup f.fst).isSome = true := by
  rw [Option.isSome_iff_ne_none, Ne, List.lookup_eq_none_iff]
  exact fun hnone => absurd (hnone f h) (by simp)

/-- **Setting a field** sets what is under its name, and nothing else. -/
theorem get_insert {v : Json} (h : v.isObject = true) :
    (v.insert key w).get name = if name = key then some w else v.get name := by
  -- a key that is there keeps its place, and its value is replaced
  have hmap : ∀ l : List (String × Json),
      (l.map fun f => if f.fst = key then (key, w) else f).lookup name
        = if name = key then (l.lookup key).map fun _ => w else l.lookup name := by
    intro l
    induction l with
    | nil => split_ifs <;> rfl
    | cons f l ih =>
      obtain ⟨k, u⟩ := f
      rw [List.map_cons]
      by_cases hk : k = key
      · subst hk
        rw [if_pos rfl, lookup_cons, ih, lookup_cons, lookup_cons, if_pos rfl]
        split_ifs <;> rfl
      · rw [if_neg hk, lookup_cons, ih, lookup_cons, lookup_cons, if_neg (Ne.symm hk)]
        split_ifs with hname hkey
        · exact absurd (hname.symm.trans hkey) hk
        · rfl
        · rfl
        · rfl
  cases v with
  | object l =>
    unfold insert
    dsimp only
    split_ifs with hsome hname hname
    · obtain ⟨u, hu⟩ := Option.isSome_iff_exists.mp hsome
      show List.lookup name (l.map fun f => if f.fst = key then (key, w) else f) = some w
      rw [hmap, if_pos hname, hu, Option.map_some]
    · show List.lookup name (l.map fun f => if f.fst = key then (key, w) else f) = l.lookup name
      rw [hmap, if_neg hname]
    · show List.lookup name (l ++ [(key, w)]) = some w
      rw [List.lookup_append, hname, Option.not_isSome_iff_eq_none.mp hsome, lookup_cons,
        if_pos rfl, Option.none_or]
    · show List.lookup name (l ++ [(key, w)]) = l.lookup name
      rw [List.lookup_append, lookup_cons, if_neg hname]
      exact Option.or_none
  | _ => cases h

/-- An object stays one when a field is set. -/
theorem isObject_insert {v : Json} (h : v.isObject = true) : (v.insert key w).isObject = true := by
  cases v with
  | object l =>
    unfold insert
    dsimp only
    split_ifs <;> rfl
  | _ => cases h

/-- **Removing a field** removes what is under its name, and nothing else. -/
theorem get_remove (v : Json) :
    (v.remove key).get name = if name = key then none else v.get name := by
  have hfilter : ∀ l : List (String × Json), (l.filter fun f => f.fst ≠ key).lookup name
      = if name = key then none else l.lookup name := by
    intro l
    induction l with
    | nil => split_ifs <;> rfl
    | cons f l ih =>
      obtain ⟨k, u⟩ := f
      by_cases hk : k = key
      · subst hk
        rw [List.filter_cons_of_neg (by simp), ih, lookup_cons]
        split_ifs <;> rfl
      · rw [List.filter_cons_of_pos (by simpa using hk), lookup_cons, lookup_cons, ih]
        split_ifs with hname hkey
        · exact absurd (hname.symm.trans hkey) hk
        · rfl
        · rfl
        · rfl
  cases v with
  | object l => exact hfilter l
  | _ => exact (ite_self none).symm

/-- And when one is removed. -/
theorem isObject_remove {v : Json} (h : v.isObject = true) : (v.remove key).isObject = true := by
  cases v with
  | object l => rfl
  | _ => cases h

end Lookup

/-! ## Reading what was written -/

section ReadWrite

variable {α : Type} {read : Json → Fallible α} {write : α → Json}
  {get : String → Option Json} {name : String}

/-- **A structure is read by its names and values**, whatever their order is. -/
theorem fields_of_get {names : List String} {positional : ℕ} {v : Json} (h : v.isObject = true)
    (hknown : ∀ name, (v.get name).isSome = true → name ∈ names) :
    fields names positional v = Except.ok v.get := by
  cases v with
  | object kvs =>
    unfold fields
    have hnone : (kvs.find? fun f => f.fst ∉ names) = none := by
      rw [List.find?_eq_none]
      intro f hf
      simpa using hknown f.fst (lookup_isSome hf)
    dsimp only
    rw [hnone]
    rfl
  | _ => cases h

/-- What is under the names of a structure that was written. -/
theorem get_ofFields {fs : List (String × Option Json)} (h : (fs.map Prod.fst).Nodup)
    (name : String) : (ofFields fs).get name = (fs.lookup name).join :=
  lookup_present h

/-- What is under a name that a structure may have. -/
theorem mem_of_lookup_isSome {fs : List (String × Option Json)} {name : String}
    (h : (fs.lookup name).join.isSome = true) : name ∈ fs.map Prod.fst := by
  by_contra hnot
  rw [lookup_eq_none hnot] at h
  cases h

/-- A field that has to be there is read as what stands in it. -/
theorem required_of_some {v : Json} (h : get name = some v) : required read name get = read v := by
  unfold required
  rw [h]

/-- **A field that need not be there** is read as it was written, if nothing is written as
null. -/
theorem optional_of_map {o : Option α} (h : get name = o.map write)
    (hread : ∀ a, o = some a → write a ≠ null ∧ read (write a) = Except.ok a) :
    optional read name get = Except.ok o := by
  unfold optional
  cases o with
  | none => rw [h, Option.map_none]
  | some a =>
    obtain ⟨hnull, hval⟩ := hread a rfl
    rw [h, Option.map_some]
    split
    case h_1 heq => cases heq
    case h_2 heq => exact absurd (Option.some.inj heq) hnull
    case h_3 v _ heq =>
      rw [← Option.some.inj heq, hval]
      rfl

/-- An integer that fits is read back. -/
theorem readI64_ofInt {z : ℤ} (h : z < 2 ^ 63) : readI64 (ofInt z) = Except.ok z := by
  cases z with
  | ofNat n =>
    have hlt : (n : ℤ) < 2 ^ 63 := h
    exact if_pos (by exact_mod_cast hlt)
  | negSucc n => rfl

/-- A finite float is read back. -/
theorem readF64_ofF64 {x : F64} (h : x.isFinite = true) : readF64 (ofF64 x) = Except.ok x := by
  unfold ofF64
  rw [if_pos h]
  rfl

/-- An array is read back if its values are. -/
theorem readArray_map {l : List α} (h : ∀ a ∈ l, read (write a) = Except.ok a) :
    readArray read (array (l.map write)) = Except.ok l := by
  unfold readArray
  rw [mapM_ok_iff, List.forall₂_map_left_iff, List.forall₂_same]
  exact h

/-- A map is read back if its values are. -/
theorem readMap_ofMap {m : Std.ExtTreeMap String α}
    (h : ∀ p ∈ m.toList, read (write p.snd) = Except.ok p.snd) :
    readMap read (ofMap write m) = Except.ok m := by
  unfold readMap ofMap
  refine bind_ok_iff.mpr ⟨m.toList, ?_, ?_⟩
  · rw [mapM_ok_iff, List.forall₂_map_left_iff, List.forall₂_same]
    intro p hp
    exact bind_ok_iff.mpr ⟨p.snd, h p hp, rfl⟩
  · rw [pure_ok_iff]
    refine Std.ExtTreeMap.ext_getElem? fun k => Option.ext fun a => ?_
    rw [getElem?_insertAll_eq_some_iff nodup_fst_toList]
    exact Std.ExtTreeMap.mem_toList_iff_getElem?_eq_some

end ReadWrite

end Json
