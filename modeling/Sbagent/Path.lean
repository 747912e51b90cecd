import Mathlib

/-!
# Paths by components

A path is compared, joined and tested for containment by its *components*,
not by its text: repeated separators and interior single dots leave no trace,
so two texts that spell the same components are the same path. A path is
therefore its list of components here, and `parse` reads the components off a
text.

Joining appends, unless what is joined is absolute, in which case it replaces
everything before it; and a parent component is kept as it stands, since
dropping it with the component before is the operating system's business. A
text made of ordinary characters is harmless in all of these respects: it is
one `normal` component, joining it goes exactly one level down
(`join_normal`), and different texts go to different places
(`join_normal_injective`).
-/

/-- One component of a path. -/
inductive Component where
  /-- The root that an absolute path starts with. -/
  | rootDir
  /-- A leading single dot. -/
  | curDir
  /-- A double dot, left as it stands. -/
  | parentDir
  /-- A name. -/
  | normal (name : String)
  deriving DecidableEq

/-- A path, as its components. -/
abbrev PathBuf := List Component

namespace PathBuf

/-- The component of a segment that is not the first: empty segments and
single dots leave none. -/
def interior (seg : List Char) : PathBuf :=
  if seg = [] ∨ seg = ['.'] then []
  else if seg = ['.', '.'] then [Component.parentDir]
  else [Component.normal (String.ofList seg)]

/-- The component of the first segment of a text, given whether other
segments follow it. An empty first segment of several is the root. -/
def leading (seg : List Char) (last : Bool) : PathBuf :=
  if seg = [] then (if last then [] else [Component.rootDir])
  else if seg = ['.'] then [Component.curDir]
  else interior seg

/-- The components of a text. -/
def parseChars (cs : List Char) : PathBuf :=
  match cs.splitOn '/' with
  | [] => []
  | seg :: rest => leading seg rest.isEmpty ++ rest.flatMap interior

/-- The components of a text. -/
def parse (s : String) : PathBuf := parseChars s.toList

/-- Joining a path to a base. An absolute path replaces the base, and a
leading single dot is not interior to anything only when the base is empty. -/
def join (base rel : PathBuf) : PathBuf :=
  match rel with
  | Component.rootDir :: _ => rel
  | Component.curDir :: rest => if base = [] then rel else base ++ rest
  | _ => base ++ rel

/-- Joining a text to a base. -/
def joinText (base : PathBuf) (s : String) : PathBuf := join base (parse s)

/-- A component in a message. -/
def componentText : Component → String
  | Component.rootDir => ""
  | Component.curDir => "."
  | Component.parentDir => ".."
  | Component.normal name => name

/-- A path in a message, with one separator between two components. -/
def display (p : PathBuf) : String :=
  if p = [Component.rootDir] then "/" else "/".intercalate (p.map componentText)

/-- The names of a path. -/
def ofNames (names : List String) : PathBuf := names.map Component.normal

/-- A path is under another when it extends it. -/
def Under (root p : PathBuf) : Prop := root <+: p

instance (root p : PathBuf) : Decidable (Under root p) :=
  inferInstanceAs (Decidable (root <+: p))

/-- A path is strictly under another when it extends it by components that
are names: no parent component can lead back out. -/
def StrictlyUnder (root p : PathBuf) : Prop :=
  ∃ names : List String, names ≠ [] ∧ p = root ++ ofNames names

/-! ## Texts that are a single name -/

/-- A text that is one ordinary name: not empty, without a separator, and not
one of the two dot names. -/
def IsName (s : String) : Prop :=
  s ≠ "" ∧ '/' ∉ s.toList ∧ s ≠ "." ∧ s ≠ ".."

instance (s : String) : Decidable (IsName s) :=
  inferInstanceAs (Decidable (_ ∧ _))

theorem splitOn_eq_singleton {cs : List Char} (h : '/' ∉ cs) :
    cs.splitOn '/' = [cs] := by
  rw [List.splitOn_eq_splitOnP]
  apply List.splitOnP_eq_singleton
  intro c hc
  rw [beq_eq_false_iff_ne]
  rintro rfl
  exact h hc

/-- **A name is one component.** -/
theorem parse_name {s : String} (h : IsName s) :
    parse s = [Component.normal s] := by
  obtain ⟨hne, hsep, hdot, hdots⟩ := h
  have hnil : s.toList ≠ [] := fun h => hne (String.toList_eq_nil_iff.mp h)
  have hone : s.toList ≠ ['.'] := fun h => hdot (String.toList_inj.mp h)
  have htwo : s.toList ≠ ['.', '.'] := fun h => hdots (String.toList_inj.mp h)
  unfold parse parseChars
  rw [splitOn_eq_singleton hsep]
  simp [leading, interior, hnil, hone, htwo]

/-- **Joining a name goes exactly one level down.** -/
theorem joinText_name {s : String} (h : IsName s) (base : PathBuf) :
    joinText base s = base ++ [Component.normal s] := by
  rw [joinText, parse_name h]
  rfl

/-- Joining a name leads strictly under the base. -/
theorem strictlyUnder_joinText {s : String} (h : IsName s) (base : PathBuf) :
    StrictlyUnder base (joinText base s) :=
  ⟨[s], by simp, joinText_name h base⟩

/-- **Different names open disjoint subtrees**: nothing is under both. -/
theorem not_under_both {s t : String} (hs : IsName s) (ht : IsName t)
    (hne : s ≠ t) {base p : PathBuf} (hp : Under (joinText base s) p) :
    ¬ Under (joinText base t) p := by
  rw [joinText_name hs] at hp
  rw [joinText_name ht]
  intro hq
  have hlen : (base ++ [Component.normal s]).length
      = (base ++ [Component.normal t]).length := by simp
  have heq := (List.prefix_of_prefix_length_le hp hq hlen.le).eq_of_length hlen
  exact hne (by simpa using heq)

theorem StrictlyUnder.under {root p : PathBuf} (h : StrictlyUnder root p) :
    Under root p := by
  obtain ⟨names, _, rfl⟩ := h
  exact List.prefix_append _ _

theorem StrictlyUnder.trans_under {root p q : PathBuf}
    (h : StrictlyUnder root p) (names : List String)
    (hq : q = p ++ ofNames names) : StrictlyUnder root q := by
  obtain ⟨ns, hns, rfl⟩ := h
  refine ⟨ns ++ names, by simp [hns], ?_⟩
  rw [hq]
  simp [ofNames]

end PathBuf
