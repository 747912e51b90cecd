import Mathlib

/-!
# Rows of a table of text

A row of a table is a line, and bars separate its cells. A bar behind a backslash is part
of a cell. A row is written by putting bars around its cells, and whether the cells are
read as they were written depends on what they hold: they are exactly if each is clean,
that is, has neither a line break nor a bar of its own (`isRow_rowText_iff`,
`cells_rowText`).
-/

namespace MarkdownTable

/-- A character that ends a line. -/
def isBreak (c : Char) : Bool := c = '\n' || c = '\r'

/-- A bar that separates cells. -/
def isBar (escaped : Bool) (c : Char) : Bool := c = '|' && !escaped

/-- The number of bars that separate cells, given whether the first character is behind a
backslash. -/
def barsFrom : Bool → List Char → ℕ
  | _, [] => 0
  | escaped, c :: cs => (if isBar escaped c then 1 else 0) + barsFrom (c = '\\') cs

/-- The number of bars that divide cells. -/
def bars (cs : List Char) : ℕ := barsFrom false cs

/-- What bars separate, given what has been read of the first part, newest first. -/
def partsFrom : Bool → List Char → List Char → List (List Char)
  | _, acc, [] => [acc.reverse]
  | escaped, acc, c :: cs =>
    if isBar escaped c then acc.reverse :: partsFrom false [] cs
    else partsFrom (c = '\\') (c :: acc) cs

/-- The cells of a line that begins and ends with a bar. -/
def cells (line : List Char) : List (List Char) := (partsFrom false [] line).tail.dropLast

/-- A text is one line with that many cells. -/
def IsRow (n : ℕ) (text : List Char) : Prop :=
  ∃ line, text = line ++ ['\n'] ∧ (∀ c ∈ line, isBreak c = false) ∧ (cells line).length = n

/-- A line with bars around its cells. -/
def rowLine (cs : List (List Char)) : List Char :=
  '|' :: cs.flatMap fun c => ' ' :: c ++ [' ', '|']

/-- A row with its line feed. -/
def rowText (cs : List (List Char)) : List Char := rowLine cs ++ ['\n']

/-- A cell without a line break and a bar of its own. -/
structure Clean (c : List Char) : Prop where
  line : ∀ d ∈ c, isBreak d = false
  bars : bars c = 0

/-- To be clean can be computed. -/
theorem clean_iff {c : List Char} :
    c.all (fun d => !isBreak d) = true ∧ bars c = 0 ↔ Clean c := by
  rw [List.all_eq_true]
  simp only [Bool.not_eq_true']
  exact ⟨fun h => ⟨h.left, h.right⟩, fun h => ⟨h.line, h.bars⟩⟩

instance : DecidablePred Clean := fun _ => decidable_of_iff _ clean_iff

/-- A character that is neither, and does not keep a bar from being one. -/
def isPlain (c : Char) : Bool := !isBreak c && c ≠ '|' && c ≠ '\\'

section Bars

variable {a b : List Char} {c : Char} {escaped : Bool}

/-- A plain character is neither a line break nor a bar, and escapes nothing. -/
theorem isPlain_iff : isPlain c = true ↔ isBreak c = false ∧ c ≠ '|' ∧ c ≠ '\\' := by
  simp [isPlain, and_assoc]

/-- Behind a plain character nothing is escaped. -/
theorem barsFrom_append_cons (h : isPlain c = true) :
    barsFrom escaped (a ++ c :: b) = barsFrom escaped a + bars b := by
  obtain ⟨-, hbar, hslash⟩ := isPlain_iff.mp h
  induction a generalizing escaped with
  | nil => simp [barsFrom, bars, isBar, hbar, hslash]
  | cons d a ih => rw [List.cons_append, barsFrom, barsFrom, ih, Nat.add_assoc]

/-- A plain character keeps two texts apart. -/
theorem bars_append_cons (h : isPlain c = true) : bars (a ++ c :: b) = bars a + bars b :=
  barsFrom_append_cons h

/-- A plain character is no bar. -/
theorem bars_cons (h : isPlain c = true) : bars (c :: b) = bars b := by
  rw [← List.nil_append (c :: b), bars_append_cons h]
  exact Nat.zero_add _

/-- There is one part more than there are bars. -/
theorem length_partsFrom (acc cs : List Char) :
    (partsFrom escaped acc cs).length = barsFrom escaped cs + 1 := by
  induction cs generalizing escaped acc with
  | nil => rfl
  | cons c cs ih =>
    rw [partsFrom, barsFrom]
    split_ifs with hbar
    · have hc : c = '|' := of_decide_eq_true (Bool.and_eq_true_iff.mp hbar).left
      rw [List.length_cons, ih, hc]
      exact congrArg (· + 1) (Nat.add_comm _ _)
    · rw [ih, Nat.zero_add]

/-- A line has as many cells as it has bars, less one. -/
theorem length_cells (line : List Char) : (cells line).length = bars line - 1 := by
  unfold cells
  rw [List.length_dropLast, List.length_tail, length_partsFrom]
  rfl

end Bars

/-! ## Cells -/

section Cells

variable {a b c : List Char} {cs : List (List Char)}

/-- The bars of a row are its own and those in its cells. -/
theorem bars_rowLine (cs : List (List Char)) :
    bars (rowLine cs) = 1 + (cs.map fun c => bars c + 1).sum := by
  have hcells : bars (cs.flatMap fun c => ' ' :: c ++ [' ', '|'])
      = (cs.map fun c => bars c + 1).sum := by
    induction cs with
    | nil => rfl
    | cons c cs ih =>
      have hcell : (c :: cs).flatMap (fun c => ' ' :: c ++ [' ', '|'])
          = ' ' :: (c ++ ' ' :: ('|' :: cs.flatMap fun c => ' ' :: c ++ [' ', '|'])) := by
        simp
      have hbar (l : List Char) : bars ('|' :: l) = 1 + bars l := rfl
      rw [hcell, bars_cons (by decide), bars_append_cons (by decide), hbar, ih, List.map_cons,
        List.sum_cons]
      omega
  unfold rowLine
  show 1 + bars _ = _
  rw [hcells]

/-- What stands in a row is a bar, a blank or stands in a cell. -/
theorem mem_rowLine {d : Char} : d ∈ rowLine cs → d = '|' ∨ d = ' ' ∨ ∃ c ∈ cs, d ∈ c := by
  unfold rowLine
  simp only [List.mem_cons, List.mem_flatMap, List.mem_append, List.not_mem_nil, or_false]
  rintro (rfl | ⟨c, hc, (rfl | hd) | rfl | rfl⟩)
  · exact Or.inl rfl
  · exact Or.inr (Or.inl rfl)
  · exact Or.inr (Or.inr ⟨c, hc, hd⟩)
  · exact Or.inr (Or.inl rfl)
  · exact Or.inl rfl

/-- What stands in a cell stands in the row. -/
theorem mem_rowLine_of_mem {d : Char} (hc : c ∈ cs) (hd : d ∈ c) : d ∈ rowLine cs := by
  refine List.mem_cons_of_mem _ (List.mem_flatMap.mpr ⟨c, hc, ?_⟩)
  exact List.mem_cons_of_mem _ (List.mem_append_left _ hd)

/-- Each cell has its own bar at least. -/
theorem length_le_sum_bars (cs : List (List Char)) :
    cs.length ≤ (cs.map fun c => bars c + 1).sum := by
  induction cs with
  | nil => exact Nat.zero_le _
  | cons c cs ih =>
    rw [List.map_cons, List.sum_cons, List.length_cons]
    omega

/-- And no other exactly when it has none in it. -/
theorem sum_bars_eq_length_iff :
    (cs.map fun c => bars c + 1).sum = cs.length ↔ ∀ c ∈ cs, bars c = 0 := by
  induction cs with
  | nil => simp
  | cons c cs ih =>
    have hle := length_le_sum_bars cs
    rw [List.map_cons, List.sum_cons, List.length_cons, List.forall_mem_cons, ← ih]
    omega

/-- **A row is one line with as many cells as were written, exactly if each is clean.** -/
theorem isRow_rowText_iff : IsRow cs.length (rowText cs) ↔ ∀ c ∈ cs, Clean c := by
  have hlength : (cells (rowLine cs)).length = cs.length ↔ ∀ c ∈ cs, bars c = 0 := by
    rw [length_cells, bars_rowLine, Nat.add_sub_cancel_left]
    exact sum_bars_eq_length_iff
  constructor
  · rintro ⟨line, hline, hbreak, hcells⟩
    obtain rfl : rowLine cs = line := List.append_cancel_right hline
    exact fun c hc => ⟨fun d hd => hbreak d (mem_rowLine_of_mem hc hd),
      hlength.mp hcells c hc⟩
  · intro h
    refine ⟨rowLine cs, rfl, fun d hd => ?_, hlength.mpr fun c hc => (h c hc).bars⟩
    obtain rfl | rfl | ⟨c, hc, hdc⟩ := mem_rowLine hd
    · rfl
    · rfl
    · exact (h c hc).line d hdc

/-- A cell without a bar is read as it is. -/
theorem partsFrom_of_bars {escaped : Bool} (acc c rest : List Char)
    (h : barsFrom escaped c = 0) : partsFrom escaped acc (c ++ ' ' :: '|' :: rest)
      = (acc.reverse ++ c ++ [' ']) :: partsFrom false [] rest := by
  induction c generalizing escaped acc with
  | nil =>
    rw [List.nil_append, partsFrom, if_neg (by simp [isBar]), partsFrom,
      if_pos (by simp [isBar]), List.reverse_cons, List.append_nil]
  | cons d c ih =>
    rw [barsFrom] at h
    obtain ⟨hd, hc⟩ := Nat.add_eq_zero_iff.mp h
    have hbar : ¬ isBar escaped d = true := fun hbar => by
      rw [if_pos hbar] at hd
      cases hd
    rw [List.cons_append, partsFrom, if_neg hbar, ih _ hc, List.reverse_cons]
    simp

/-- **Clean cells are read as they were written.** -/
theorem cells_rowLine (h : ∀ c ∈ cs, Clean c) :
    cells (rowLine cs) = cs.map fun c => ' ' :: c ++ [' '] := by
  have hparts : partsFrom false [] (cs.flatMap fun c => ' ' :: c ++ [' ', '|'])
      = (cs.map fun c => ' ' :: c ++ [' ']) ++ [[]] := by
    induction cs with
    | nil => rfl
    | cons c cs ih =>
      have hcell : (c :: cs).flatMap (fun c => ' ' :: c ++ [' ', '|'])
          = (' ' :: c) ++ ' ' :: '|' :: cs.flatMap fun c => ' ' :: c ++ [' ', '|'] := by
        simp
      have hbars : barsFrom false (' ' :: c) = 0 :=
        (bars_cons (by decide)).trans (h c List.mem_cons_self).bars
      rw [hcell, partsFrom_of_bars [] _ _ hbars, ih fun d hd => h d (List.mem_cons_of_mem _ hd)]
      rfl
  unfold cells rowLine
  rw [partsFrom, if_pos (by simp [isBar]), hparts, List.tail_cons, List.dropLast_concat]

/-! ## What is put together of plain characters and others -/

/-- A plain text has no bar. -/
theorem bars_of_isPlain (h : ∀ d ∈ a, isPlain d = true) : bars a = 0 := by
  induction a with
  | nil => rfl
  | cons d a ih =>
    rw [bars_cons (h d List.mem_cons_self), ih fun c hc => h c (List.mem_cons_of_mem _ hc)]

/-- A plain text is clean. -/
theorem clean_of_isPlain (h : ∀ d ∈ a, isPlain d = true) : Clean a :=
  ⟨fun d hd => (isPlain_iff.mp (h d hd)).left, bars_of_isPlain h⟩

/-- Two texts with a plain character between them are as clean as both. -/
theorem clean_append_cons {d : Char} (h : isPlain d = true) :
    Clean (a ++ d :: b) ↔ Clean a ∧ Clean b := by
  constructor
  · intro hclean
    have hbars := hclean.bars
    rw [bars_append_cons h] at hbars
    exact ⟨⟨fun e he => hclean.line e (List.mem_append_left _ he), by omega⟩,
      ⟨fun e he => hclean.line e (List.mem_append_right _ (List.mem_cons_of_mem _ he)),
        by omega⟩⟩
  · rintro ⟨ha, hb⟩
    refine ⟨fun e he => ?_, ?_⟩
    · obtain he | rfl | he := List.mem_append.mp he |>.imp_right List.mem_cons.mp
      · exact ha.line e he
      · exact (isPlain_iff.mp h).left
      · exact hb.line e he
    · rw [bars_append_cons h, ha.bars, hb.bars]

/-- A text before plain ones. -/
theorem clean_append_plain {f : List Char} (h : ∀ d ∈ f, isPlain d = true) :
    Clean (a ++ f) ↔ Clean a := by
  cases f with
  | nil => rw [List.append_nil]
  | cons d f =>
    rw [clean_append_cons (h d List.mem_cons_self)]
    exact and_iff_left (clean_of_isPlain fun e he => h e (List.mem_cons_of_mem _ he))

/-- A text behind plain ones. -/
theorem clean_plain_append {f : List Char} (h : ∀ d ∈ f, isPlain d = true) :
    Clean (f ++ b) ↔ Clean b := by
  induction f with
  | nil => rw [List.nil_append]
  | cons d f ih =>
    rw [List.cons_append, ← List.nil_append (d :: (f ++ b)),
      clean_append_cons (h d List.mem_cons_self), ih fun e he => h e (List.mem_cons_of_mem _ he)]
    exact and_iff_right ⟨fun e he => absurd he List.not_mem_nil, rfl⟩

/-- Two texts with plain ones between them. -/
theorem clean_append_plain_append {f : List Char} (hne : f ≠ [])
    (h : ∀ d ∈ f, isPlain d = true) : Clean (a ++ (f ++ b)) ↔ Clean a ∧ Clean b := by
  obtain ⟨d, f, rfl⟩ := List.exists_cons_of_ne_nil hne
  rw [List.cons_append, clean_append_cons (h d List.mem_cons_self),
    clean_plain_append fun e he => h e (List.mem_cons_of_mem _ he)]

end Cells

/-! ## Tables -/

/-- A table: each row has as many cells as its header, which are clean. -/
structure Table where
  header : List String
  delimiter : List String
  rows : List (List String)
  clean : ∀ c ∈ header, Clean c.toList
  delimited : delimiter.length = header.length
  width : ∀ row ∈ rows, row.length = header.length

namespace Table

/-- The line of a row. -/
def lineOf (row : List String) : List Char := rowLine (row.map String.toList)

/-- A table as it is written. -/
def text (t : Table) : List Char :=
  (t.header :: t.delimiter :: t.rows).flatMap fun row => lineOf row ++ ['\n']

/-- Each row is one line with as many cells as the line of the header. -/
def Sound (t : Table) : Prop :=
  ∀ row ∈ t.rows, IsRow (cells (lineOf t.header)).length (lineOf row ++ ['\n'])

/-- The header has as many cells as there are headers. -/
theorem length_cells_header (t : Table) : (cells (lineOf t.header)).length = t.header.length := by
  unfold lineOf
  rw [cells_rowLine, List.length_map, List.length_map]
  intro c hc
  obtain ⟨s, hs, rfl⟩ := List.mem_map.mp hc
  exact t.clean s hs

/-- **The rows of a table are rows exactly if each of their cells is clean.** -/
theorem sound_iff {t : Table} :
    t.Sound ↔ ∀ row ∈ t.rows, ∀ c ∈ row, Clean c.toList := by
  refine forall₂_congr fun row hrow => ?_
  have hlength : t.header.length = (row.map String.toList).length := by
    rw [List.length_map, t.width row hrow]
  rw [length_cells_header, hlength]
  refine isRow_rowText_iff.trans ?_
  rw [List.forall_mem_map]

end Table

end MarkdownTable
