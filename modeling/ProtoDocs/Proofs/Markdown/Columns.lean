import ProtoDocs.Proofs.Markdown.Table
import ProtoDocs.Proofs.Text.Trim

/-!
# Columns

The lines of a table are equally long, and each column has the same positions on all of them: those
of its widest cell, or of its header and some room.  What stands there is the cell and spaces, so
the shown cells can be read back from the text of the table.

* `Table.offset`        how many characters stand in front of a column;
* `Table.slot`          what stands at the positions of a column;
* `Table.Framed`        a line has `| ` in front of these positions and ` |` behind;
* `Table.line_eq`       a line is made of equal boxes, one for each column;
* `Table.isGreatest_width`   how wide a column is;
* `Table.render_map_rows`    only shown cells matter;
* `Table.render_columns`     the text of a table and its columns.
-/

namespace ProtoDocs.Table

/-- how many characters stand in front of column `i`: each column has a bar and two spaces more than
its width -/
def offset (widths : List Nat) (i : Nat) : Nat := ((widths.take i).map (· + 3)).sum

def slot (widths : List Nat) (i : Nat) (line : Text) : Text :=
  (line.drop (offset widths i + 2)).take (widths[i]?.getD 0)

/-- the positions of column `i` are on the line, and stand between `| ` and ` |` -/
def Framed (widths : List Nat) (i : Nat) (line : Text) : Prop :=
  (slot widths i line).length = widths[i]?.getD 0 ∧
    "| ".toList ++ (slot widths i line ++ " |".toList) <+: line.drop (offset widths i)

def boxed (p : Text) : Text := '|' :: ' ' :: (p ++ [' '])

/-! ## boxes -/

theorem length_boxed (p : Text) : (boxed p).length = p.length + 3 := by
  simp [boxed]

theorem join_boxed {ps : List Text} (h : ps ≠ []) :
    "| ".toList ++ Text.join " | ".toList ps ++ " |".toList = ps.flatMap boxed ++ ['|'] := by
  induction ps with
  | nil => exact absurd rfl h
  | cons p ps ih =>
    by_cases hps : ps = []
    · subst hps
      simp [boxed]
    · have hsep : " | ".toList = ' ' :: "| ".toList := rfl
      have hbox : boxed p = "| ".toList ++ (p ++ [' ']) := rfl
      rw [Text.join_cons _ p hps, List.flatMap_cons, List.append_assoc (boxed p), ← ih hps, hsep,
        hbox]
      simp only [List.append_assoc, List.cons_append, List.nil_append]

theorem offset_cons (w : Nat) (widths : List Nat) (i : Nat) :
    offset (w :: widths) (i + 1) = w + 3 + offset widths i := by
  simp [offset]

/-- In front of a column are the boxes of the others. -/
theorem drop_boxed (ps : List Text) (i : Nat) (t : Text) (hi : i ≤ ps.length) :
    (ps.flatMap boxed ++ t).drop (offset (ps.map List.length) i) =
      (ps.drop i).flatMap boxed ++ t := by
  induction ps generalizing i with
  | nil =>
    obtain rfl : i = 0 := by simpa using hi
    rfl
  | cons p ps ih =>
    cases i with
    | zero => rfl
    | succ i =>
      rw [List.map_cons, offset_cons, List.flatMap_cons, List.append_assoc, ← length_boxed p,
        List.drop_length_add_append, List.drop_succ_cons, ih i (Nat.le_of_succ_le_succ hi)]

section
variable {ps : List Text} {i : Nat}

theorem length_boxes (ps : List Text) :
    (ps.flatMap boxed ++ ['|']).length = offset (ps.map List.length) ps.length + 1 := by
  have hdrop := drop_boxed ps ps.length ['|'] (Nat.le_refl _)
  have hlen := congrArg List.length hdrop
  rw [List.drop_length, List.length_drop, List.flatMap_nil, List.nil_append,
    List.length_singleton] at hlen
  omega

/-- From a column on, a line is its piece between `| ` and ` |`, and something else. -/
theorem exists_drop_boxes (hi : i < ps.length) : ∃ t,
    (ps.flatMap boxed ++ ['|']).drop (offset (ps.map List.length) i) =
      "| ".toList ++ (ps[i] ++ (" |".toList ++ t)) := by
  obtain ⟨t, ht⟩ : ∃ t, (ps.drop (i + 1)).flatMap boxed ++ ['|'] = '|' :: t := by
    cases ps.drop (i + 1) with
    | nil => exact ⟨[], rfl⟩
    | cons p ps => exact ⟨_, rfl⟩
  refine ⟨t, ?_⟩
  rw [drop_boxed ps i ['|'] (Nat.le_of_lt hi), List.drop_eq_getElem_cons hi, List.flatMap_cons,
    List.append_assoc, ht]
  simp [boxed]

theorem slot_boxes (hi : i < ps.length) :
    slot (ps.map List.length) i (ps.flatMap boxed ++ ['|']) = ps[i] := by
  obtain ⟨t, ht⟩ := exists_drop_boxes hi
  have htwo : "| ".toList.length = 2 := rfl
  have hwidth : (ps.map List.length)[i]?.getD 0 = ps[i].length := by simp [hi]
  rw [slot, ← List.drop_drop, ht, ← htwo, List.drop_left, hwidth, List.take_left]

theorem framed_boxes (hi : i < ps.length) :
    Framed (ps.map List.length) i (ps.flatMap boxed ++ ['|']) := by
  obtain ⟨t, ht⟩ := exists_drop_boxes hi
  refine ⟨by simp [slot_boxes hi, hi], t, ?_⟩
  rw [slot_boxes hi, ht, List.append_assoc, List.append_assoc]

end

/-! ## lines -/

def Roomy (widths : List Nat) (cells : List Text) : Prop :=
  List.Forall₂ (fun c w => c.length ≤ w) cells widths

theorem length_padded {c : Text} {w : Nat} (h : c.length ≤ w) : (padded c w).length = w := by
  rw [padded, List.length_append, List.length_replicate]
  omega

section
variable {widths : List Nat} {cells : List Text} {i : Nat}

theorem Roomy.map_length (h : Roomy widths cells) :
    (List.zipWith padded cells widths).map List.length = widths := by
  induction h with
  | nil => rfl
  | cons hc _ ih => rw [List.zipWith_cons_cons, List.map_cons, length_padded hc, ih]

theorem line_eq (hne : List.zipWith padded cells widths ≠ []) :
    line widths cells = (List.zipWith padded cells widths).flatMap boxed ++ ['|'] :=
  join_boxed hne

theorem Roomy.zipWith_ne_nil (h : Roomy widths cells) (hne : widths ≠ []) :
    List.zipWith padded cells widths ≠ [] := by
  intro hnil
  have hmap := h.map_length
  rw [hnil] at hmap
  exact hne hmap.symm

theorem Roomy.length_line (h : Roomy widths cells) (hne : widths ≠ []) :
    (line widths cells).length = offset widths widths.length + 1 := by
  have hlen := length_boxes (List.zipWith padded cells widths)
  rwa [h.map_length, ← List.length_map (f := List.length), h.map_length,
    ← line_eq (h.zipWith_ne_nil hne)] at hlen

theorem Roomy.slot_line (h : Roomy widths cells) (hi : i < cells.length)
    (hi' : i < widths.length) :
    slot widths i (line widths cells) = padded cells[i] widths[i] := by
  have hne : widths ≠ [] := List.ne_nil_of_length_pos (Nat.lt_of_le_of_lt (Nat.zero_le i) hi')
  have hslot := @slot_boxes (List.zipWith padded cells widths) i (by simp [hi, hi'])
  rwa [h.map_length, ← line_eq (h.zipWith_ne_nil hne), List.getElem_zipWith] at hslot

theorem Roomy.framed_line (h : Roomy widths cells) (hi : i < cells.length) :
    Framed widths i (line widths cells) := by
  have hi' : i < widths.length := h.length_eq ▸ hi
  have hne : widths ≠ [] := List.ne_nil_of_length_pos (Nat.lt_of_le_of_lt (Nat.zero_le i) hi')
  have hframed := @framed_boxes (List.zipWith padded cells widths) i (by simp [hi, hi'])
  rwa [h.map_length, ← line_eq (h.zipWith_ne_nil hne)] at hframed

/-- The line between the header and the rows is as long as they are. -/
theorem length_ruler (hne : widths ≠ []) :
    (ruler widths).length = offset widths widths.length + 1 := by
  have hjoin : ∀ ws : List Nat, ws ≠ [] →
      (Text.join ['|'] (ws.map fun w => List.replicate (w + 2) '-')).length + 1 =
        offset ws ws.length := by
    intro ws hws
    induction ws with
    | nil => exact absurd rfl hws
    | cons w ws ih =>
      rw [List.length_cons, offset_cons, List.map_cons]
      by_cases hnil : ws = []
      · subst hnil
        simp [offset]
      · rw [Text.join_cons _ _ (by simpa using hnil), ← ih hnil]
        simp only [List.length_append, List.length_replicate, List.length_singleton]
        omega
  rw [ruler, List.length_append, List.length_append, List.length_singleton, ← hjoin widths hne]
  omega

end

/-- A cell without blanks at its ends is what remains without the spaces behind it. -/
theorem rdropWhile_padded {c : Text} (hc : Text.Tight c) (w : Nat) :
    (padded c w).rdropWhile (· == ' ') = c := by
  have hspaces : ∀ x ∈ (List.replicate (w - c.length) ' ').reverse, (x == ' ') = true := by
    simp
  show ((c ++ List.replicate (w - c.length) ' ').reverse.dropWhile (· == ' ')).reverse = c
  rw [List.reverse_append, List.dropWhile_append_of_pos hspaces]
  refine List.rdropWhile_eq_self_iff.2 fun hne hlast => ?_
  have hblank := hc.2 _ (List.getLast?_eq_some_getLast hne)
  rw [eq_of_beq hlast] at hblank
  exact absurd hblank (by decide)

/-! ## widths -/

theorem isGreatest_foldl_max {α : Type} (f : α → Nat) (a : Nat) (xs : List α) :
    IsGreatest {n | n = a ∨ ∃ x ∈ xs, n = f x} (xs.foldl (fun w x => max w (f x)) a) := by
  induction xs generalizing a with
  | nil =>
    refine ⟨.inl rfl, ?_⟩
    rintro n (rfl | ⟨x, hx, -⟩)
    · exact Nat.le_refl n
    · exact absurd hx List.not_mem_nil
  | cons x xs ih =>
    obtain ⟨hmem, hbound⟩ := ih (max a (f x))
    refine ⟨?_, ?_⟩
    · rcases hmem with hmem | ⟨y, hy, hmem⟩
      · rcases Nat.le_total a (f x) with h | h
        · exact .inr ⟨x, List.mem_cons_self, hmem.trans (Nat.max_eq_right h)⟩
        · exact .inl (hmem.trans (Nat.max_eq_left h))
      · exact .inr ⟨y, List.mem_cons_of_mem x hy, hmem⟩
    · have hstart := hbound (.inl rfl)
      rintro n (rfl | ⟨y, hy, rfl⟩)
      · exact (Nat.le_max_left _ _).trans hstart
      · rcases List.mem_cons.1 hy with rfl | hy
        · exact (Nat.le_max_right _ _).trans hstart
        · exact hbound (.inr ⟨y, hy, rfl⟩)

/-- A column is as wide as its widest cell, or as its header and some room. -/
theorem isGreatest_width (t : Table) (header : Text) (i : Nat) :
    IsGreatest {n | n = header.length + headerRoom ∨ ∃ row ∈ t.rows, n = (cell row i).length}
      (t.width header i) :=
  isGreatest_foldl_max (fun row => (cell row i).length) _ t.rows

theorem getElem_widths (t : Table) {i : Nat} (hi : i < t.headers.length)
    (hi' : i < t.widths.length) : t.widths[i] = t.width t.headers[i] i := by
  simp [widths]

theorem roomy_headers (t : Table) : Roomy t.widths t.headers := by
  refine List.forall₂_iff_get.2 ⟨t.length_widths.symm, fun i hi hi' => ?_⟩
  show t.headers[i].length ≤ t.widths[i]
  rw [t.getElem_widths hi hi']
  have hroom := (t.isGreatest_width t.headers[i] i).2 (.inl rfl)
  exact (Nat.le_add_right _ _).trans hroom

theorem length_shownCells (t : Table) (row : List Text) :
    (t.shownCells row).length = t.headers.length := by
  simp [shownCells]

theorem roomy_row (t : Table) {row : List Text} (hrow : row ∈ t.rows) :
    Roomy t.widths (t.shownCells row) := by
  refine List.forall₂_iff_get.2 ⟨by rw [length_shownCells, length_widths], fun i hi hw => ?_⟩
  have hi' : i < t.headers.length := by rwa [length_shownCells] at hi
  show (t.shownCells row)[i].length ≤ t.widths[i]
  rw [t.getElem_widths hi' hw]
  refine (t.isGreatest_width t.headers[i] i).2 (.inr ⟨row, hrow, ?_⟩)
  simp [shownCells]

/-! ## tables -/

theorem rdropWhile_slot_row (t : Table) {row : List Text} (hrow : row ∈ t.rows) {i : Nat}
    (hi : i < t.headers.length) :
    (slot t.widths i (line t.widths (t.shownCells row))).rdropWhile (· == ' ') = cell row i := by
  have hi' : i < (t.shownCells row).length := by rwa [length_shownCells]
  have hcell : (t.shownCells row)[i] = cell row i := by simp [shownCells]
  rw [(t.roomy_row hrow).slot_line hi' (by rwa [length_widths]), hcell]
  exact rdropWhile_padded (Text.trim_tight _) _

/-- Only the shown cells of its rows matter to a table. -/
theorem render_map_rows {t : Table} {f : List Text → List Text}
    (h : ∀ row, ∀ i < t.headers.length, cell (f row) i = cell row i) :
    render { t with rows := t.rows.map f } = t.render := by
  have hcells : ∀ row, shownCells { t with rows := t.rows.map f } (f row) = t.shownCells row :=
    fun row => List.map_congr_left fun i hi => h row i (List.mem_range.1 hi)
  have hwidths : widths { t with rows := t.rows.map f } = t.widths := by
    refine List.ext_getElem (by simp [widths]) fun i hi hw => ?_
    have hi' : i < t.headers.length := by rwa [length_widths] at hw
    rw [getElem_widths { t with rows := t.rows.map f } hi' hi, getElem_widths t hi' hw, width, width,
      List.foldl_map]
    exact List.foldl_ext _ _ _ fun w row _ => by rw [h row i hi']
  rw [render, render, lines, lines, hwidths, List.map_map]
  congr 3
  refine List.map_congr_left fun row _ => ?_
  exact congrArg (line t.widths) (hcells row)

/-- **The text of a table and its columns.**  The text consists of the lines of the header, of the
dashes and of the rows, all of the same length.  A column is as wide as its header and two
characters more, or as its longest trimmed cell.  On all lines of cells it has the same positions
between `| ` and ` |`: there stand the header and spaces, and the trimmed cell of the row, or
nothing, and spaces.  Cells past the header do not matter, nor do blanks around cells. -/
theorem render_columns {t : Table} (hne : t.headers ≠ []) :
    (∃ top middle : Text, ∃ body : List Text,
      t.render = Text.join ['\n'] (top :: middle :: body) ∧
      (∀ l ∈ top :: middle :: body, l.length = offset t.widths t.headers.length + 1) ∧
      (∀ l ∈ top :: body, ∀ i < t.headers.length, Framed t.widths i l) ∧
      (∀ i, (hi : i < t.headers.length) → ∃ n, slot t.widths i top =
        t.headers[i] ++ List.replicate n ' ') ∧
      List.Forall₂ (fun row l => ∀ i < t.headers.length,
        (slot t.widths i l).rdropWhile (· == ' ') = Text.trim (row[i]?.getD [])) t.rows body) ∧
    (∀ i, (hi : i < t.headers.length) → ∃ w, t.widths[i]? = some w ∧
      IsGreatest {n | n = t.headers[i].length + 2 ∨
        ∃ row ∈ t.rows, n = (Text.trim (row[i]?.getD [])).length} w) ∧
    render { t with rows := t.rows.map fun row => row.take t.headers.length } = t.render ∧
    render { t with rows := t.rows.map fun row => row.map Text.trim } = t.render := by
  have hwidths : t.widths ≠ [] := by
    rw [← List.length_pos_iff, length_widths]
    exact List.length_pos_iff.2 hne
  have hrows : ∀ l ∈ t.rows.map fun row => line t.widths (t.shownCells row),
      ∃ cells, Roomy t.widths cells ∧ cells.length = t.headers.length ∧ l = line t.widths cells := by
    rintro l hl
    obtain ⟨row, hrow, rfl⟩ := List.mem_map.1 hl
    exact ⟨_, t.roomy_row hrow, t.length_shownCells row, rfl⟩
  refine ⟨⟨line t.widths t.headers, ruler t.widths,
    t.rows.map fun row => line t.widths (t.shownCells row), rfl, ?_, ?_, ?_, ?_⟩, ?_, ?_, ?_⟩
  · rw [List.forall_mem_cons, List.forall_mem_cons, ← length_widths]
    refine ⟨t.roomy_headers.length_line hwidths, length_ruler hwidths, fun l hl => ?_⟩
    obtain ⟨cells, hroomy, -, rfl⟩ := hrows l hl
    exact hroomy.length_line hwidths
  · rw [List.forall_mem_cons]
    refine ⟨fun i hi => t.roomy_headers.framed_line hi, fun l hl i hi => ?_⟩
    obtain ⟨cells, hroomy, hlen, rfl⟩ := hrows l hl
    exact hroomy.framed_line (hlen ▸ hi)
  · intro i hi
    exact ⟨_, t.roomy_headers.slot_line hi (by rwa [length_widths])⟩
  · rw [List.forall₂_map_right_iff, List.forall₂_same]
    exact fun row hrow i hi => t.rdropWhile_slot_row hrow hi
  · intro i hi
    have hi' : i < t.widths.length := by rwa [length_widths]
    exact ⟨_, List.getElem?_eq_getElem hi', t.getElem_widths hi hi' ▸ t.isGreatest_width _ i⟩
  · exact render_map_rows fun row i hi => by rw [cell, cell, List.getElem?_take_of_lt hi]
  · refine render_map_rows fun row i _ => ?_
    rw [cell, cell, List.getElem?_map]
    cases row[i]? with
    | none => rfl
    | some c => exact (Text.trim_tight c).trim_eq

/-- rows of different lengths, with a cell past the header, blanks around a cell and wide characters -/
def raggedTable : Table where
  headers := ["A".toList, "Name ".toList]
  rows := [["  x  ".toList, "日本語の表です".toList, "more".toList], [], ["\u00A0|ö|".toList]]

theorem render_columns_raggedTable : raggedTable.headers ≠ [] ∧
    ∃ top middle : Text, ∃ body : List Text,
      raggedTable.render = Text.join ['\n'] (top :: middle :: body) ∧ body.length = 3 ∧
      ∀ l ∈ top :: middle :: body, l.length = 17 := by
  have hne : raggedTable.headers ≠ [] := by decide
  obtain ⟨⟨top, middle, body, hrender, hlen, -, -, hrows⟩, -⟩ := render_columns hne
  exact ⟨hne, top, middle, body, hrender, hrows.length_eq.symm, hlen⟩

end ProtoDocs.Table
