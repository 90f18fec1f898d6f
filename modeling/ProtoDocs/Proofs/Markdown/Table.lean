import Mathlib
import ProtoDocs.Markdown.Table
import ProtoDocs.Proofs.Text.Join

/-!
# Well-formed tables

A reader of the pipe format takes a table line by line and cuts each line at the bars that no
backslash stands in front of.  A table is well-formed if this gives back its lines, and on each line
as many cells as there are headers.

* `cutAtBars`, `cellsOf`   the pieces of a line, and the cells among them;
* `Fits t`                 the text `t` neither holds such a bar nor a line break;
* `Table.FitsLine`         a line with the right number of cells and without line breaks;
* `Table.WellFormed`       a table whose text falls into its lines, all of them such.

`Table.fitsLine_line_iff` says that a line is such exactly if its cells fit, `Table.wellFormed_iff`
the same of a table.
-/

namespace ProtoDocs

/-- the pieces of a text between the bars that no backslash stands in front of, where `escaped` says
whether one stands in front of the text -/
def cutAtBars : Bool → Text → List Text
  | _, [] => [[]]
  | escaped, c :: t =>
    if c = '|' ∧ escaped = false then [] :: cutAtBars false t
    else match cutAtBars (c == '\\') t with
      | [] => [[c]]
      | piece :: pieces => (c :: piece) :: pieces

/-- the cells of a line: what stands between two of its bars -/
def cellsOf (line : Text) : List Text := ((cutAtBars false line).drop 1).dropLast

/-- how many bars a text has that no backslash stands in front of -/
def bars : Bool → Text → Nat
  | _, [] => 0
  | escaped, c :: t => (if c = '|' ∧ escaped = false then 1 else 0) + bars (c == '\\') t

/-- the text can stand in a cell: it has no bar without a backslash in front, and no line break -/
def Fits (t : Text) : Prop := bars false t = 0 ∧ '\n' ∉ t ∧ '\r' ∉ t

theorem length_cutAtBars (escaped : Bool) (t : Text) :
    (cutAtBars escaped t).length = bars escaped t + 1 := by
  induction t generalizing escaped with
  | nil => rfl
  | cons c t ih =>
    rw [cutAtBars, bars]
    split
    · rename_i h
      rw [List.length_cons, ih, h.1]
      simp [Nat.add_comm]
    · have hlen := ih (c == '\\')
      rw [Nat.zero_add]
      split
      · rename_i heq
        simp [heq] at hlen
      · rename_i piece pieces heq
        rw [heq] at hlen
        exact hlen

theorem length_cellsOf (t : Text) : (cellsOf t).length = bars false t - 1 := by
  simp [cellsOf, length_cutAtBars]

/-! ## counting bars -/

theorem bars_space (escaped : Bool) (t : Text) : bars escaped (' ' :: t) = bars false t := by
  simp [bars]

theorem bars_bar (t : Text) : bars false ('|' :: t) = bars false t + 1 := by
  simp [bars, Nat.add_comm]

theorem bars_append_space (escaped : Bool) (s t : Text) :
    bars escaped (s ++ ' ' :: t) = bars escaped s + bars false t := by
  induction s generalizing escaped with
  | nil => rw [List.nil_append, bars_space, bars, Nat.zero_add]
  | cons c s ih => rw [List.cons_append, bars, ih, bars, Nat.add_assoc]

theorem bars_spaces (escaped : Bool) (s : Text) (n : Nat) :
    bars escaped (s ++ List.replicate n ' ') = bars escaped s := by
  cases n with
  | zero => rw [List.replicate_zero, List.append_nil]
  | succ n =>
    rw [List.replicate_succ, bars_append_space]
    have hzero : bars false (List.replicate n ' ') = 0 := by
      induction n with
      | zero => rfl
      | succ n ih => rw [List.replicate_succ, bars_space, ih]
    rw [hzero, Nat.add_zero]

namespace Table

theorem bars_padded (escaped : Bool) (c : Text) (w : Nat) :
    bars escaped (padded c w) = bars escaped c := bars_spaces escaped c _

/-- Between cells stand single bars with spaces around them. -/
theorem bars_join {cs : List Text} (h : cs ≠ []) (t : Text) :
    bars false (Text.join " | ".toList cs ++ ' ' :: t) =
      (cs.map (bars false)).sum + (cs.length - 1) + bars false t := by
  induction cs with
  | nil => exact absurd rfl h
  | cons c cs ih =>
    by_cases hcs : cs = []
    · subst hcs
      simp [bars_append_space]
    · have hsep : " | ".toList ++ Text.join " | ".toList cs ++ ' ' :: t =
          ' ' :: '|' :: ' ' :: (Text.join " | ".toList cs ++ ' ' :: t) := rfl
      have hlen : 0 < cs.length := List.length_pos_iff.2 hcs
      rw [Text.join_cons _ _ hcs, List.append_assoc, hsep, bars_append_space, bars_bar, bars_space,
        ih hcs, List.map_cons, List.sum_cons, List.length_cons]
      omega

/-- A line has one bar more than cells, and the bars that its cells have. -/
theorem bars_line {widths : List Nat} {cs : List Text} (hlen : cs.length = widths.length)
    (hne : cs ≠ []) :
    bars false (line widths cs) = (cs.map (bars false)).sum + cs.length + 1 := by
  have hpadded : (List.zipWith padded cs widths).map (bars false) = cs.map (bars false) := by
    apply List.ext_getElem
    · simp [hlen]
    · intro i h₁ h₂
      simp [bars_padded]
  have hne' : List.zipWith padded cs widths ≠ [] := by
    intro h
    have := congrArg List.length h
    simp [← hlen] at this
    exact hne this
  have hpos : 0 < cs.length := List.length_pos_iff.2 hne
  have hline : line widths cs =
      '|' :: ' ' :: (Text.join " | ".toList (List.zipWith padded cs widths) ++ ' ' :: ['|']) := by
    simp [line]
  rw [hline, bars_bar, bars_space, bars_join hne', hpadded, List.length_zipWith, ← hlen,
    Nat.min_self, bars_bar, bars]
  omega

/-! ## lines -/

/-- the line has this number of cells and no line breaks -/
def FitsLine (n : Nat) (line : Text) : Prop :=
  (cellsOf line).length = n ∧ '\n' ∉ line ∧ '\r' ∉ line

theorem mem_padded {x : Char} (hx : x ≠ ' ') (c : Text) (w : Nat) : x ∈ padded c w ↔ x ∈ c := by
  rw [padded, List.mem_append, List.mem_replicate]
  simp [hx]

theorem mem_line {x : Char} (hx : x ∉ " | ".toList) {widths : List Nat} {cs : List Text}
    (hlen : cs.length = widths.length) : x ∈ line widths cs ↔ ∃ c ∈ cs, x ∈ c := by
  have hfront : x ∉ "| ".toList := fun h => hx (List.mem_cons_of_mem _ h)
  have hback : x ∉ " |".toList := fun h => hx (List.mem_append_left [' '] h)
  have hspace : x ≠ ' ' := by
    rintro rfl
    exact hx (by decide)
  rw [line, List.mem_append, List.mem_append, Text.mem_join_iff hx]
  simp only [hfront, hback, false_or, or_false]
  constructor
  · rintro ⟨p, hp, hxp⟩
    obtain ⟨i, hi, rfl⟩ := List.getElem_of_mem hp
    rw [List.getElem_zipWith, mem_padded hspace] at hxp
    exact ⟨_, List.getElem_mem _, hxp⟩
  · rintro ⟨c, hc, hxc⟩
    obtain ⟨i, hi, rfl⟩ := List.getElem_of_mem hc
    refine ⟨padded cs[i] (widths[i]), ?_, (mem_padded hspace _ _).2 hxc⟩
    rw [List.mem_iff_getElem]
    exact ⟨i, by simp [← hlen, hi], by simp⟩

/-- A line of cells has their number of cells, and no line breaks, exactly if all of them fit. -/
theorem fitsLine_line_iff {widths : List Nat} {cs : List Text} (hlen : cs.length = widths.length)
    (hne : cs ≠ []) : FitsLine cs.length (line widths cs) ↔ ∀ c ∈ cs, Fits c := by
  have hcells : (cellsOf (line widths cs)).length = cs.length ↔ ∀ c ∈ cs, bars false c = 0 := by
    have hsum : (cs.map (bars false)).sum = 0 ↔ ∀ c ∈ cs, bars false c = 0 := by
      rw [List.sum_eq_zero_iff_forall_eq_nat, List.forall_mem_map]
    rw [length_cellsOf, bars_line hlen hne, ← hsum]
    omega
  rw [FitsLine, hcells, mem_line (by decide) hlen, mem_line (by decide) hlen]
  constructor
  · rintro ⟨hbars, hn, hr⟩ c hc
    exact ⟨hbars c hc, fun h => hn ⟨c, hc, h⟩, fun h => hr ⟨c, hc, h⟩⟩
  · intro h
    refine ⟨fun c hc => (h c hc).1, ?_, ?_⟩
    · rintro ⟨c, hc, hx⟩
      exact (h c hc).2.1 hx
    · rintro ⟨c, hc, hx⟩
      exact (h c hc).2.2 hx

theorem bars_dashes (escaped : Bool) (n : Nat) (t : Text) :
    bars escaped (List.replicate (n + 1) '-' ++ '|' :: t) = bars false t + 1 := by
  induction n generalizing escaped with
  | zero => simp [bars, Nat.add_comm]
  | succ n ih =>
    rw [List.replicate_succ, List.cons_append, bars, ih]
    simp

theorem bars_ruler {widths : List Nat} (hne : widths ≠ []) :
    bars false (ruler widths) = widths.length + 1 := by
  have hjoin : ∀ ws : List Nat, ws ≠ [] →
      bars false (Text.join ['|'] (ws.map fun w => List.replicate (w + 2) '-') ++ ['|']) =
        ws.length := by
    intro ws hws
    induction ws with
    | nil => exact absurd rfl hws
    | cons w ws ih =>
      by_cases hnil : ws = []
      · subst hnil
        rw [List.map_singleton, Text.join_singleton, bars_dashes]
        rfl
      · rw [List.map_cons, Text.join_cons _ _ (by simpa using hnil), List.append_assoc,
          List.singleton_append, List.cons_append, bars_dashes, ih hnil, List.length_cons]
  rw [ruler, List.append_assoc, List.singleton_append, bars_bar, hjoin widths hne]

theorem fitsLine_ruler {widths : List Nat} (hne : widths ≠ []) :
    FitsLine widths.length (ruler widths) := by
  have hmem {x : Char} (hx : x ≠ '|' ∧ x ≠ '-') : x ∉ ruler widths := by
    rw [ruler, List.mem_append, List.mem_append, Text.mem_join_iff (by simpa using hx.1)]
    simp [hx]
  refine ⟨?_, hmem (by decide), hmem (by decide)⟩
  rw [length_cellsOf, bars_ruler hne, Nat.add_sub_cancel]

/-! ## tables -/

/-- Cut at its line ends, the text of the table falls into its lines; none of them has a line break
of the other sort, and each has as many cells as there are headers. -/
structure WellFormed (t : Table) : Prop where
  lines : t.render.splitOn '\n' = t.lines
  fits : ∀ l ∈ t.lines, FitsLine t.headers.length l

theorem length_widths (t : Table) : t.widths.length = t.headers.length := by
  simp [widths]

theorem lines_ne_nil (t : Table) : t.lines ≠ [] := by
  simp [lines]

theorem wellFormed_iff_lines (t : Table) :
    t.WellFormed ↔ ∀ l ∈ t.lines, FitsLine t.headers.length l := by
  constructor
  · exact fun h => h.fits
  · intro h
    exact ⟨(Text.splitOn_join_iff '\n' t.lines_ne_nil).2 fun l hl => (h l hl).2.1, h⟩

/-- The line of a row is as it should be exactly if the shown cells fit. -/
theorem fitsLine_row_iff (t : Table) (hne : t.headers ≠ []) (row : List Text) :
    FitsLine t.headers.length (line t.widths (t.shownCells row)) ↔
      ∀ c ∈ t.shownCells row, Fits c := by
  have hlen : (t.shownCells row).length = t.headers.length := by simp [shownCells]
  rw [← hlen]
  refine fitsLine_line_iff (by rw [hlen, length_widths]) ?_
  rw [← List.length_pos_iff, hlen]
  exact List.length_pos_iff.2 hne

theorem fitsLine_headers (t : Table) (hne : t.headers ≠ []) (h : ∀ c ∈ t.headers, Fits c) :
    FitsLine t.headers.length (line t.widths t.headers) :=
  (fitsLine_line_iff t.length_widths.symm hne).2 h

theorem fitsLine_rulerLine (t : Table) (hne : t.headers ≠ []) :
    FitsLine t.headers.length (ruler t.widths) := by
  have hlen : 0 < t.widths.length := by
    rw [length_widths]
    exact List.length_pos_iff.2 hne
  rw [← length_widths]
  exact fitsLine_ruler (List.ne_nil_of_length_pos hlen)

theorem wellFormed_iff_rows (t : Table) (hne : t.headers ≠ []) (h : ∀ c ∈ t.headers, Fits c) :
    t.WellFormed ↔ ∀ l ∈ t.rows.map fun row => line t.widths (t.shownCells row),
      FitsLine t.headers.length l := by
  rw [wellFormed_iff_lines, lines, List.forall_mem_cons, List.forall_mem_cons]
  constructor
  · exact fun hall => hall.2.2
  · exact fun hrows => ⟨t.fitsLine_headers hne h, t.fitsLine_rulerLine hne, hrows⟩

/-- Under headers that fit, a table is well-formed exactly if all its shown cells fit. -/
theorem wellFormed_iff (t : Table) (hne : t.headers ≠ []) (h : ∀ c ∈ t.headers, Fits c) :
    t.WellFormed ↔ ∀ row ∈ t.rows, ∀ c ∈ t.shownCells row, Fits c := by
  rw [t.wellFormed_iff_rows hne h, List.forall_mem_map]
  constructor
  · exact fun hall row hrow => (t.fitsLine_row_iff hne row).1 (hall row hrow)
  · exact fun hall row hrow => (t.fitsLine_row_iff hne row).2 (hall row hrow)

theorem shownCells_of_length (t : Table) {row : List Text} (h : row.length = t.headers.length) :
    t.shownCells row = row.map Text.trim := by
  apply List.ext_getElem
  · simp [shownCells, h]
  · intro i h₁ h₂
    have hi : i < row.length := by simpa using h₂
    simp [shownCells, cell, hi]

end Table
end ProtoDocs
