import ProtoDocs.Proofs.Markdown.Description

/-!
# Lines of a comment

A description is made of the lines of a comment, each without blanks at its ends and without one
asterisk in front.  Carriage returns at the end of a line are among these blanks, so for a
description the lines are simply what stands between line feeds.

* `Description.texts`    what there is to read on some lines;
* `undecorated_star`     what is read behind an asterisk;
* `IsBreak`              how a line ends;
* `texts_break`          what is read on a line and behind its end;
* `plain_block`          what is read in a block comment.
-/

namespace ProtoDocs

namespace Description

/-- what there is to read on the lines; those without text do not show -/
def texts (ls : List Text) : List Text := (ls.map undecorated).filter (!·.isEmpty)

end Description

/-- a line feed, perhaps with a carriage return in front -/
def IsBreak (e : Text) : Prop := e = ['\n'] ∨ e = ['\r', '\n']

open Description

/-! ## one line -/

theorem undecorated_congr {s t : Text} (h : s.trim = t.trim) : undecorated s = undecorated t := by
  rw [undecorated, undecorated, h]

theorem undecorated_append_return (l : Text) : undecorated (l ++ ['\r']) = undecorated l :=
  undecorated_congr (Text.trim_append_right (by decide) l)

theorem undecorated_dropSuffix_return (l : Text) :
    undecorated (Text.dropSuffix ['\r'] l) = undecorated l := by
  by_cases h : ['\r'] <:+ l
  · obtain ⟨s, rfl⟩ := h
    rw [Text.dropSuffix_append, undecorated_append_return]
  · rw [Text.dropSuffix_of_not h]

section
variable {b : Text}

theorem trim_star (hb : ∀ c ∈ b, isBlank c = true) (l : Text) :
    Text.trim (b ++ '*' :: l) = ['*'] ++ l.rdropWhile isBlank := by
  show ((b ++ '*' :: l).dropWhile isBlank).rdropWhile isBlank = _
  rw [List.dropWhile_append_of_pos hb, List.dropWhile_cons_of_neg (by decide),
    Text.rdropWhile_cons_of_neg (by decide)]
  rfl

/-- Behind blanks, one asterisk is removed with the blanks around it. -/
theorem undecorated_star (hb : ∀ c ∈ b, isBlank c = true) (l : Text) :
    undecorated (b ++ '*' :: l) = l.trim := by
  rw [undecorated, trim_star hb, Text.dropPrefix_append, Text.trim_rdropWhile]

theorem exists_star {l : Text} (h : ['*'] <+: l.trim) :
    ∃ b r, (∀ c ∈ b, isBlank c = true) ∧ l = b ++ '*' :: r := by
  obtain ⟨b, e, hb, -, hl⟩ := Text.exists_trim l
  obtain ⟨s, hs⟩ := h
  exact ⟨b, s ++ e, hb, by rw [hl, ← hs]; rfl⟩

end

/-- Without an asterisk in front, a line is only trimmed. -/
theorem undecorated_of_not {l : Text} (h : ¬['*'] <+: l.trim) : undecorated l = l.trim := by
  rw [undecorated, Text.dropPrefix_of_not h, (Text.trim_tight l).trim_eq]

/-! ## several lines -/

theorem texts_append (ls ms : List Text) : texts (ls ++ ms) = texts ls ++ texts ms := by
  rw [texts, List.map_append, List.filter_append]
  rfl

theorem texts_map {f : Text → Text} (h : ∀ l, undecorated (f l) = undecorated l) (ls : List Text) :
    texts (ls.map f) = texts ls := by
  rw [texts, texts, List.map_map]
  congr 1
  exact List.map_congr_left fun l _ => h l

theorem texts_of_undecorated {l t : Text} (h : undecorated l = t) (hne : t ≠ []) :
    texts [l] = [t] := by
  rw [texts, List.map_singleton, h]
  cases t with
  | nil => exact absurd rfl hne
  | cons c t => rfl

theorem texts_of_undecorated_nil {l : Text} (h : undecorated l = []) : texts [l] = [] := by
  rw [texts, List.map_singleton, h]
  rfl

theorem join_texts_singleton (l : Text) : Text.join [' '] (texts [l]) = undecorated l := by
  by_cases h : undecorated l = []
  · rw [texts_of_undecorated_nil h, h]
    rfl
  · rw [texts_of_undecorated rfl h, Text.join_singleton]

/-- Only line feeds end a line. -/
theorem texts_lines (t : Text) : texts t.lines = texts (t.splitOn '\n') := by
  have hne := List.splitOn_ne_nil '\n' t
  have hlast : (t.splitOn '\n').getLastD [] = (t.splitOn '\n').getLast hne := by
    rw [List.getLastD_eq_getLast?, List.getLast?_eq_some_getLast hne, Option.getD_some]
  rw [Text.lines, hlast, texts_append, texts_map undecorated_dropSuffix_return]
  conv_rhs => rw [← List.dropLast_append_getLast hne, texts_append]
  congr 1
  cases (t.splitOn '\n').getLast hne with
  | nil => rfl
  | cons c l => rfl

theorem texts_break {e l : Text} (he : IsBreak e) (hl : '\n' ∉ l) (s : Text) :
    texts ((l ++ (e ++ s)).splitOn '\n') = texts [l] ++ texts (s.splitOn '\n') := by
  rcases he with rfl | rfl
  · rw [List.singleton_append, List.splitOn_append_cons_self, List.splitOn_eq_singleton hl,
      texts_append]
  · -- the carriage return belongs to the line in front
    have hl' : '\n' ∉ l ++ ['\r'] := by simpa using hl
    have hcr : l ++ (['\r', '\n'] ++ s) = (l ++ ['\r']) ++ '\n' :: s := by simp
    have hsame : texts [l ++ ['\r']] = texts [l] :=
      texts_map (f := (· ++ ['\r'])) undecorated_append_return [l]
    rw [hcr, List.splitOn_append_cons_self, List.splitOn_eq_singleton hl', texts_append, hsame]

/-! ## block comments -/

theorem undelimited_block (t : Text) :
    undelimited ("/*".toList ++ (t ++ "*/".toList)) = t := by
  have htight : Text.Tight ("/*".toList ++ (t ++ "*/".toList)) := by
    constructor
    · intro c hc
      obtain rfl : '/' = c := by simpa using hc
      decide
    · intro c hc
      rw [List.getLast?_append, List.getLast?_append] at hc
      obtain rfl : '/' = c := by simpa using hc
      decide
  have hline : ¬"//".toList <+: "/*".toList ++ (t ++ "*/".toList) := by
    rintro ⟨s, hs⟩
    simp at hs
  rw [undelimited, htight.trim_eq, Text.dropPrefix_of_not hline, Text.dropPrefix_append,
    Text.dropSuffix_append]

theorem plain_block (t : Text) :
    plain ("/*".toList ++ (t ++ "*/".toList)) = Text.join [' '] (texts (t.splitOn '\n')) := by
  rw [← texts_lines, plain, undelimited_block]
  rfl

end ProtoDocs
