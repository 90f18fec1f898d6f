import ProtoDocs.Grammar.Lexeme
import ProtoDocs.Proofs.Text.Join

/-!
# Line ends

The lines of a schema file, which end at line feeds, at carriage returns, or at both together, and
texts with other line ends instead of their own.

* `Text.breakLines`     the lines of a text;
* `Text.withBreaks`     the text with one line end for all of its own;
* `Text.isLineEnd_of_mem_breakLines`   nothing within a line ends a line;
* `Text.withBreaks_append`, `Text.withBreaks_append_right`   what has no line ends stays as it is.
-/

namespace ProtoDocs

open Lexeme

namespace Text

/-- the first of the lines with one more character in front -/
def extendFirst (c : Char) : List Text → List Text
  | [] => [[c]]
  | l :: ls => (c :: l) :: ls

/-- the lines of a text: a line feed, a carriage return, or both in this order end a line -/
def breakLines : Text → List Text
  | [] => [[]]
  | '\r' :: '\n' :: t => [] :: breakLines t
  | c :: t => if isLineEnd c then [] :: breakLines t else extendFirst c (breakLines t)

/-- the text with `e` for each of its line ends -/
def withBreaks (e t : Text) : Text := join e (breakLines t)

/-! ## the lines of a text -/

theorem extendFirst_ne_nil (c : Char) (ls : List Text) : extendFirst c ls ≠ [] := by
  cases ls <;> exact List.cons_ne_nil _ _

theorem breakLines_ne_nil (t : Text) : breakLines t ≠ [] := by
  fun_cases breakLines t with
  | case1 => exact List.cons_ne_nil _ _
  | case2 t => exact List.cons_ne_nil _ _
  | case3 c t _ _ => exact List.cons_ne_nil _ _
  | case4 c t _ _ => exact extendFirst_ne_nil c _

theorem breakLines_crlf (t : Text) : breakLines ('\r' :: '\n' :: t) = [] :: breakLines t := rfl

theorem breakLines_end {c : Char} (hc : isLineEnd c = true) {t : Text}
    (hcrlf : ∀ u, c = '\r' → t = '\n' :: u → False) : breakLines (c :: t) = [] :: breakLines t := by
  rw [breakLines, if_pos hc]
  exact hcrlf

theorem breakLines_cons {c : Char} (hc : isLineEnd c = false) (t : Text) :
    breakLines (c :: t) = extendFirst c (breakLines t) := by
  rw [breakLines, if_neg (by rw [hc]; exact Bool.false_ne_true)]
  rintro _ rfl
  exact absurd hc (by decide)

theorem breakLines_of_forall {s : Text} (hs : ∀ c ∈ s, isLineEnd c = false) :
    breakLines s = [s] := by
  induction s with
  | nil => rfl
  | cons c s ih =>
    rw [List.forall_mem_cons] at hs
    rw [breakLines_cons hs.1, ih hs.2]
    rfl

theorem isLineEnd_of_mem_breakLines {t l : Text} (h : l ∈ breakLines t) {c : Char} (hc : c ∈ l) :
    isLineEnd c = false := by
  induction t using breakLines.induct generalizing l with
  | case1 =>
    obtain rfl : l = [] := List.mem_singleton.1 h
    exact absurd hc List.not_mem_nil
  | case2 t ih =>
    rw [breakLines_crlf] at h
    rcases List.mem_cons.1 h with rfl | h
    · exact absurd hc List.not_mem_nil
    · exact ih h hc
  | case3 d t hcrlf hd ih =>
    rw [breakLines_end hd hcrlf] at h
    rcases List.mem_cons.1 h with rfl | h
    · exact absurd hc List.not_mem_nil
    · exact ih h hc
  | case4 d t _ hd ih =>
    rw [breakLines_cons (Bool.eq_false_iff.2 hd)] at h
    cases hls : breakLines t with
    | nil => exact absurd hls (breakLines_ne_nil t)
    | cons m ls =>
      rw [hls] at h ih
      rcases List.mem_cons.1 h with rfl | h
      · rcases List.mem_cons.1 hc with rfl | hc
        · exact Bool.eq_false_iff.2 hd
        · exact ih List.mem_cons_self hc
      · exact ih (List.mem_cons_of_mem m h) hc

/-! ## other line ends -/

theorem join_extendFirst (e : Text) (c : Char) (ls : List Text) :
    join e (extendFirst c ls) = c :: join e ls := by
  match ls with
  | [] => exact join_singleton e [c]
  | [l] => exact (join_singleton e (c :: l)).trans (congrArg (c :: ·) (join_singleton e l).symm)
  | l :: m :: ls =>
    rw [extendFirst, join_cons e _ (List.cons_ne_nil m ls), join_cons e l (List.cons_ne_nil m ls)]
    rfl

theorem withBreaks_crlf (e t : Text) : withBreaks e ('\r' :: '\n' :: t) = e ++ withBreaks e t := by
  rw [withBreaks, breakLines_crlf, join_cons e [] (breakLines_ne_nil t)]
  rfl

theorem withBreaks_end {c : Char} (hc : isLineEnd c = true) {t : Text}
    (hcrlf : ∀ u, c = '\r' → t = '\n' :: u → False) (e : Text) :
    withBreaks e (c :: t) = e ++ withBreaks e t := by
  rw [withBreaks, breakLines_end hc hcrlf, join_cons e [] (breakLines_ne_nil t)]
  rfl

theorem withBreaks_cons {c : Char} (hc : isLineEnd c = false) (e t : Text) :
    withBreaks e (c :: t) = c :: withBreaks e t := by
  rw [withBreaks, breakLines_cons hc, join_extendFirst]
  rfl

theorem withBreaks_append {s : Text} (hs : ∀ c ∈ s, isLineEnd c = false) (e t : Text) :
    withBreaks e (s ++ t) = s ++ withBreaks e t := by
  induction s with
  | nil => rfl
  | cons c s ih =>
    rw [List.forall_mem_cons] at hs
    rw [List.cons_append, withBreaks_cons hs.1, ih hs.2]
    rfl

/-- A text without line ends stays as it is. -/
theorem withBreaks_of_forall {s : Text} (hs : ∀ c ∈ s, isLineEnd c = false) (e : Text) :
    withBreaks e s = s := by
  rw [withBreaks, breakLines_of_forall hs, join_singleton]

theorem withBreaks_append_right {s : Text} (hs : ∀ c ∈ s, isLineEnd c = false) (e t : Text) :
    withBreaks e (t ++ s) = withBreaks e t ++ s := by
  induction t using breakLines.induct with
  | case1 => exact withBreaks_of_forall hs e
  | case2 t ih =>
    rw [List.cons_append, List.cons_append, withBreaks_crlf, ih, withBreaks_crlf, List.append_assoc]
  | case3 c t hcrlf hc ih =>
    have hcrlf' : ∀ u, c = '\r' → t ++ s = '\n' :: u → False := by
      intro u hr hu
      cases t with
      | nil =>
        have hn := hs '\n' (by rw [← List.nil_append s, hu]; exact List.mem_cons_self)
        exact absurd hn (by decide)
      | cons d t => exact hcrlf t hr (by rw [(List.cons.inj hu).1])
    rw [List.cons_append, withBreaks_end hc hcrlf', ih, withBreaks_end hc hcrlf, List.append_assoc]
  | case4 c t _ hc ih =>
    have hc' := Bool.eq_false_iff.2 hc
    rw [List.cons_append, withBreaks_cons hc', ih, withBreaks_cons hc', List.cons_append]

end Text
end ProtoDocs
