import ProtoDocs.Proofs.Grammar.Brackets
import ProtoDocs.Proofs.Grammar.Tokens

/-!
# Lexemes and the lines below

A text may be read on its own or with further lines below it.  Names and numbers end before a line
does, so that the lines below make no difference to them.  Strings, comments and brackets can go on
there, but only where they are left open.

* `Scan.Steady b p`     what `p` finds does not depend on the lines `b` below;
* `comment_below`       no comment begins, unless one is left open;
* `stringLit_below`     no string begins, unless one is left open by a backslash at the end.
-/

namespace ProtoDocs

theorem Text.ends_of_suffix {p : Char → Bool} {s t : Text} (h : s <:+ t)
    (ht : Text.ends p t = false) : Text.ends p s = false := by
  obtain ⟨u, rfl⟩ := h
  by_cases hs : s = []
  · subst hs
    rfl
  · rwa [Text.ends_append u hs] at ht

namespace Scan

variable {b : Text}

/-- what is found in a text is found in it with the lines `b` below, and nothing else -/
def Steady (b : Text) (p : Scan) : Prop := ∀ t, p (t ++ '\n' :: b) = (p t).map (· ++ '\n' :: b)

theorem steady_char {p : Char → Bool} (hp : p '\n' = false) : (char p).Steady b := by
  intro t
  cases t with
  | nil => simp [char, hp]
  | cons c t =>
    by_cases hc : p c <;> simp [char, hc]

theorem steady_run {p : Char → Bool} (hp : p '\n' = false) : (run p).Steady b := by
  intro t
  show some ((t ++ '\n' :: b).dropWhile p) = some (t.dropWhile p ++ '\n' :: b)
  rw [List.dropWhile_append]
  by_cases ht : (t.dropWhile p).isEmpty
  · rw [if_pos ht, List.isEmpty_iff.1 ht]
    simp [hp]
  · rw [if_neg ht]

theorem steady_word {w : Text} (hw : '\n' ∉ w) : (word w).Steady b := by
  intro t
  induction w generalizing t with
  | nil => rfl
  | cons c w ih =>
    have hc : c ≠ '\n' := fun h => hw (h ▸ List.mem_cons_self)
    cases t with
    | nil =>
      show word (c :: w) ('\n' :: b) = none
      rw [word_cons, if_neg hc]
    | cons d t =>
      rw [List.cons_append, word_cons, word_cons]
      by_cases hcd : c = d
      · rw [if_pos hcd, if_pos hcd]
        exact ih (fun h => hw (List.mem_cons_of_mem c h)) t
      · rw [if_neg hcd, if_neg hcd]
        rfl

theorem steady_some : Steady b some := fun _ => rfl

theorem Consumes.rest_end {p : Scan} (hc : p.Consumes) (t : Text) : p (rest p t) = none := by
  fun_induction rest p t with
  | case1 t h => exact h
  | case2 t r h hlt ih => exact ih
  | case3 t r h hlt => exact absurd (hc t r h).2 hlt

namespace Steady

variable {p q : Scan}

theorem seq (hp : p.Steady b) (hq : q.Steady b) : (p.seq q).Steady b := by
  intro t
  show (p (t ++ '\n' :: b)).bind q = ((p t).bind q).map _
  rw [hp]
  cases p t with
  | none => rfl
  | some r => exact hq r

theorem or (hp : p.Steady b) (hq : q.Steady b) : (p.or q).Steady b := by
  intro t
  show (p (t ++ '\n' :: b)).or (q (t ++ '\n' :: b)) = ((p t).or (q t)).map _
  rw [hp, hq, Option.map_or]

theorem opt (hp : p.Steady b) : (opt p).Steady b := by
  intro t
  show some ((p (t ++ '\n' :: b)).getD (t ++ '\n' :: b)) = some ((p t).getD t ++ '\n' :: b)
  rw [hp]
  cases p t <;> rfl

theorem butNot (hq : q.Steady b) (hp : p.Steady b) : (butNot q p).Steady b := by
  intro t
  simp only [Scan.butNot, hq t, hp t, Option.isSome_map]
  split <;> rfl

theorem rest_eq (hc : p.Consumes) (hp : p.Steady b) (t : Text) :
    rest p (t ++ '\n' :: b) = rest p t ++ '\n' :: b := by
  fun_induction rest p t with
  | case1 t h => exact rest_of_none (by rw [hp, h]; rfl)
  | case2 t r h hlt ih =>
    rw [rest_of_some hc (r := r ++ '\n' :: b) (by rw [hp, h]; rfl)]
    exact ih
  | case3 t r h hlt => exact absurd (hc t r h).2 hlt

theorem many (hc : p.Consumes) (hp : p.Steady b) : (many p).Steady b := by
  intro t
  show some (rest p (t ++ '\n' :: b)) = some (rest p t ++ '\n' :: b)
  rw [rest_eq hc hp]

theorem run1 {p : Char → Bool} (hp : p '\n' = false) : (run1 p).Steady b :=
  (steady_char hp).seq (steady_run hp)

theorem of_some (hp : p.Steady b) {t r : Text} (h : p t = some r) :
    p (t ++ '\n' :: b) = some (r ++ '\n' :: b) := by
  rw [hp, h]
  rfl

theorem of_none (hp : p.Steady b) {t : Text} (h : p t = none) : p (t ++ '\n' :: b) = none := by
  rw [hp, h]
  rfl

end Steady
end Scan

namespace Lexeme

open Scan

section
variable {b : Text}

/-! ## names and numbers -/

theorem steady_ident : ident.Steady b := (steady_char rfl).seq (steady_run rfl)

theorem steady_fullIdent : fullIdent.Steady b :=
  steady_ident.seq (((steady_char rfl).seq steady_ident).many
    ((consumes_char _).seq consumes_ident.leaves))

theorem steady_typeRef : typeRef.Steady b := (steady_char rfl).opt.seq steady_fullIdent

theorem steady_optionNamePart : optionNamePart.Steady b :=
  ((steady_char rfl).seq ((steady_char rfl).opt.seq
    (steady_fullIdent.seq (steady_char rfl)))).or steady_ident

theorem steady_optionName : optionName.Steady b :=
  steady_optionNamePart.seq (((steady_char rfl).seq steady_optionNamePart).many
    ((consumes_char _).seq consumes_optionNamePart.leaves))

theorem steady_wholeWord {w : Text} (hw : IsIdent w) : (wholeWord w).Steady b := by
  have hline : '\n' ∉ w := fun h => absurd (hw.all _ h) (by decide)
  exact (steady_word hline).seq ((steady_char rfl).butNot steady_some)

theorem steady_intLit : intLit.Steady b :=
  (((steady_word (by decide)).or (steady_word (by decide))).seq (.run1 rfl)).or (.run1 rfl)

theorem steady_enumNumber : enumNumber.Steady b := (steady_char rfl).opt.seq steady_intLit

theorem steady_exponent : exponent.Steady b :=
  (steady_char rfl).seq ((steady_char rfl).opt.seq (.run1 rfl))

theorem steady_floatLit : floatLit.Steady b :=
  ((steady_run rfl).seq ((steady_char rfl).seq (Steady.seq (.run1 rfl) steady_exponent.opt))).or
    ((Steady.seq (.run1 rfl) ((steady_char rfl).seq steady_exponent.opt)).or
      (Steady.seq (.run1 rfl) steady_exponent))

end

/-! ## comments -/

section
variable {b t r : Text}

theorem commentBefore_below {c : Text} (h : CommentBefore c r) :
    CommentBefore c (r ++ '\n' :: b) := by
  refine h.imp_left fun ⟨hline, hend⟩ => ⟨hline, fun _ => ?_⟩
  cases r with
  | nil => rfl
  | cons d r => exact hend (by simp)

/-- A comment goes no further, even if it ends with its line. -/
theorem comment_of_some (h : comment t = some r) :
    comment (t ++ '\n' :: b) = some (r ++ '\n' :: b) := by
  obtain ⟨c, rfl, hc⟩ := comment_eq_some_iff.1 h
  exact comment_eq_some_iff.2 ⟨c, by simp, commentBefore_below hc⟩

/-- Where no comment begins, none begins with lines below, unless one is left open. -/
theorem comment_below (h : comment t = none) (hopen : ¬ ['/', '*'] <+: t) :
    comment (t ++ '\n' :: b) = none := by
  by_cases hslash : t.starts (· == '/')
  · rcases t with _ | ⟨c, _ | ⟨d, t⟩⟩
    · simp at hslash
    · obtain rfl : c = '/' := by simpa using hslash
      rfl
    · obtain rfl : c = '/' := by simpa using hslash
      have hd : d ≠ '*' := by
        rintro rfl
        exact hopen ⟨t, rfl⟩
      have hd' : d ≠ '/' := by
        rintro rfl
        simp [comment] at h
      simp [comment, hd, hd']
  · refine comment_of_not_starts ?_
    cases t with
    | nil => rfl
    | cons c t => simpa using hslash

/-! ## strings -/

/-- A backslash that takes nothing with it stands at the end. -/
theorem ne_backslash_of_ends {c : Char} (hesc : ∀ d u, c = '\\' → t = d :: u → False)
    (hend : Text.ends (· == '\\') (c :: t) = false) : c ≠ '\\' := by
  rintro rfl
  cases t with
  | nil => exact absurd hend (by decide)
  | cons d u => exact hesc d u rfl rfl

theorem stringLit_of_some (h : stringLit t = some r) (u : Text) :
    stringLit (t ++ u) = some (r ++ u) := by
  obtain ⟨s, hs, rfl⟩ := stringLit_eq_some_iff.1 h
  exact stringLit_eq_some_iff.2 ⟨s, hs, by simp⟩

/-- Where no string begins, none begins with lines below, unless a backslash takes the line end with
it. -/
theorem pastQuote_below {q : Char} (hq : q ≠ '\n') (h : pastQuote q t = none)
    (hend : t.ends (· == '\\') = false) : pastQuote q (t ++ '\n' :: b) = none := by
  induction t using pastQuote.induct (q := q) with
  | case1 =>
    rw [List.nil_append, pastQuote.eq_3 q _ _ (by simp), if_neg (Ne.symm hq), if_pos (by decide)]
  | case2 c t ih =>
    rw [pastQuote] at h
    show pastQuote q ('\\' :: c :: (t ++ '\n' :: b)) = none
    rw [pastQuote]
    exact ih h (Text.ends_of_suffix ⟨['\\', c], rfl⟩ hend)
  | case3 t hesc =>
    rw [pastQuote.eq_3 q _ _ hesc, if_pos rfl] at h
    simp at h
  | case4 c t hesc hne hline =>
    have hc : c ≠ '\\' := ne_backslash_of_ends hesc hend
    rw [List.cons_append, pastQuote.eq_3 q _ _ (fun _ _ h _ => hc h), if_neg hne, if_pos hline]
  | case5 c t hesc hne hline ih =>
    have hc : c ≠ '\\' := ne_backslash_of_ends hesc hend
    rw [pastQuote.eq_3 q _ _ hesc, if_neg hne, if_neg hline] at h
    rw [List.cons_append, pastQuote.eq_3 q _ _ (fun _ _ h _ => hc h), if_neg hne, if_neg hline]
    exact ih h (Text.ends_of_suffix (List.suffix_cons c t) hend)

theorem stringLit_below (h : stringLit t = none)
    (hend : t.ends (· == '\\') = false ∨ t.starts isQuote = false) :
    stringLit (t ++ '\n' :: b) = none := by
  cases t with
  | nil => rfl
  | cons q t =>
    by_cases hq : isQuote q
    · rw [Text.starts_cons, hq] at hend
      rw [stringLit, if_pos hq] at h
      rw [List.cons_append, stringLit, if_pos hq]
      have hne : q ≠ '\n' := by
        rintro rfl
        exact absurd hq (by decide)
      exact pastQuote_below hne h (Text.ends_of_suffix (List.suffix_cons q t) (by simpa using hend))
    · rw [List.cons_append, stringLit, if_neg hq]

end
end Lexeme
end ProtoDocs
