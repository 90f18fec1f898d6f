import Mathlib
import ProtoDocs.Proofs.Grammar.Progress

/-!
# Comments and gaps

What comments look like, said without the recogniser, and what is skipped between two tokens.

* `IsLineComment`, `IsBlockComment`   the two forms of comments;
* `CommentBefore c r`                 `c` is a comment as a whole where `r` follows;
* `Gap`                               blanks and comments, as they stand between two tokens;
* `isFiller`                          blanks and semicolons, as they stand between two elements;
* `Firm`                              a text with nothing to skip in front.

`comment_eq_some_iff` says that these are the texts that the recogniser finds, `skip_gap` and
`exists_gap` that gaps are what is skipped.
-/

namespace ProtoDocs

open Lexeme Reader

def Text.starts (p : Char → Bool) (t : Text) : Bool := t.head?.any p

@[simp] theorem Text.starts_nil (p : Char → Bool) : Text.starts p [] = false := rfl

@[simp] theorem Text.starts_cons (p : Char → Bool) (c : Char) (t : Text) :
    Text.starts p (c :: t) = p c := rfl

theorem Text.starts_append {p : Char → Bool} {s : Text} (hs : s ≠ []) (t : Text) :
    Text.starts p (s ++ t) = Text.starts p s := by
  cases s with
  | nil => exact absurd rfl hs
  | cons c s => rfl

theorem Text.starts_append_of {p : Char → Bool} {s : Text} (h : Text.starts p s = true) (t : Text) :
    Text.starts p (s ++ t) = true := by
  cases s with
  | nil => simp at h
  | cons c s => exact h

theorem Text.starts_mono {p q : Char → Bool} (h : ∀ c, p c → q c) {t : Text}
    (ht : Text.starts p t = true) : Text.starts q t = true := by
  cases t with
  | nil => simp at ht
  | cons c t => exact h c ht

theorem Text.not_starts_mono {p q : Char → Bool} (h : ∀ c, q c → p c) {t : Text}
    (ht : Text.starts p t = false) : Text.starts q t = false := by
  cases t with
  | nil => rfl
  | cons c t =>
    rw [Text.starts_cons, Bool.eq_false_iff] at ht ⊢
    exact fun hq => ht (h c hq)

theorem Text.not_starts_of_starts {p q : Char → Bool} (h : ∀ c, q c → p c = false) {t : Text}
    (ht : Text.starts q t = true) : Text.starts p t = false := by
  cases t with
  | nil => rfl
  | cons c t => exact h c ht

theorem beq_false_of_class {p : Char → Bool} {c d : Char} (hd : p d = false) (hc : p c) :
    (c == d) = false := by
  rw [beq_eq_false_iff_ne]
  rintro rfl
  simp [hd] at hc

theorem isSpace_of_isLineEnd {c : Char} (h : isLineEnd c) : isSpace c := by
  simp only [isLineEnd, Bool.or_eq_true] at h
  rcases h with h | h <;> simp [isSpace, h]

/-- What none of the blanks is, no blank is. -/
theorem not_of_isSpace {p : Char → Bool} (hp : ∀ c ∈ " \t\r\n\uFEFF".toList, p c = false)
    {c : Char} (h : isSpace c) : p c = false := by
  simp only [isSpace, Bool.or_eq_true, beq_iff_eq] at h
  rcases h with (((rfl | rfl) | rfl) | rfl) | rfl <;> exact hp _ (by decide)

/-- a blank or a semicolon, as they may stand between elements -/
def isFiller (c : Char) : Bool := isSpace c || c == ';'

/-! ## comments -/

/-- two slashes and a text without line ends -/
def IsLineComment (c : Text) : Prop := ∃ t, c = '/' :: '/' :: t ∧ ∀ x ∈ t, isLineEnd x = false

/-- a slash and an asterisk up to the first asterisk and slash -/
def IsBlockComment (c : Text) : Prop :=
  ∃ t, c = '/' :: '*' :: (t ++ ['*', '/']) ∧ ¬ ['*', '/'] <:+: t

/-- `c` is a comment, and `r` does not carry on with it -/
def CommentBefore (c r : Text) : Prop :=
  IsLineComment c ∧ (r ≠ [] → r.starts isLineEnd) ∨ IsBlockComment c

theorem pastBlockEnd_eq_some_iff {t r : Text} :
    pastBlockEnd t = some r ↔ ∃ u, t = u ++ '*' :: '/' :: r ∧ ¬ ['*', '/'] <:+: u := by
  induction t using pastBlockEnd.induct with
  | case1 t =>
    constructor
    · intro h
      cases h
      exact ⟨[], rfl, by simp⟩
    · rintro ⟨u, hu, hn⟩
      rcases u with _ | ⟨c, _ | ⟨d, u⟩⟩
      · simpa [pastBlockEnd] using hu
      · simp at hu
      · simp only [List.cons_append, List.cons.injEq] at hu
        obtain ⟨rfl, rfl, -⟩ := hu
        exact absurd ⟨[], u, rfl⟩ hn
  | case2 c t hne ih =>
    rw [pastBlockEnd.eq_2 _ _ hne, ih]
    constructor
    · rintro ⟨u, rfl, hn⟩
      refine ⟨c :: u, rfl, fun h => ?_⟩
      rcases List.infix_cons_iff.1 h with ⟨v, hv⟩ | h
      · cases u with
        | nil => simp at hv
        | cons d u =>
          simp only [List.cons_append, List.cons.injEq] at hv
          obtain ⟨rfl, rfl, -⟩ := hv
          exact hne _ rfl rfl
      · exact hn h
    · rintro ⟨u, hu, hn⟩
      cases u with
      | nil =>
        simp only [List.nil_append, List.cons.injEq] at hu
        exact absurd hu.2 (hne _ hu.1)
      | cons d u =>
        simp only [List.cons_append, List.cons.injEq] at hu
        exact ⟨u, hu.2, fun h => hn (h.trans (List.suffix_cons d u).isInfix)⟩
  | case3 => simp [pastBlockEnd]

theorem comment_eq_some_iff {t r : Text} :
    comment t = some r ↔ ∃ c, t = c ++ r ∧ CommentBefore c r := by
  constructor
  · intro h
    unfold comment at h
    split at h
    · rename_i u
      cases h
      refine ⟨'/' :: '/' :: u.takeWhile fun c => !isLineEnd c, by simp, .inl ⟨⟨_, rfl, ?_⟩, ?_⟩⟩
      · intro x hx
        simpa using List.mem_takeWhile_imp hx
      · intro hne
        have := List.head?_dropWhile_not (fun c => !isLineEnd c) u
        cases hd : u.dropWhile fun c => !isLineEnd c with
        | nil => exact absurd hd hne
        | cons c v => simpa [hd] using this
    · rename_i u
      obtain ⟨v, rfl, hv⟩ := pastBlockEnd_eq_some_iff.1 h
      exact ⟨'/' :: '*' :: (v ++ ['*', '/']), by simp, .inr ⟨v, rfl, hv⟩⟩
    · simp at h
  · rintro ⟨c, rfl, ⟨⟨t, rfl, ht⟩, hr⟩ | ⟨t, rfl, ht⟩⟩
    · show some ((t ++ r).dropWhile fun c => !isLineEnd c) = some r
      rw [List.dropWhile_append_of_pos (by simpa using ht)]
      cases r with
      | nil => rfl
      | cons d r => simp [show isLineEnd d = true from hr (by simp)]
    · show pastBlockEnd (t ++ ['*', '/'] ++ r) = some r
      exact pastBlockEnd_eq_some_iff.2 ⟨t, by simp, ht⟩

theorem CommentBefore.exists_slash {c r : Text} (h : CommentBefore c r) : ∃ d, c = '/' :: d := by
  rcases h with ⟨⟨t, rfl, _⟩, _⟩ | ⟨t, rfl, _⟩ <;> exact ⟨_, rfl⟩

/-! ## skipping -/

/-- nothing in front of the text is skipped -/
def Firm (t : Text) : Prop := t.starts isSpace = false ∧ comment t = none

theorem pastSpace_eq_self {t : Text} (h : t.starts isSpace = false) : pastSpace t = t := by
  cases t with
  | nil => rfl
  | cons c t =>
    rw [Text.starts_cons] at h
    simp [pastSpace, h]

theorem starts_pastSpace (t : Text) : (pastSpace t).starts isSpace = false := by
  induction t with
  | nil => rfl
  | cons c t ih =>
    cases h : isSpace c with
    | true => simpa [pastSpace, h] using ih
    | false => simp [pastSpace, h]

theorem exists_pastSpace (t : Text) : ∃ s, (∀ c ∈ s, isSpace c = true) ∧ t = s ++ pastSpace t :=
  ⟨t.takeWhile isSpace, fun _ hc => List.mem_takeWhile_imp hc,
    (List.takeWhile_append_dropWhile ..).symm⟩

theorem pastSpace_space {c : Char} (h : isSpace c) (t : Text) :
    pastSpace (c :: t) = pastSpace t := by
  simp [pastSpace, h]

theorem skip_space {c : Char} (h : isSpace c) (t : Text) : skip (c :: t) = skip t := by
  rw [skip.eq_def (c :: t), skip.eq_def t, pastSpace_space h]

theorem skip_comment {c r : Text} (h : CommentBefore c r) :
    skip (c ++ r) = (c :: (skip r).1, (skip r).2) := by
  have hp : pastSpace (c ++ r) = c ++ r := by
    obtain ⟨d, rfl⟩ := h.exists_slash
    rfl
  have hc : comment (c ++ r) = some r := comment_eq_some_iff.2 ⟨c, rfl, h⟩
  rw [skip.eq_def, hp]
  split
  · simp_all
  · rename_i r' hr'
    obtain rfl : r = r' := by simpa [hc] using hr'
    rw [Text.upTo_append]

theorem skip_of_firm {t : Text} (h : Firm t) : skip t = ([], t) := by
  rw [skip.eq_def, pastSpace_eq_self h.1]
  split
  · rfl
  · simp_all [h.2]

theorem firm_skip (t : Text) : Firm (skip t).2 := by
  fun_induction skip t with
  | case1 t h => exact ⟨starts_pastSpace t, h⟩
  | case2 t r h comments u heq ih => simpa [heq] using ih

/-! ## gaps -/

/-- blanks and comments in front of a token: a line comment has its line end with it -/
inductive Gap : Text → Prop
  | nil : Gap []
  | space {c : Char} {g : Text} : isSpace c → Gap g → Gap (c :: g)
  | line {c g : Text} : IsLineComment c → g.starts isLineEnd → Gap g → Gap (c ++ g)
  | block {c g : Text} : IsBlockComment c → Gap g → Gap (c ++ g)

/-- Gaps are skipped. -/
theorem skip_gap {g : Text} (h : Gap g) (t : Text) : (skip (g ++ t)).2 = (skip t).2 := by
  induction h with
  | nil => rfl
  | space hc _ ih => rwa [List.cons_append, skip_space hc]
  | @line c g hc hg _ ih =>
    have hne : g ≠ [] := by rintro rfl; simp at hg
    rw [List.append_assoc, skip_comment (.inl ⟨hc, fun _ => by rwa [Text.starts_append hne]⟩), ih]
  | block hc _ ih => rw [List.append_assoc, skip_comment (.inr hc), ih]

theorem Gap.of_spaces {s : Text} (hs : ∀ c ∈ s, isSpace c) {g : Text} (hg : Gap g) :
    Gap (s ++ g) := by
  induction s with
  | nil => exact hg
  | cons c s ih =>
    exact .space (hs c List.mem_cons_self) (ih fun d hd => hs d (List.mem_cons_of_mem c hd))

/-- In front of something, what is skipped is a gap. -/
theorem exists_gap {t : Text} (h : (skip t).2 ≠ []) : ∃ g, Gap g ∧ t = g ++ (skip t).2 := by
  fun_induction skip t with
  | case1 t hc =>
    obtain ⟨s, hs, ht⟩ := exists_pastSpace t
    exact ⟨s, by simpa using Gap.of_spaces hs .nil, ht⟩
  | case2 t r hc comments u heq ih =>
    rw [heq] at ih
    obtain ⟨s, hs, ht⟩ := exists_pastSpace t
    obtain ⟨c, hcr, hc'⟩ := comment_eq_some_iff.1 hc
    obtain ⟨g, hg, hr⟩ := ih h
    refine ⟨s ++ (c ++ g), Gap.of_spaces hs ?_, by simp only [List.append_assoc, ← hr, ← hcr, ← ht]⟩
    rcases hc' with ⟨hline, hend⟩ | hblock
    · refine .line hline ?_ hg
      have hr' := hend (by rw [hr]; simp [h])
      cases g with
      | nil =>
        -- the text behind the gap would begin with a line end, which is skipped as well
        have hfirm := (firm_skip r).1
        rw [heq] at hfirm
        cases u with
        | nil => exact absurd rfl h
        | cons d u =>
          rw [hr] at hr'
          exact absurd (isSpace_of_isLineEnd hr') (by simpa using hfirm)
      | cons d g => rwa [hr] at hr'
    · exact .block hblock hg

/-- A gap begins with a blank or a slash. -/
theorem Gap.starts {g : Text} (h : Gap g) {p : Char → Bool} (hslash : p '/' = false)
    (hspace : ∀ c, isSpace c → p c = false) : g.starts p = false := by
  cases h with
  | nil => rfl
  | space hc _ => exact hspace _ hc
  | line hc _ _ =>
    obtain ⟨d, rfl⟩ := CommentBefore.exists_slash (r := []) (.inl ⟨hc, by simp⟩)
    exact hslash
  | block hc _ =>
    obtain ⟨d, rfl⟩ := CommentBefore.exists_slash (r := []) (.inr hc)
    exact hslash

end ProtoDocs
