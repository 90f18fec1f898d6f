import ProtoDocs.Proofs.Grammar.Declarations

/-!
# Comments in raw text

Ranges and the values of options are read as they stand, and blanks and comments are not skipped in
them.  A comment among ranges belongs to their text, but a semicolon in it ends them like any other.
A comment between two strings ends the value, and since the second string follows where a mark should
stand, the option is not read at all.

* `IsRemark`           a comment together with the line end that a line comment needs;
* `statementLike_rangeText`   ranges go up to the first semicolon that is not in a string;
* `assignment_strings` the value of an option goes up to the first comment;
* `remark_in_raw_text` what a comment does in both;
* `not_forall_accepted`   it may break the file.
-/

namespace ProtoDocs

open Lexeme (isQuote isSpace pastSpace)
open Reader

/-- a comment that can stand anywhere: a line comment has its line end with it -/
def IsRemark (c : Text) : Prop := IsBlockComment c ∨ ∃ l, IsLineComment l ∧ c = l ++ ['\n']

theorem IsRemark.gap {c : Text} (h : IsRemark c) : Gap c := by
  rcases h with h | ⟨l, h, rfl⟩
  · simpa using Gap.block h .nil
  · exact .line h rfl (.space rfl .nil)

theorem IsRemark.exists_slash {c : Text} (h : IsRemark c) : ∃ d, c = '/' :: d := by
  rcases h with ⟨t, rfl, _⟩ | ⟨l, ⟨t, rfl, _⟩, rfl⟩ <;> exact ⟨_, rfl⟩

/-! ## ranges -/

/-- Ranges go up to the first semicolon that is not in a string. -/
theorem statementLike_rangeText {s : Statement} {w r g u : Text} (hs : s.rangeWord? = some (w, r))
    (hg : Gap g) (hclear : Clear w (g ++ u)) (hu : RangeText u) (hsolid : Solid u) (rest : Text) :
    (statementLike s (w ++ (g ++ (u ++ ';' :: rest)))).result =
      some (s.withRanges u.trim, rest) := by
  have hread : (next ranges (g ++ (u ++ ';' :: rest))).result = some (u.trim, ';' :: rest) := by
    rw [result_next, skip_gap hg, skip_of_firm (hsolid.firm _), ranges, result_bind, result_token,
      rangeBody_append hu hsolid.ne_nil]
    simp
  exact statementLike_ranges hs (hclear.append_ranges hsolid.ne_nil _) hread

/-! ## strings -/

theorem Gap.append {g g' : Text} (hg : Gap g) (hg' : Gap g') : Gap (g ++ g') := by
  induction hg with
  | nil => exact hg'
  | space hc _ ih => exact .space hc ih
  | line hc hend _ ih =>
    rw [List.append_assoc]
    exact .line hc (Text.starts_append_of hend g') ih
  | block hc _ ih =>
    rw [List.append_assoc]
    exact .block hc ih

theorem pastSpace_gap {g t : Text} (hg : Gap g) (ht : t.starts (· == '/') = true) :
    (pastSpace (g ++ t)).starts (· == '/') = true := by
  have hslash {r : Text} (hr : r.starts (· == '/') = true) :
      (pastSpace r).starts (· == '/') = true := by
    have hspace : r.starts isSpace = false :=
      Text.not_starts_of_starts (fun c hc => by rw [beq_iff_eq.1 hc]; rfl) hr
    rwa [pastSpace_eq_self hspace]
  induction hg with
  | nil => exact hslash ht
  | space hc _ ih =>
    rw [List.cons_append, pastSpace_space hc]
    exact ih
  | line hc _ _ _ =>
    obtain ⟨d, rfl⟩ := CommentBefore.exists_slash (r := []) (.inl ⟨hc, by simp⟩)
    exact hslash rfl
  | block hc _ _ =>
    obtain ⟨d, rfl⟩ := CommentBefore.exists_slash (r := []) (.inr hc)
    exact hslash rfl

section
variable {name u tail t : Text}

/-- The value of an option goes up to the first comment. -/
theorem assignment_strings (hname : IsOptionName name) (hu : IsStrings u)
    (htail : tail.starts isNumberChar = false) (hquote : (pastSpace tail).starts isQuote = false)
    (h : Begins tail [name, ['='], u] t) : (assignment t).result = some (⟨name, u⟩, tail) := by
  have hconstant : IsConstant u := .inl hu
  obtain ⟨t₁, h₁, ha⟩ := h.token .optionName (p := Lexeme.optionName)
    fun r hr ha => optionName_append hname hr (ha.not_dot (by simp) rfl)
  obtain ⟨t₂, h₂, ha⟩ := ha.mark
  obtain ⟨t₃, h₃, ha⟩ := ha.next (p := token .constant Lexeme.constant) (a := u) hconstant.solid
    fun s hs => hs.token .constant fun r _ ha => by
      cases ha
      exact constant_append hconstant htail hquote
  cases ha
  simp only [assignment, result_bind, h₁, h₂, h₃, Option.bind_some, result_pure]

/-- An option is not read where no semicolon follows its value. -/
theorem setting_of_no_mark (hname : IsOptionName name)
    (hread : ∀ t, Begins tail [name, ['='], u] t → (assignment t).result = some (⟨name, u⟩, tail))
    (hmark : (next (mark ';') tail).result = none)
    (h : Begins tail [Keyword.option.word, name, ['='], u] t) : (setting t).result = none := by
  obtain ⟨t₁, h₁, ha⟩ := h.keyword
  have h₂ : (next assignment t₁).result = some (⟨name, u⟩, tail) := by
    rw [result_next]
    exact hread _ (ha.skip hname.solid)
  simp only [setting, result_named, result_bind, h₁, h₂, hmark, Option.bind_some,
    Option.bind_none]

theorem fieldOptions_of_no_mark (hname : IsOptionName name)
    (hread : ∀ t, Begins tail [name, ['='], u] t → (assignment t).result = some (⟨name, u⟩, tail))
    (hcomma : (next (mark ',') tail).result = none) (hmark : (next (mark ']') tail).result = none)
    (h : Begins tail [['['], name, ['='], u] t) : (fieldOptions t).result = none := by
  obtain ⟨t₁, h₁, ha⟩ := h.mark
  have h₂ : (next fieldOption t₁).result = some (⟨⟨name, u⟩, []⟩, tail) := by
    rw [result_next, fieldOption, result_named, result_bind, hread _ (ha.skip hname.solid)]
    rfl
  have h₃ : (many (do next (mark ','); next fieldOption) tail).result = some ([], tail) := by
    rw [result_many, repeated_of_none]
    rw [result_bind, hcomma]
    rfl
  simp only [fieldOptions, result_named, result_bind, h₁, h₂, h₃, hmark, Option.bind_some,
    Option.bind_none]

end

/-! ## comments in both -/

/-- **What a comment does in raw text.**  Among ranges it is a part of them if it has no semicolon
outside of strings, and else they end in it.  Between two strings it ends the value of an option, and
the option is not read, be it a statement or in brackets. -/
theorem remark_in_raw_text {c : Text} (hc : IsRemark c) :
    (∀ (s : Statement) (w r g a b rest : Text), s.rangeWord? = some (w, r) → Gap g →
      Clear w (g ++ a) → Solid a → RangeText a → RangeText b →
      (RangeText c → (statementLike s (w ++ (g ++ (a ++ (c ++ (b ++ ';' :: rest)))))).result =
        some (s.withRanges (a ++ (c ++ b)).trim, rest)) ∧
      ∀ u v, RangeText u → c = u ++ ';' :: v →
        (statementLike s (w ++ (g ++ (a ++ (c ++ (b ++ ';' :: rest)))))).result =
          some (s.withRanges (a ++ u).trim, v ++ (b ++ ';' :: rest))) ∧
    ∀ (name u g g' v rest t : Text), IsOptionName name → IsStrings u → Gap g → Gap g' →
      v.starts isQuote = true →
      (Begins (g ++ (c ++ (g' ++ (v ++ rest)))) [Keyword.option.word, name, ['='], u] t →
        (setting t).result = none) ∧
      (Begins (g ++ (c ++ (g' ++ (v ++ rest)))) [['['], name, ['='], u] t →
        (fieldOptions t).result = none) := by
  constructor
  · intro s w r g a b rest hs hg hclear hsolid ha hb
    have hclear' (x : Text) : Clear w (g ++ (a ++ x)) := hclear.append_ranges hsolid.ne_nil x
    have hsolid' (x : Text) : Solid (a ++ x) := Text.starts_append_of hsolid x
    constructor
    · intro hrange
      have hread := statementLike_rangeText hs hg (hclear' (c ++ b)) (ha.append (hrange.append hb))
        (hsolid' _) rest
      simpa only [List.append_assoc] using hread
    · rintro u v hu rfl
      have hread := statementLike_rangeText hs hg (hclear' u) (ha.append hu) (hsolid' _)
        (v ++ (b ++ ';' :: rest))
      simpa only [List.append_assoc, List.cons_append] using hread
  · intro name u g g' v rest t hname hu hg hg' hv
    have hslash : (c ++ (g' ++ (v ++ rest))).starts (· == '/') = true := by
      obtain ⟨d, rfl⟩ := hc.exists_slash
      rfl
    have hquote : (pastSpace (g ++ (c ++ (g' ++ (v ++ rest))))).starts isQuote = false :=
      Text.not_starts_of_starts (fun x hx => by rw [beq_iff_eq.1 hx]; rfl) (pastSpace_gap hg hslash)
    have hnumber : (g ++ (c ++ (g' ++ (v ++ rest)))).starts isNumberChar = false := by
      cases g with
      | nil => exact Text.not_starts_of_starts (fun x hx => by rw [beq_iff_eq.1 hx]; rfl) hslash
      | cons x g => exact hg.starts rfl fun _ => not_of_isSpace (by decide)
    have hskip : (skip (g ++ (c ++ (g' ++ (v ++ rest))))).2 = v ++ rest := by
      have hfirm : Firm (v ++ rest) := Solid.firm (.of_starts hv (by decide)) rest
      rw [skip_gap hg, skip_gap hc.gap, skip_gap hg', skip_of_firm hfirm]
    have hmark {d : Char} (hd : isQuote d = false) :
        (next (mark d) (g ++ (c ++ (g' ++ (v ++ rest))))).result = none := by
      rw [result_next, hskip]
      exact mark_refuses (Text.starts_append_of hv rest) hd
    have hread (t : Text) (h : Begins (g ++ (c ++ (g' ++ (v ++ rest)))) [name, ['='], u] t) :
        (assignment t).result = some (⟨name, u⟩, g ++ (c ++ (g' ++ (v ++ rest)))) :=
      assignment_strings hname hu hnumber hquote h
    exact ⟨setting_of_no_mark hname hread (hmark rfl),
      fieldOptions_of_no_mark hname hread (hmark rfl) (hmark rfl)⟩

theorem remark_in_raw_text_semicolon :
    IsRemark "/*;*/".toList ∧
      (statementLike (.reserved "1,2".toList) "reserved 1,/*;*/2;\x7d".toList).result =
        some (.reserved "1,/*".toList, "*/2;\x7d".toList) :=
  have hc : IsRemark "/*;*/".toList := .inl ⟨[';'], rfl, by decide⟩
  have ha : RangeText "1,".toList := .of_forall (by decide)
  have hb : RangeText "2".toList := .of_forall (by decide)
  have hu : RangeText "/*".toList := .of_forall (by decide)
  have hstatement := (remark_in_raw_text hc).1 (.reserved "1,2".toList) _ _ [' '] _ _ ['\x7d'] rfl
    (.space rfl .nil) (by decide) (by decide) ha hb
  ⟨hc, hstatement.2 "/*".toList "*/".toList hu rfl⟩

/-- A comment among ranges or between strings may break a file that is read without it. -/
theorem not_forall_accepted :
    ((∃ es, parse "message M\x7breserved 1,2;\x7d".toList = .ok es) ∧
      ¬ ∃ es, parse "message M\x7breserved 1,/*;*/2;\x7d".toList = .ok es) ∧
    (∃ es, parse "option a=\"x\"\"y\";".toList = .ok es) ∧
      ¬ ∃ es, parse "option a=\"x\"/*c*/\"y\";".toList = .ok es := by
  have haccepted {t : Text} (h : (items (itemAt .file) t).result.map (·.2) = some []) :
      ∃ es, parse t = .ok es := by
    obtain ⟨⟨es, r⟩, hes, rfl⟩ := Option.map_eq_some_iff.1 h
    exact ⟨es, parse_eq_ok.2 hes⟩
  have hrefused {t : Text} (h : (items (itemAt .file) t).result.map (·.2) ≠ some []) :
      ¬ ∃ es, parse t = .ok es := by
    rintro ⟨es, hes⟩
    rw [parse_eq_ok.1 hes] at h
    exact h rfl
  exact ⟨⟨haccepted (by decide +kernel), hrefused (by decide +kernel)⟩,
    haccepted (by decide +kernel), hrefused (by decide +kernel)⟩

end ProtoDocs
