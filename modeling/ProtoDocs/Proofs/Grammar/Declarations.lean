import ProtoDocs.Proofs.Grammar.Tokens
import ProtoDocs.Proofs.Text.Trim

/-!
# Reading declarations as they are written

Where a well-formed statement or heading is written, in any of its spellings and with any gaps
between its tokens, the reader of its kind gives it back and stops at its end.

* `statementLike_written`   statements, up to their semicolon;
* `headingLike_written`     headings, up to the brace or semicolon behind them.
-/

namespace ProtoDocs

open Lexeme (isIdentChar isQuote)
open Reader

theorem TypeRef.Spelling.isTypeRef {type : TypeRef} {u : Text} (h : type.Spelling u)
    (hwf : type.WellFormed) : IsTypeRef u := by
  cases type with
  | scalar s =>
    obtain rfl : u = s.name := h
    exact .inl (.one (by cases s <;> exact ⟨_, _, rfl, by decide, by decide⟩))
  | named n => exact SpellsName.isTypeRef h hwf.1

theorem TypeRef.Spelling.ofWritten {type : TypeRef} {u : Text} (h : type.Spelling u)
    (hwf : type.WellFormed) : TypeRef.ofWritten u = type := by
  cases type with
  | scalar s =>
    obtain rfl : u = s.name := h
    rw [TypeRef.ofWritten_of_starts (by cases s <;> decide), TypeRef.ofName, Scalar.ofName?_name]
  | named n =>
    rcases h with rfl | rfl
    · rw [TypeRef.ofWritten_of_starts hwf.1.not_dot, TypeRef.ofName, hwf.2.1]
    · rfl

theorem Label.word_mem_openingWords (l : Label) : l.word ∈ openingWords := by
  cases l <;> decide

theorem IsIdent.not_dot {u : Text} (h : IsIdent u) : u.starts (· == '.') = false :=
  IsFullIdent.not_dot (.one h)

theorem firstWord_of_not_starts {t : Text} (h : t.starts isIdentChar = false) :
    firstWord t = [] := by
  cases t with
  | nil => rfl
  | cons c t =>
    rw [Text.starts_cons] at h
    simp [firstWord, h]

theorem Quoted.firstWord_eq {v u : Text} (h : Quoted v u) : firstWord u = [] := by
  have hnot : u.starts isIdentChar = false :=
    Text.not_starts_of_starts (fun _ => not_of_isQuote (by decide)) h.isString.starts
  exact firstWord_of_not_starts hnot

/-- No type of a field begins with an opening word. -/
theorem TypeRef.Spelling.firstWord_notMem {type : TypeRef} {u : Text} (h : type.Spelling u)
    (hwf : type.WellFormed) : firstWord u ∉ openingWords := by
  cases type with
  | scalar s =>
    obtain rfl : u = s.name := h
    cases s <;> decide
  | named n =>
    rcases SpellsName.firstWord_eq h with h | h
    · rw [h]
      exact hwf.2.2
    · rw [h]
      decide

theorem TypeRef.Spelling.firstWord_ne_label {type : TypeRef} {u : Text} (h : type.Spelling u)
    (hwf : type.WellFormed) (l : Label) : firstWord u ≠ l.word :=
  fun hl => h.firstWord_notMem hwf (hl ▸ l.word_mem_openingWords)

section
variable {rest t : Text}

theorem Ahead.last {c : Char} (h : Ahead rest [[c]] t) (hc : Solid [c] := by decide) :
    (Reader.next (Reader.mark c) t).result = some ((), rest) := by
  obtain ⟨r, hr, ha⟩ := h.mark hc
  cases ha
  exact hr

/-! ## statements -/

theorem statementLike_tokens {s : Statement} {us : List Text} (hs : s.Tokens us)
    (hwf : s.WellFormed) (h : Begins rest us t) :
    (statementLike s t).result = some (s, rest) := by
  cases hs with
  | language hu =>
    obtain ⟨t₁, h₁, ha⟩ := h.keyword
    obtain ⟨t₂, h₂, ha⟩ := ha.mark
    obtain ⟨t₃, h₃, ha⟩ := ha.string hu
    simp only [statementLike, language, result_named, result_bind, h₁, h₂, h₃, ha.last,
      Option.bind_some, result_pure]
  | edition hu =>
    obtain ⟨t₁, h₁, ha⟩ := h.keyword
    obtain ⟨t₂, h₂, ha⟩ := ha.mark
    obtain ⟨t₃, h₃, ha⟩ := ha.string hu
    simp only [statementLike, edition, result_named, result_bind, h₁, h₂, h₃, ha.last,
      Option.bind_some, result_pure]
  | package name =>
    obtain ⟨t₁, h₁, ha⟩ := h.keyword
    obtain ⟨t₂, h₂, ha⟩ := ha.fullIdent hwf (by simp) rfl
    simp only [statementLike, package, result_named, result_bind, h₁, h₂, ha.last,
      Option.bind_some, result_pure]
  | @importing path u modifier hu =>
    obtain ⟨t₁, h₁, ha⟩ := h.keyword
    obtain ⟨t₂, h₂, t₃, h₃, ha⟩ : ∃ t₂, (next (Reader.optional importModifier) t₁).result =
        some (modifier, t₂) ∧ ∃ t₃, (next Reader.string t₂).result = some (path, t₃) ∧
          Ahead rest [[';']] t₃ := by
      cases modifier with
      | none =>
        have hb := ha.skip hu.isString.solid
        refine ⟨(skip t₁).2, ?_, hb.ahead.string hu⟩
        rw [result_next, optional_of_none (importModifier_refuses ?_)]
        rw [hb.firstWord_eq hu.isString.solid.ne_nil, hu.firstWord_eq]
        intro m
        cases m <;> decide
      | some m =>
        obtain ⟨t₂, h₂, ha⟩ := (ha.skip m.isIdent_word.solid).importModifier
        exact ⟨t₂, by rw [result_next, optional_of_some h₂], ha.string hu⟩
    simp only [statementLike, importing, result_named, result_bind, h₁, h₂, h₃, ha.last,
      Option.bind_some, result_pure]
  | setting o =>
    obtain ⟨t₁, h₁, ha⟩ := h.keyword
    obtain ⟨t₂, h₂, ha⟩ := ha.assignment hwf (by decide)
    simp only [statementLike, setting, result_named, result_bind, h₁, h₂, ha.last,
      Option.bind_some, result_pure]
  | @field f type number htype hnumber =>
    obtain ⟨hname, _, htwf, hoptions⟩ := hwf
    obtain ⟨t₁, h₁, ha⟩ := h.optionalLabel (htype.isTypeRef htwf).solid.ne_nil
      (htype.firstWord_ne_label htwf)
    obtain ⟨t₂, h₂, ha⟩ := ha.typeRef (htype.isTypeRef htwf) hname.ne_nil hname.not_dot
    obtain ⟨t₃, h₃, ha⟩ := ha.ident hname
    obtain ⟨t₄, h₄, ha⟩ := ha.mark
    obtain ⟨t₅, h₅, ha⟩ := ha.fieldNumber hnumber
    obtain ⟨t₆, h₆, ha⟩ := ha.memberOptions hoptions (by decide) (by decide)
    simp only [statementLike, field, result_named, result_bind, h₁, h₂, h₃, h₄, h₅, h₆, ha.last,
      htype.ofWritten htwf, Option.bind_some, result_pure]
  | @mapField m key value number hkey hvalue hnumber =>
    obtain ⟨hname, _, hkwf, hvwf, hoptions⟩ := hwf
    obtain ⟨t₁, h₁, ha⟩ := h.keyword
    obtain ⟨t₂, h₂, ha⟩ := ha.mark
    obtain ⟨t₃, h₃, ha⟩ := ha.typeRef (hkey.isTypeRef hkwf) (by simp) rfl
    obtain ⟨t₄, h₄, ha⟩ := ha.mark
    obtain ⟨t₅, h₅, ha⟩ := ha.typeRef (hvalue.isTypeRef hvwf) (by simp) rfl
    obtain ⟨t₆, h₆, ha⟩ := ha.mark
    obtain ⟨t₇, h₇, ha⟩ := ha.ident hname
    obtain ⟨t₈, h₈, ha⟩ := ha.mark
    obtain ⟨t₉, h₉, ha⟩ := ha.fieldNumber hnumber
    obtain ⟨t₁₀, h₁₀, ha⟩ := ha.memberOptions hoptions (by decide) (by decide)
    simp only [statementLike, mapField, result_named, result_bind, h₁, h₂, h₃, h₄, h₅, h₆, h₇, h₈,
      h₉, h₁₀, ha.last, hkey.ofWritten hkwf, hvalue.ofWritten hvwf, Option.bind_some, result_pure]
  | @enumValue v number hnumber =>
    obtain ⟨hname, _, _, _, hoptions⟩ := hwf
    obtain ⟨t₁, h₁, ha⟩ := h.ident hname
    obtain ⟨t₂, h₂, ha⟩ := ha.mark
    obtain ⟨t₃, h₃, ha⟩ := ha.enumNumber hnumber
    obtain ⟨t₄, h₄, ha⟩ := ha.memberOptions hoptions (by decide) (by decide)
    simp only [statementLike, enumValue, result_named, result_bind, h₁, h₂, h₃, h₄, ha.last,
      Option.bind_some, result_pure]

end

/-! ## ranges -/

theorem RangeText.append {s t : Text} (hs : RangeText s) (ht : RangeText t) :
    RangeText (s ++ t) := by
  induction hs with
  | nil => exact ht
  | string hu _ ih =>
    rw [List.append_assoc]
    exact .string hu ih
  | char hc hq _ ih => exact .char hc hq ih

theorem RangeText.of_forall {u : Text} (hu : ∀ c ∈ u, c ≠ ';' ∧ isQuote c = false) :
    RangeText u := by
  induction u with
  | nil => exact .nil
  | cons c u ih =>
    rw [List.forall_mem_cons] at hu
    exact .char hu.1.1 hu.1.2 (ih hu.2)

theorem RangeText.of_blanks {b : Text} (hb : ∀ c ∈ b, isBlank c = true) : RangeText b := by
  refine .of_forall fun c hc => ?_
  have hne {d : Char} (hd : isBlank d = false) : (c == d) = false :=
    beq_false_of_class hd (hb c hc)
  refine ⟨beq_eq_false_iff_ne.1 (hne (by decide)), ?_⟩
  rw [isQuote, hne (by decide), hne (by decide)]
  rfl

theorem comment_of_not_opening {t : Text} (hline : ¬ ['/', '/'] <+: t)
    (hblock : ¬ ['/', '*'] <+: t) : Lexeme.comment t = none := by
  unfold Lexeme.comment
  split
  · exact absurd ⟨_, rfl⟩ hline
  · exact absurd ⟨_, rfl⟩ hblock
  · rfl

/-- A word that does not run on into a gap and ranges does not do so whatever follows them. -/
theorem Clear.append_ranges {w g r : Text} (h : Clear w (g ++ r)) (hne : r ≠ []) (t : Text) :
    Clear w (g ++ (r ++ t)) := by
  intro hw
  rw [← List.append_assoc, Text.starts_append (List.append_ne_nil_of_right_ne_nil g hne)]
  exact h hw

def Statement.withRanges : Statement → Text → Statement
  | .reserved _, r => .reserved r
  | .extensions _, r => .extensions r
  | s, _ => s

theorem Statement.rangeWord?_eq_some {s : Statement} {w r : Text} (h : s.rangeWord? = some (w, r)) :
    s = .reserved r ∧ w = Keyword.reserved.word ∨
      s = .extensions r ∧ w = Keyword.extensions.word := by
  cases s with
  | reserved r' =>
    cases h
    exact .inl ⟨rfl, rfl⟩
  | extensions r' =>
    cases h
    exact .inr ⟨rfl, rfl⟩
  | _ => simp [Statement.rangeWord?] at h

section
variable {rest t r b : Text}

theorem IsRanges.firm (h : IsRanges r) (hb : ∀ c ∈ b, isBlank c = true) :
    Firm (r ++ (b ++ ';' :: rest)) := by
  have hnext {x : Char} (hx : isBlank x = false) (hsemi : x ≠ ';') :
      (b ++ ';' :: rest).starts (· == x) = false := by
    cases b with
    | nil => simpa using hsemi.symm
    | cons c b => exact beq_false_of_class hx (hb c List.mem_cons_self)
  -- a slash at the end of the ranges is followed by a blank or the semicolon
  have hopens {x : Char} (hx : isBlank x = false) (hsemi : x ≠ ';') (hr : ¬ ['/', x] <+: r) :
      ¬ ['/', x] <+: r ++ (b ++ ';' :: rest) := by
    rintro ⟨s, hs⟩
    match r, h.ne_nil with
    | [c], _ =>
      simp only [List.cons_append, List.nil_append, List.cons.injEq] at hs
      have := hnext hx hsemi
      rw [← hs.2] at this
      simp at this
    | c :: d :: r, _ =>
      simp only [List.cons_append, List.nil_append, List.cons.injEq] at hs
      obtain ⟨rfl, rfl, -⟩ := hs
      exact hr ⟨r, rfl⟩
  refine ⟨by rw [Text.starts_append h.ne_nil]; exact h.not_space, ?_⟩
  exact comment_of_not_opening (hopens (by decide) (by decide) h.not_line)
    (hopens (by decide) (by decide) h.not_block)

theorem IsRanges.read (h : IsRanges r) (hb : ∀ c ∈ b, isBlank c = true) :
    (ranges (r ++ (b ++ ';' :: rest))).result = some (r, ';' :: rest) := by
  have hbody : Lexeme.rangeBody (r ++ b ++ ';' :: rest) = some (';' :: rest) :=
    rangeBody_append (h.text.append (.of_blanks hb)) (by simp [h.ne_nil]) rest
  rw [← List.append_assoc, ranges, result_bind, result_token, hbody]
  show some (Text.trim (Text.upTo (r ++ b ++ ';' :: rest) _), _) = _
  rw [Text.upTo_append, Text.trim_append_right hb, h.trimmed]

/-- A statement with ranges is read where its word stands, then the ranges, then a semicolon. -/
theorem statementLike_ranges {s : Statement} {w u : Text} (hs : s.rangeWord? = some (w, r))
    (hclear : Clear w t) (hread : (next ranges t).result = some (u, ';' :: rest)) :
    (statementLike s (w ++ t)).result = some (s.withRanges u, rest) := by
  have hword {k : Keyword} (hk : w = k.word) : (keyword k (w ++ t)).result = some ((), t) := by
    subst hk
    rw [keyword, result_bind, result_token, Lexeme.keyword, k.isIdent_word.wholeWord_append hclear]
    rfl
  have hlast : (next (mark ';') (';' :: rest)).result = some ((), rest) :=
    Ahead.last (.cons (u := [';']) .nil (fun h => absurd h (by decide)) .nil)
  rcases Statement.rangeWord?_eq_some hs with ⟨rfl, hk⟩ | ⟨rfl, hk⟩
  · simp only [statementLike, reserved, result_named, result_bind, hword hk, hread, hlast,
      Option.bind_some, result_pure, Statement.withRanges]
  · simp only [statementLike, extensions, result_named, result_bind, hword hk, hread, hlast,
      Option.bind_some, result_pure, Statement.withRanges]

/-- Where a statement is written, the reader of its kind reads it. -/
theorem statementLike_written {s : Statement} (h : s.Written t rest) (hwf : s.WellFormed) :
    (statementLike s t).result = some (s, rest) := by
  cases h with
  | tokens hs ht => exact statementLike_tokens hs hwf ht
  | @ranges word r gap b hs hgap hclear hb ht =>
    subst ht
    have hr : IsRanges r ∧ s.withRanges r = s := by
      rcases Statement.rangeWord?_eq_some hs with ⟨rfl, -⟩ | ⟨rfl, -⟩ <;> exact ⟨hwf, rfl⟩
    have hread : (next ranges (gap ++ (r ++ (b ++ ';' :: rest)))).result =
        some (r, ';' :: rest) := by
      rw [result_next, skip_gap hgap, skip_of_firm (hr.1.firm hb)]
      exact hr.1.read hb
    have hclear' := hclear.append_ranges hr.1.ne_nil (b ++ ';' :: rest)
    rw [statementLike_ranges hs hclear' hread, hr.2]

end

/-! ## headings -/

section
variable {rest t : Text}

theorem Begins.keyword_ident {k : Keyword} {name : Text} {us : List Text}
    (h : Begins rest (k.word :: name :: us) t) (hname : IsIdent name) :
    ∃ t₁ t₂, (Reader.keyword k t).result = some ((), t₁) ∧
      (Reader.next Reader.ident t₁).result = some (name, t₂) ∧ Ahead rest us t₂ := by
  obtain ⟨t₁, h₁, ha⟩ := h.keyword
  obtain ⟨t₂, h₂, ha⟩ := ha.ident hname
  exact ⟨t₁, t₂, h₁, h₂, ha⟩

/-- Where a heading is written, the reader of its kind reads it up to the mark behind it. -/
theorem headingLike_written {h : Heading} {us : List Text} {c : Char} (hs : h.Tokens us)
    (hwf : h.WellFormed) (ht : Begins rest (us ++ [[c]]) t) (hc : c = '{' ∨ c = ';') :
    ∃ r, (headingLike h t).result = some (h, r) ∧ Ahead rest [[c]] r := by
  cases hs with
  | message name =>
    obtain ⟨t₁, t₂, h₁, h₂, ha⟩ := Begins.keyword_ident ht hwf
    exact ⟨t₂, by simp only [headingLike, result_bind, h₁, h₂, Option.bind_some, result_pure], ha⟩
  | enum name =>
    obtain ⟨t₁, t₂, h₁, h₂, ha⟩ := Begins.keyword_ident ht hwf
    exact ⟨t₂, by simp only [headingLike, result_bind, h₁, h₂, Option.bind_some, result_pure], ha⟩
  | service name =>
    obtain ⟨t₁, t₂, h₁, h₂, ha⟩ := Begins.keyword_ident ht hwf
    exact ⟨t₂, by simp only [headingLike, result_bind, h₁, h₂, Option.bind_some, result_pure], ha⟩
  | oneof name =>
    obtain ⟨t₁, t₂, h₁, h₂, ha⟩ := Begins.keyword_ident ht hwf
    exact ⟨t₂, by simp only [headingLike, result_bind, h₁, h₂, Option.bind_some, result_pure], ha⟩
  | extend hu =>
    obtain ⟨t₁, h₁, ha⟩ := Begins.keyword ht
    obtain ⟨t₂, h₂, ha⟩ := ha.typeRef (hu.isTypeRef hwf) (by simp)
      (by rcases hc with rfl | rfl <;> rfl)
    refine ⟨t₂, ?_, ha⟩
    simp only [headingLike, result_bind, h₁, h₂, Option.bind_some, result_pure,
      hu.ofWritten_name hwf]
  | @method name input output us vs hus hvs =>
    obtain ⟨hname, hin, hout⟩ := hwf
    simp only [List.cons_append, List.append_assoc] at ht
    obtain ⟨t₁, t₂, h₁, h₂, ha⟩ := Begins.keyword_ident ht hname
    obtain ⟨t₃, h₃, ha⟩ := ha.side hus hin
    obtain ⟨t₄, h₄, ha⟩ := ha.keyword
    obtain ⟨t₅, h₅, ha⟩ := ha.side hvs hout
    refine ⟨t₅, ?_, ha⟩
    simp only [headingLike, result_bind, h₁, h₂, h₃, h₄, h₅, Option.bind_some, result_pure]
  | @group name number n label options hnumber =>
    obtain ⟨hname, _, hoptions⟩ := hwf
    simp only [List.cons_append, List.append_assoc] at ht
    obtain ⟨t₁, h₁, ha⟩ := Begins.optionalLabel ht (Keyword.isIdent_word _).ne_nil fun l => by
      cases l <;> decide
    obtain ⟨t₂, h₂, ha⟩ := ha.keyword
    obtain ⟨t₃, h₃, ha⟩ := ha.ident hname
    obtain ⟨t₄, h₄, ha⟩ := ha.mark
    obtain ⟨t₅, h₅, ha⟩ := ha.fieldNumber hnumber
    obtain ⟨t₆, h₆, ha⟩ := ha.memberOptions hoptions
      (by rcases hc with rfl | rfl <;> decide) (by rcases hc with rfl | rfl <;> decide)
    refine ⟨t₆, ?_, ha⟩
    simp only [headingLike, result_bind, h₁, h₂, h₃, h₄, h₅, h₆, Option.bind_some, result_pure]

end
end ProtoDocs
