import ProtoDocs.Proofs.Grammar.Gap
import ProtoDocs.Proofs.Markdown.LineComment
import ProtoDocs.Proofs.Markdown.Lines

/-!
# Layouts of block comments

The same texts may be written as a block comment in many ways: with one or two asterisks at the
opening, beginning on its line or below, with or without an asterisk in front of each line, with
blank lines and lines of one asterisk, and with line ends of either kind.  All of them are block
comments, and all of them are described by the texts.

* `LineText t`         the text `t` can stand on a line of a block comment;
* `LineOf o l`         the line `l` has the text `o` on it, or none;
* `LinesOf ts s`       line ends, and lines with the texts `ts` behind them;
* `BlockOf ts c`       the block comment `c` has the texts `ts`;
* `texts_linesOf`      what there is to read on such lines;
* `BlockOf.isBlockComment`   such a comment ends where it is meant to;
* `describe_block`     how it is described.
-/

namespace ProtoDocs

open Description

/-- a text that can stand on a line of a block comment, with or without an asterisk in front -/
structure LineText (t : Text) : Prop where
  ne_nil : t ≠ []
  tight : t.Tight
  noLineFeed : '\n' ∉ t
  noEnd : ¬['*', '/'] <:+: t
  noStar : ¬['*'] <+: t
  noSlash : ¬['/'] <+: t

theorem lineText_iff {t : Text} : LineText t ↔ t ≠ [] ∧ t.trim = t ∧ '\n' ∉ t ∧
    ¬['*', '/'] <:+: t ∧ ¬['*'] <+: t ∧ ¬['/'] <+: t :=
  ⟨fun h => ⟨h.ne_nil, h.tight.trim_eq, h.noLineFeed, h.noEnd, h.noStar, h.noSlash⟩,
    fun h => ⟨h.1, h.2.1 ▸ Text.trim_tight t, h.2.2.1, h.2.2.2.1, h.2.2.2.2.1, h.2.2.2.2.2⟩⟩

instance (t : Text) : Decidable (LineText t) := decidable_of_iff _ lineText_iff.symm

def Indent (s : Text) : Prop := ∀ c ∈ s, isBlank c = true ∧ c ≠ '\n'

instance (s : Text) : Decidable (Indent s) := inferInstanceAs (Decidable (∀ c ∈ s, _))

/-- a line without decoration, and the text on it if there is one -/
inductive BareLineOf : Option Text → Text → Prop
  | blank {s : Text} : Indent s → BareLineOf none s
  | text {s t e : Text} : Indent s → Indent e → BareLineOf (some t) (s ++ (t ++ e))

/-- a line, perhaps with an asterisk for decoration, and the text on it if there is one -/
inductive LineOf : Option Text → Text → Prop
  | bare {o : Option Text} {l : Text} : BareLineOf o l → LineOf o l
  | decorated {o : Option Text} {s l : Text} : Indent s → BareLineOf o l → LineOf o (s ++ '*' :: l)

/-- lines with a line end in front of each, and the texts on them -/
inductive LinesOf : List Text → Text → Prop
  | nil : LinesOf [] []
  | cons {e l s : Text} {o : Option Text} {ts : List Text} : IsBreak e → LineOf o l →
      LinesOf ts s → LinesOf (o.toList ++ ts) (e ++ (l ++ s))

/-- A block comment and the texts in it.  What stands on the line of the opening is not decorated;
the end stands behind the last of the lines, whatever is on it. -/
inductive BlockOf : List Text → Text → Prop
  | mk {opening l s : Text} {o : Option Text} {ts : List Text} :
      opening = "/*".toList ∨ opening = "/**".toList → BareLineOf o l → LinesOf ts s →
      BlockOf (o.toList ++ ts) (opening ++ (l ++ (s ++ "*/".toList)))

section
variable {o : Option Text} {l s : Text} {ts : List Text}

theorem Indent.isBlank (h : Indent s) : ∀ c ∈ s, isBlank c = true := fun c hc => (h c hc).1

theorem Indent.lineFeed_notMem (h : Indent s) : '\n' ∉ s := fun hn => (h _ hn).2 rfl

/-! ## what there is to read -/

theorem BareLineOf.trim_eq (h : BareLineOf o l) (ht : ∀ t ∈ o, LineText t) :
    l.trim = o.getD [] := by
  cases h with
  | blank hs => exact Text.trim_eq_nil_iff.2 hs.isBlank
  | text hs he =>
    rw [Text.trim_append_left hs.isBlank, Text.trim_append_right he.isBlank]
    exact (ht _ rfl).tight.trim_eq

theorem LineOf.undecorated_eq (h : LineOf o l) (ht : ∀ t ∈ o, LineText t) :
    undecorated l = o.getD [] := by
  cases h with
  | bare h =>
    have htrim := h.trim_eq ht
    rw [undecorated_of_not, htrim]
    rw [htrim]
    cases o with
    | none => exact fun hstar => absurd (List.prefix_nil.1 hstar) (by simp)
    | some t => exact (ht _ rfl).noStar
  | decorated hs h => rw [undecorated_star hs.isBlank, h.trim_eq ht]

/-- What is read on a line is the text on it. -/
theorem texts_eq_toList (ht : ∀ t ∈ o, LineText t) (h : undecorated l = o.getD []) :
    texts [l] = o.toList := by
  cases o with
  | none => exact texts_of_undecorated_nil h
  | some t => exact texts_of_undecorated h (ht _ rfl).ne_nil

theorem BareLineOf.lineFeed_notMem (h : BareLineOf o l) (ht : ∀ t ∈ o, LineText t) :
    '\n' ∉ l := by
  cases h with
  | blank hs => exact hs.lineFeed_notMem
  | text hs he =>
    rw [List.mem_append, List.mem_append]
    rintro (hn | hn | hn)
    · exact hs.lineFeed_notMem hn
    · exact (ht _ rfl).noLineFeed hn
    · exact he.lineFeed_notMem hn

theorem LineOf.lineFeed_notMem (h : LineOf o l) (ht : ∀ t ∈ o, LineText t) : '\n' ∉ l := by
  cases h with
  | bare h => exact h.lineFeed_notMem ht
  | decorated hs h =>
    rw [List.mem_append, List.mem_cons]
    rintro (hn | hn | hn)
    · exact hs.lineFeed_notMem hn
    · exact absurd hn (by decide)
    · exact h.lineFeed_notMem ht hn

/-- Behind a line, what there is to read are the texts on the others. -/
theorem texts_linesOf (h : LinesOf ts s) (ht : ∀ t ∈ ts, LineText t) (hl : '\n' ∉ l) :
    texts ((l ++ s).splitOn '\n') = texts [l] ++ ts := by
  induction h generalizing l with
  | nil => rw [List.append_nil, List.append_nil, List.splitOn_eq_singleton hl]
  | @cons e l' s o ts he hline _ ih =>
    have ho : ∀ t ∈ o, LineText t :=
      fun t hto => ht t (List.mem_append_left _ (Option.mem_toList.2 hto))
    have hrest := ih (fun t hts => ht t (List.mem_append_right _ hts)) (hline.lineFeed_notMem ho)
    rw [texts_eq_toList ho (hline.undecorated_eq ho)] at hrest
    rw [texts_break he hl, hrest]

/-! ## where a block ends -/

/-- no end of a block in the text, nor one that begins in front of it -/
def Inside (t : Text) : Prop := ¬['*', '/'] <:+: t ∧ ¬['/'] <+: t

theorem not_infix_append {t : Text} (hs : ¬['*', '/'] <:+: s) (ht : Inside t) :
    ¬['*', '/'] <:+: s ++ t := by
  induction s with
  | nil => exact ht.1
  | cons c s ih =>
    intro hend
    rcases List.infix_cons_iff.1 hend with ⟨u, hu⟩ | hend
    · cases s with
      | nil => exact ht.2 ⟨u, (List.cons.inj hu).2⟩
      | cons d s =>
        obtain ⟨rfl, hrest⟩ := List.cons.inj hu
        obtain ⟨rfl, -⟩ := List.cons.inj hrest
        exact hs ⟨[], s, rfl⟩
    · exact ih (fun h => hs (List.infix_cons h)) hend

theorem Inside.append {t : Text} (hs : Inside s) (ht : Inside t) : Inside (s ++ t) := by
  refine ⟨not_infix_append hs.1 ht, ?_⟩
  cases s with
  | nil => exact ht.2
  | cons c s =>
    rintro ⟨u, hu⟩
    exact hs.2 ⟨s, by rw [← (List.cons.inj hu).1]; rfl⟩

theorem Inside.of_noSlash (h : '/' ∉ s) : Inside s :=
  ⟨fun hend => h (hend.subset (by decide)), fun hslash => h (hslash.subset (by decide))⟩

theorem Indent.inside (h : Indent s) : Inside s :=
  .of_noSlash fun hslash => absurd (h.isBlank _ hslash) (by decide)

theorem LineText.inside {t : Text} (h : LineText t) : Inside t := ⟨h.noEnd, h.noSlash⟩

theorem IsBreak.inside (h : IsBreak s) : Inside s := by
  rcases h with rfl | rfl <;> exact .of_noSlash (by decide)

theorem BareLineOf.inside (h : BareLineOf o l) (ht : ∀ t ∈ o, LineText t) : Inside l := by
  cases h with
  | blank hs => exact hs.inside
  | text hs he => exact hs.inside.append ((ht _ rfl).inside.append he.inside)

theorem LineOf.inside (h : LineOf o l) (ht : ∀ t ∈ o, LineText t) : Inside l := by
  cases h with
  | bare h => exact h.inside ht
  | decorated hs h =>
    have hstar : Inside ['*'] := .of_noSlash (by decide)
    exact hs.inside.append (hstar.append (h.inside ht))

theorem LinesOf.inside (h : LinesOf ts s) (ht : ∀ t ∈ ts, LineText t) : Inside s := by
  induction h with
  | nil => exact .of_noSlash List.not_mem_nil
  | cons he hline _ ih =>
    have hl := hline.inside fun t hto => ht t (List.mem_append_left _ (Option.mem_toList.2 hto))
    exact he.inside.append (hl.append (ih fun t hts => ht t (List.mem_append_right _ hts)))

end

/-! ## whole comments -/

section
variable {ts : List Text} {c : Text}

/-- Between its opening and its end, a block comment has its first line, perhaps behind one more
asterisk, and the other lines. -/
theorem BlockOf.exists_body (h : BlockOf ts c) (ht : ∀ t ∈ ts, LineText t) :
    ∃ b, c = "/*".toList ++ (b ++ "*/".toList) ∧ Inside b ∧ texts (b.splitOn '\n') = ts := by
  cases h with
  | @mk opening l s o ts hopening hl hs =>
    have ho : ∀ t ∈ o, LineText t :=
      fun t hto => ht t (List.mem_append_left _ (Option.mem_toList.2 hto))
    have hts : ∀ t ∈ ts, LineText t := fun t h => ht t (List.mem_append_right _ h)
    have hinside : Inside (l ++ s) := (hl.inside ho).append (hs.inside hts)
    have hline := hl.lineFeed_notMem ho
    rcases hopening with rfl | rfl
    · refine ⟨l ++ s, by rw [List.append_assoc], hinside, ?_⟩
      rw [texts_linesOf hs hts hline, texts_eq_toList ho ((LineOf.bare hl).undecorated_eq ho)]
    · have hstar : Inside ['*'] := .of_noSlash (by decide)
      have hstarred : LineOf o ('*' :: l) :=
        .decorated (s := []) (fun x hx => absurd hx List.not_mem_nil) hl
      refine ⟨'*' :: l ++ s, by simp, hstar.append hinside, ?_⟩
      rw [texts_linesOf hs hts (hstarred.lineFeed_notMem ho),
        texts_eq_toList ho (hstarred.undecorated_eq ho)]

theorem BlockOf.isBlockComment (h : BlockOf ts c) (ht : ∀ t ∈ ts, LineText t) :
    IsBlockComment c := by
  obtain ⟨b, rfl, hinside, -⟩ := h.exists_body ht
  exact ⟨b, rfl, hinside.1⟩

/-- What is shown of a text, said with the marks of directives. -/
theorem shown_eq_ite (t : Text) : shown t = if ∃ d ∈ directives, d <+: t then [] else t := by
  by_cases h : ∃ d ∈ directives, d <+: t
  · rw [shown_of_isDirective (isDirective_iff.2 h), if_pos h]
  · rw [if_neg h]
    by_cases hne : t = []
    · rw [hne]
      rfl
    · exact shown_of_ne_nil hne (Bool.eq_false_iff.2 fun hd => h (isDirective_iff.1 hd))

/-- **The layout of a block comment does not matter.**  However the texts are laid out, this is a
block comment, and the description is these texts with a space between, or nothing if that begins
with the mark of a directive. -/
theorem describe_block (h : BlockOf ts c) (ht : ∀ t ∈ ts, LineText t) :
    IsBlockComment c ∧ describe [c] =
      if ∃ d ∈ directives, d <+: Text.join [' '] ts then [] else Text.join [' '] ts := by
  refine ⟨h.isBlockComment ht, ?_⟩
  obtain ⟨b, rfl, -, htexts⟩ := h.exists_body ht
  rw [describe_singleton, plain_block, htexts, shown_eq_ite]

end

def mixedTexts : List Text := ["One.".toList, "Two: a*b.".toList, "Three/".toList, "4".toList]

/-- them in a comment with two asterisks at its opening, both kinds of line ends, a line of one asterisk,
a blank line, decorations with and without blanks behind, and the end behind the last text -/
def mixedBlock : Text := "/** One.\r\n\t*\r\n \n  *Two: a*b. \n*  \u3000Three/\n  4*/".toList

theorem mixedBlock_blockOf : BlockOf mixedTexts mixedBlock := by
  have hone : BareLineOf (some "One.".toList) " One.".toList :=
    .text (s := [' ']) (e := []) (by decide) (by decide)
  have hstar : LineOf none "\t*".toList :=
    .decorated (s := ['\t']) (l := []) (by decide) (.blank (by decide))
  have hblank : LineOf none " ".toList := .bare (.blank (by decide))
  have htwo : LineOf (some "Two: a*b.".toList) "  *Two: a*b. ".toList :=
    .decorated (s := [' ', ' ']) (by decide)
      (.text (s := []) (t := "Two: a*b.".toList) (e := [' ']) (by decide) (by decide))
  have hthree : LineOf (some "Three/".toList) "*  \u3000Three/".toList :=
    .decorated (s := []) (by decide)
      (.text (s := [' ', ' ', '\u3000']) (e := []) (by decide) (by decide))
  have hfour : LineOf (some "4".toList) "  4".toList :=
    .bare (.text (s := [' ', ' ']) (e := []) (by decide) (by decide))
  exact .mk (.inr rfl) hone (.cons (.inr rfl) hstar (.cons (.inr rfl) hblank (.cons (.inl rfl) htwo
    (.cons (.inl rfl) hthree (.cons (.inl rfl) hfour .nil)))))

theorem describe_block_mixedBlock : (∀ t ∈ mixedTexts, LineText t) ∧
    BlockOf mixedTexts mixedBlock ∧ IsBlockComment mixedBlock ∧
    describe [mixedBlock] = "One. Two: a*b. Three/ 4".toList :=
  have ht : ∀ t ∈ mixedTexts, LineText t := by decide
  have h := describe_block mixedBlock_blockOf ht
  ⟨ht, mixedBlock_blockOf, h.1, h.2.trans (by decide)⟩

end ProtoDocs
