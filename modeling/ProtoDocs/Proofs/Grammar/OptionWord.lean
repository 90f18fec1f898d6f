import ProtoDocs.Proofs.Grammar.Origin
import ProtoDocs.Proofs.Grammar.Rivals

/-!
# The word for options

Where options and fields may stand, options are tried first.  A statement that begins with the word
for options is still read as a field, with that word for its type, if it has options of its own in
brackets.

* `WordApart k t`      `t` begins with the word of `k`, apart from what comes next;
* `itemAt_option`      what a statement with the word for options in front is read as;
* `itemAt_option_field_iff`   when it is read as a field;
* `option_statement`   the statements of a file that begin with that word.
-/

namespace ProtoDocs

open Lexeme (isIdentChar)
open Reader

/-- The text begins with the word of the keyword, and a blank or a comment stands behind that. -/
def WordApart (k : Keyword) (t : Text) : Prop := ∃ v, t = k.word ++ v ∧ ¬Firm v

section
variable {k : Keyword} {q : Place} {t v r : Text} {e : Element} {f : Field}

theorem not_starts_of_gap {P : Char → Bool} (hv : ¬Firm v)
    (hP : ∀ c ∈ " \t\r\n\uFEFF/".toList, P c = false) : v.starts P = false := by
  rw [Bool.eq_false_iff]
  intro hstart
  have hfirm := (Solid.of_starts hstart hP).firm []
  rw [List.append_nil] at hfirm
  exact hv hfirm

theorem WordApart.firstWord (h : WordApart k t) : firstWord t = k.word := by
  obtain ⟨v, rfl, hv⟩ := h
  have hclear : Clear k.word v := clear_of_not_starts (not_starts_of_gap hv (by decide))
  exact (firstWord_append k.isIdent_word.ne_nil hclear).trans k.isIdent_word.firstWord_eq

/-! ## fields of that type -/

/-- Apart from what comes next, the word is all of the type. -/
theorem WordApart.field_type (hw : WordApart k t) (h : (field t).result = some (.field f, r)) :
    f.label = none ∧ f.type.name = k.word := by
  obtain ⟨hlabel, -, v₀, v, x, y, z, u, hkey, hv, -⟩ := field_word h hw.firstWord
  refine ⟨hlabel, ?_⟩
  rcases hv with ⟨-, hword⟩ | ⟨w, hdot, -⟩
  · exact hword
  · -- a dot behind the word is no gap
    obtain ⟨v', rfl, hgap⟩ := hw
    have hread := keyword_word (k := k) (not_starts_of_gap (P := isIdentChar) hgap (by decide))
    rw [hkey] at hread
    cases hread
    have hstart : v₀.starts (· == '.') = false := not_starts_of_gap hgap (by decide)
    rw [hdot] at hstart
    cases hstart

theorem type_eq_named_option (h : f.type.name = Keyword.option.word) :
    f.type = .named Keyword.option.word := by
  cases ht : f.type with
  | scalar s =>
    rw [ht] at h
    cases s <;> exact absurd h (by decide)
  | named n =>
    rw [ht] at h
    exact congrArg TypeRef.named h

/-! ## statements with the word in front -/

theorem statement_firstWord {s : Statement} (hs : s.keyword? = some k)
    (h : (statementLike s t).result = some (s, r)) : firstWord t = k.word := by
  by_contra hne
  have hnone := itemLedBy_refuses hne
  rw [itemLedBy_statement hs, ofStatement_of_some h] at hnone
  cases hnone

theorem block_firstWord {h : Heading} (hh : h.keyword? = some k)
    (hb : (blockLike h t).result = some (e, r)) : firstWord t = k.word := by
  by_contra hne
  have hnone := itemLedBy_refuses hne
  rw [itemLedBy_block hh, ofBlock_of_some hb] at hnone
  cases hnone

/-- With the word for options in front, an option is read, or else a field with that word for its
type and with options of its own. -/
theorem itemAt_option (hq : q = .message ∨ q = .oneof) (hw : WordApart .option t)
    (h : (itemAt q t).result = some (some e, r)) :
    (∃ s, e = .statement [] (.setting s)) ∨
      ∃ f, e = .statement [] (.field f) ∧ (field t).result = some (.field f, r) ∧
        f.label = none ∧ f.type = .named Keyword.option.word ∧ f.options ≠ [] := by
  have hfirst : firstWord t = Keyword.option.word := hw.firstWord
  cases itemAt_readsItems q t (some e) r h with
  | @statement s hp hs =>
    cases hk : s.keyword? with
    | some k =>
      obtain rfl : k = .option :=
        Keyword.word_injective ((statement_firstWord hk hs).symm.trans hfirst)
      cases s with
      | setting s => exact .inl ⟨s, rfl⟩
      | _ => cases hk
    | none =>
      cases s with
      | field f =>
        have hoption : Keyword.option ∈ q.keywords := by rcases hq with rfl | rfl <;> decide
        have hnone := setting_refuses_of_itemAt hoption h
        obtain ⟨hlabel, htype⟩ := hw.field_type hs
        refine .inr ⟨f, rfl, hs, hlabel, type_eq_named_option htype, ?_⟩
        exact ((setting_refuses_field hs hfirst).1 hnone).resolve_left fun hne => hne htype
      | enumValue v => rcases hq with rfl | rfl <;> cases hp
      | _ => cases hk
  | @block hd body hp hb =>
    cases hk : hd.keyword? with
    | some k =>
      obtain rfl : k = .option :=
        Keyword.word_injective ((block_firstWord hk hb).symm.trans hfirst)
      cases hd <;> cases hk
    | none =>
      cases hd with
      | group name number label options => cases firstWord_of_group hb hfirst
      | _ => cases hk

/-- Such a field is read wherever the statement can be taken for one. -/
theorem itemAt_option_field_iff (hq : q = .message ∨ q = .oneof) (hw : WordApart .option t) :
    (itemAt q t).result = some (some (.statement [] (.field f)), r) ↔
      (field t).result = some (.field f, r) ∧ f.options ≠ [] := by
  constructor
  · intro h
    rcases itemAt_option hq hw h with ⟨s, hs⟩ | ⟨f', hf, hread, -, -, hne⟩
    · cases hs
    · cases hf
      exact ⟨hread, hne⟩
  · rintro ⟨h, hne⟩
    have hnone := (setting_refuses_field h hw.firstWord).2 (.inr hne)
    refine itemAt_field (by rcases hq with rfl | rfl <;> rfl) h ?_ fun _ => hnone
    intro _ _ k hk
    rw [(hw.field_type h).2, Keyword.option.isIdent_word.firstWord_eq]
    revert k
    decide

end

/-! ## files -/

/-- **Statements that begin with the word for options.**  In the body of a message, a group or a
oneof, such a statement is an option, or else a field without label whose type is the word and that
has options in brackets.  It is such a field exactly if it can be read as a field with options in
brackets; without those, it is never a field. -/
theorem option_statement {source : Text} {es : List Element} {e : Element} {q : Place} {u : Text}
    (h : parse source = .ok es) (ho : Origin e q u .file source) (hq : q = .message ∨ q = .oneof)
    (hw : WordApart .option u) :
    Within e es ∧
      ((∃ s, e = .statement [] (.setting s)) ∨
        ∃ f, e = .statement [] (.field f) ∧ f.label = none ∧ f.type = .named Keyword.option.word ∧
          f.options ≠ []) ∧
      ((∃ f, e = .statement [] (.field f)) ↔
        ∃ f r, (field u).result = some (.field f, r) ∧ f.options ≠ []) := by
  obtain ⟨r, hitem⟩ := ho.item
  refine ⟨ho.within (parse_eq_ok.1 h), ?_, ?_⟩
  · exact (itemAt_option hq hw hitem).imp_right fun ⟨f, he, _, hf⟩ => ⟨f, he, hf⟩
  · constructor
    · rintro ⟨f, rfl⟩
      exact ⟨f, r, (itemAt_option_field_iff hq hw).1 hitem⟩
    · rintro ⟨f, r', hread⟩
      have hfield := (itemAt_option_field_iff hq hw).2 hread
      rw [hitem] at hfield
      cases hfield
      exact ⟨f, rfl⟩

/-- a message with a statement that could be an option, but for the brackets -/
def bracketText : Text := "message M\x7boption foo=1[a=b];\x7d".toList

def bracketField : Element :=
  .statement [] (.field ⟨"foo".toList, 1, .named "option".toList, none,
    [⟨⟨"a".toList, "b".toList⟩, []⟩]⟩)

def bracketFile : List Element := [.block [] (.message "M".toList) [bracketField]]

theorem parse_bracketText : parse bracketText = .ok bracketFile :=
  parse_eq_ok.2 (by decide +kernel)

theorem origin_bracketField :
    Origin bracketField .message "option foo=1[a=b];\x7d".toList .file bracketText := by
  have hskip : (skip bracketText).2 = bracketText := by decide +kernel
  have hmessage : (itemAt .file bracketText).result =
      some (some (.block [] (.message "M".toList) [bracketField]), []) := by decide +kernel
  have hheading : (headingLike (.message "M".toList) bracketText).result =
      some (.message "M".toList, "\x7boption foo=1[a=b];\x7d".toList) := by decide +kernel
  have hbrace : (skip "\x7boption foo=1[a=b];\x7d".toList).2 =
      '{' :: "option foo=1[a=b];\x7d".toList := by decide +kernel
  have hgap : (skip "option foo=1[a=b];\x7d".toList).2 = "option foo=1[a=b];\x7d".toList := by
    decide +kernel
  have hitem : (itemAt .message "option foo=1[a=b];\x7d".toList).result =
      some (some bracketField, "\x7d".toList) := by decide +kernel
  rw [← hskip] at hmessage hheading
  exact .inside hmessage hheading hbrace (.here hgap hitem)

theorem wordApart_bracketText : WordApart .option "option foo=1[a=b];\x7d".toList :=
  ⟨" foo=1[a=b];\x7d".toList, rfl, fun h => absurd h.1 (by decide)⟩

theorem option_statement_bracketText :
    parse bracketText = .ok bracketFile ∧ Within bracketField bracketFile ∧
      ∃ f, bracketField = .statement [] (.field f) ∧ f.type = .named Keyword.option.word ∧
        f.options ≠ [] := by
  obtain ⟨hwithin, hread, -⟩ := option_statement parse_bracketText origin_bracketField (.inl rfl)
    wordApart_bracketText
  refine ⟨parse_bracketText, hwithin, ?_⟩
  rcases hread with ⟨s, hs⟩ | ⟨f, hf, -, htype, hne⟩
  · cases hs
  · exact ⟨f, hf, htype, hne⟩

/-- Not every statement that begins with the word for options is read as an option: with brackets
behind a number, it is a field. -/
theorem not_forall_option_statement :
    ¬∀ (source : Text) (es : List Element) (e : Element) (q : Place) (u : Text),
      parse source = .ok es → Origin e q u .file source → q = .message ∨ q = .oneof →
        WordApart .option u → ∃ s, e = .statement [] (.setting s) := by
  intro hall
  obtain ⟨s, hs⟩ := hall _ _ _ _ _ parse_bracketText origin_bracketField (.inl rfl)
    wordApart_bracketText
  cases hs

end ProtoDocs
