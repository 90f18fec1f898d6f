import ProtoDocs.Proofs.Grammar.Choice
import ProtoDocs.Proofs.Grammar.Printing

/-!
# Reading undoes writing

Elements that are written in a row, in any layout and with any spellings, are read back as they are.

* `items_written`   the elements of a body or a file, up to where they end;
* `parse_written`   a file.
-/

namespace ProtoDocs

open Reader

/-- A block is read where its heading is written, if its body is read. -/
theorem blockLike_written {h : Heading} {us : List Text} {es : List Element}
    {t inside u : Text} (hs : h.Tokens us) (hwf : h.WellFormed)
    (ht : Begins inside (us ++ [['{']]) t)
    (hbody : (items (itemAt h.place) inside).result = some (es, '}' :: u)) :
    (blockLike h t).result = some (.block [] h es, u) := by
  obtain ⟨r, hr, ha⟩ := headingLike_written hs hwf ht (.inl rfl)
  obtain ⟨v, hv, _, hrest⟩ := ha.skip (by decide)
  cases hrest
  have hread : (bodyOf h ('{' :: inside)).result = some (es, u) :=
    bodyOf_eq_some.2 (.inl ⟨inside, rfl, hbody⟩)
  exact blockLike_eq_some.2 ⟨h, es, r, hr, by rwa [hv], rfl⟩

/-- A method is read where its heading and a semicolon are written. -/
theorem blockLike_bare {h : Heading} {us : List Text} {t u : Text} (hmethod : h.isMethod)
    (hs : h.Tokens us) (hwf : h.WellFormed) (ht : Begins u (us ++ [[';']]) t) :
    (blockLike h t).result = some (.block [] h [], u) := by
  obtain ⟨r, hr, ha⟩ := headingLike_written hs hwf ht (.inr rfl)
  obtain ⟨v, hv, _, hrest⟩ := ha.skip (by decide)
  cases hrest
  have hread : (bodyOf h (';' :: u)).result = some ([], u) :=
    bodyOf_eq_some.2 (.inr ⟨hmethod, rfl, rfl⟩)
  exact blockLike_eq_some.2 ⟨h, [], r, hr, by rwa [hv], rfl⟩

/-- Elements in a row are read up to where they end. -/
theorem items_written {p : Place} {es : List Element} {t rest : Text} (h : Written es t rest)
    (hwf : WellFormed p es) (hstop : Stop rest) :
    (items (itemAt p) t).result = some (es, rest) := by
  induction h generalizing p with
  | nil => exact items_nil hstop.firm (itemAt_stop p hstop)
  | @filler c es t rest hc _ ih =>
    have hes := ih hwf hstop
    rw [isFiller, Bool.or_eq_true] at hc
    rcases hc with hc | hc
    · rwa [items_space hc]
    · obtain rfl : c = ';' := by simpa using hc
      exact items_cons (Solid.firm (u := [';']) (by decide) t) (itemAt_semicolon p t) hes
  | comment hc _ ih =>
    cases hwf with
    | comment _ hwf => exact items_comment hc (ih hwf hstop)
  | statement hs _ ih =>
    cases hwf with
    | statement hp hs' hwf =>
      exact items_cons (hs.firm hs') (itemAt_statement hp hs hs') (ih hwf hstop)
  | block hs ht hbody _ ihbody ih =>
    cases hwf with
    | block hp hh hwfbody hwf =>
      have hread := blockLike_written hs hh ht (ihbody hwfbody (.inr ⟨_, rfl⟩))
      exact items_cons (hs.firm ht) (itemAt_block hp hs ht hread) (ih hwf hstop)
  | bare hmethod hs ht _ ih =>
    cases hwf with
    | block hp hh _ hwf =>
      have hread := blockLike_bare hmethod hs hh ht
      exact items_cons (hs.firm ht) (itemAt_block hp hs ht hread) (ih hwf hstop)

/-- **Reading undoes writing.**  Well-formed elements can be written, and whatever their layout and
spellings, a file with that text consists of just these elements. -/
theorem parse_written {es : List Element} (hwf : WellFormed .file es) :
    (∃ source, Written es source []) ∧ ∀ source, Written es source [] → parse source = .ok es :=
  ⟨exists_written hwf [], fun _ h => parse_eq_ok.2 (items_written h hwf (.inl rfl))⟩

/-! ## a file -/

def sampleField : Field := ⟨"x".toList, 31, .named "a.B".toList, some .optional, []⟩

def sampleFile : List Element :=
  [.comment "/*a*/".toList, .block [] (.message "M".toList) [.statement [] (.field sampleField)]]

def sampleText : Text := "/*a*/message M\x7boptional.a.B x=0x1F;;\x7d".toList

theorem sampleFile_wellFormed : WellFormed .file sampleFile := by
  have hname : IsIdent "x".toList := ⟨'x', [], rfl, by decide, by decide⟩
  have htype : IsFullIdent "a.B".toList :=
    .dot (u := ['a']) ⟨'a', [], rfl, by decide, by decide⟩
      (.one ⟨'B', [], rfl, by decide, by decide⟩)
  refine .comment (.inr ⟨['a'], rfl, by decide⟩) (.block rfl ?_ ?_ (.nil _))
  · exact ⟨'M', [], rfl, by decide, by decide⟩
  · refine .statement rfl ⟨hname, by decide, ⟨htype, by decide, by decide⟩, ?_⟩ (.nil _)
    intro s hs
    simp [sampleField] at hs

theorem sampleFile_written :
    Written sampleFile sampleText [] := by
  have hnumber : SpellsNatural 31 "0x1F".toList :=
    ⟨.inr ⟨'x', "1F".toList, rfl, .inl rfl, by decide, by decide⟩, by decide⟩
  have hfield : (Statement.field sampleField).Written "optional.a.B x=0x1F;;\x7d".toList
      ";\x7d".toList := by
    refine .tokens (.field (f := sampleField) (.inr rfl) hnumber) ?_
    exact ⟨".a.B x=0x1F;;\x7d".toList, rfl, by decide,
      .cons (u := ".a.B".toList) (t := " x=0x1F;;\x7d".toList) .nil (by decide)
        (.cons (g := [' ']) (u := "x".toList) (t := "=0x1F;;\x7d".toList) (.space rfl .nil)
          (by decide)
          (.cons (u := ['=']) (t := "0x1F;;\x7d".toList) .nil (by decide)
            (.cons (u := "0x1F".toList) (t := ";;\x7d".toList) .nil (by decide)
              (.cons (u := [';']) (t := ";\x7d".toList) .nil (by decide) .nil))))⟩
  have hmessage : Begins "optional.a.B x=0x1F;;\x7d".toList ["message".toList, "M".toList, ['{']]
      "message M\x7boptional.a.B x=0x1F;;\x7d".toList :=
    ⟨" M\x7boptional.a.B x=0x1F;;\x7d".toList, rfl, by decide,
      .cons (g := [' ']) (u := "M".toList) (t := "\x7boptional.a.B x=0x1F;;\x7d".toList)
        (.space rfl .nil) (by decide)
        (.cons (u := ['{']) (t := "optional.a.B x=0x1F;;\x7d".toList) .nil (by decide) .nil)⟩
  exact .comment (c := "/*a*/".toList) (.inr ⟨['a'], rfl, by decide⟩)
    (.block (.message "M".toList) hmessage (.statement hfield (.filler rfl .nil)) .nil)

theorem parse_written_sampleFile :
    WellFormed .file sampleFile ∧
      parse sampleText = .ok sampleFile :=
  ⟨sampleFile_wellFormed, (parse_written sampleFile_wellFormed).2 _ sampleFile_written⟩

end ProtoDocs
