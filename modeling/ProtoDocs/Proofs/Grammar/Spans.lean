import ProtoDocs.Proofs.Grammar.Reading
import ProtoDocs.Proofs.Grammar.Written

/-!
# Nothing is lost in reading

A schema file is taken up by its elements: in order, each on a stretch of its own, with nothing but
blanks and semicolons between them.  So is what stands between the braces of each block.

* `Spans es text rest`   the elements `es` take up `text`, where `rest` follows;
* `items_spans`          the items in a row do;
* `parse_spans`          a file does.
-/

namespace ProtoDocs

open Lexeme Reader

/-- The elements take up `text`, where `rest` follows.  A comment is its own text.  A statement
takes up what the reader of its kind reads there.  A block takes up what its reader reads: a
heading, a gap, and between braces what its elements take up; a method may have a semicolon instead
of the braces. -/
inductive Spans : List Element → Text → Text → Prop
  | nil {rest : Text} : Spans [] [] rest
  | filler {c : Char} {es : List Element} {text rest : Text} :
      isFiller c = true → Spans es text rest → Spans es (c :: text) rest
  | comment {c : Text} {es : List Element} {text rest : Text} :
      CommentBefore c (text ++ rest) → Spans es text rest →
      Spans (.comment c :: es) (c ++ text) rest
  | statement {s : Statement} {span : Text} {es : List Element} {text rest : Text} :
      (statementLike s (span ++ (text ++ rest))).result = some (s, text ++ rest) →
      Spans es text rest → Spans (.statement [] s :: es) (span ++ text) rest
  | block {h : Heading} {head gap inside : Text} {body es : List Element} {text rest : Text} :
      (headingLike h (head ++ (gap ++ '{' :: (inside ++ '}' :: (text ++ rest))))).result =
        some (h, gap ++ '{' :: (inside ++ '}' :: (text ++ rest))) →
      Gap gap →
      (blockLike h (head ++ (gap ++ '{' :: (inside ++ '}' :: (text ++ rest))))).result =
        some (.block [] h body, text ++ rest) →
      Spans body inside ('}' :: (text ++ rest)) → Spans es text rest →
      Spans (.block [] h body :: es) (head ++ (gap ++ '{' :: (inside ++ '}' :: text))) rest
  | bare {h : Heading} {head gap : Text} {es : List Element} {text rest : Text} :
      h.isMethod →
      (headingLike h (head ++ (gap ++ ';' :: (text ++ rest)))).result =
        some (h, gap ++ ';' :: (text ++ rest)) →
      Gap gap →
      (blockLike h (head ++ (gap ++ ';' :: (text ++ rest)))).result =
        some (.block [] h [], text ++ rest) →
      Spans es text rest → Spans (.block [] h [] :: es) (head ++ (gap ++ ';' :: text)) rest

namespace Spans

theorem fillers {s : Text} (hs : ∀ c ∈ s, isSpace c = true) {es : List Element} {text rest : Text}
    (h : Spans es text rest) : Spans es (s ++ text) rest := by
  induction s with
  | nil => exact h
  | cons c s ih =>
    refine .filler ?_ (ih fun d hd => hs d (List.mem_cons_of_mem c hd))
    simp [isFiller, hs c List.mem_cons_self]

theorem of_skip {t : Text} {es : List Element} {text rest : Text} (ht : (skip t).2 = text ++ rest)
    (h : Spans es text rest) :
    ∃ text', t = text' ++ rest ∧ Spans ((skip t).1.map .comment ++ es) text' rest := by
  fun_induction skip t with
  | case1 t hc =>
    obtain ⟨s, hs, hst⟩ := exists_pastSpace t
    exact ⟨s ++ text, by rw [List.append_assoc, ← ht, ← hst], fillers hs h⟩
  | case2 t r hc comments u heq ih =>
    rw [heq] at ih
    obtain ⟨text', hr, h'⟩ := ih ht
    obtain ⟨s, hs, hst⟩ := exists_pastSpace t
    obtain ⟨c, hcr, hc'⟩ := comment_eq_some_iff.1 hc
    rw [hcr, Text.upTo_append]
    refine ⟨s ++ (c ++ text'), ?_, fillers hs (.comment (hr ▸ hc') h')⟩
    rw [List.append_assoc, List.append_assoc, ← hr, ← hcr, ← hst]

end Spans

/-- What is read takes up the text that it is read off. -/
theorem Reading.spans {p : Place} {t r : Text} {es : List Element} (h : Reading p t es r) :
    ∃ text, t = text ++ r ∧ Spans es text r := by
  induction h with
  | @stop p t _ =>
    have hskip : (skip t).2 = [] ++ (skip t).2 := rfl
    simpa using Spans.of_skip hskip .nil
  | @empty p t u r es hsemi _ ih =>
    obtain ⟨text, hu, hes⟩ := ih
    have ht : (skip t).2 = (';' :: text) ++ r := by rw [hsemi, hu]; rfl
    exact Spans.of_skip ht (.filler rfl hes)
  | @statement p s t u r es _ hs _ ih =>
    obtain ⟨text, hu, hes⟩ := ih
    obtain ⟨span, hspan⟩ := Leaves.suffix hs
    have ht : (skip t).2 = (span ++ text) ++ r := by rw [← hspan, hu, List.append_assoc]
    rw [← hspan, hu] at hs
    exact Spans.of_skip ht (.statement hs hes)
  | @block p h t v w u r body es _ hh hb hw _ _ ihbody ih =>
    obtain ⟨text, hu, hes⟩ := ih
    obtain ⟨inside, hinside, hspans⟩ := ihbody
    obtain ⟨head, hhead⟩ := Leaves.suffix hh
    obtain ⟨gap, hgap, hvgap⟩ := exists_gap (t := v) (by simp [hw])
    have hv : v = gap ++ '{' :: (inside ++ '}' :: (text ++ r)) := by rw [hvgap, hw, hinside, hu]
    have ht : (skip t).2 = head ++ (gap ++ '{' :: (inside ++ '}' :: (text ++ r))) := by
      rw [← hhead, hv]
    have ht' : (skip t).2 = (head ++ (gap ++ '{' :: (inside ++ '}' :: text))) ++ r := by simp [ht]
    rw [ht, hv] at hh
    rw [ht, hu] at hb
    rw [hu] at hspans
    exact Spans.of_skip ht' (.block hh hgap hb hspans hes)
  | @bare p h t v u r es _ hmethod hh hb hw _ ih =>
    obtain ⟨text, hu, hes⟩ := ih
    obtain ⟨head, hhead⟩ := Leaves.suffix hh
    obtain ⟨gap, hgap, hvgap⟩ := exists_gap (t := v) (by simp [hw])
    have hv : v = gap ++ ';' :: (text ++ r) := by rw [hvgap, hw, hu]
    have ht : (skip t).2 = head ++ (gap ++ ';' :: (text ++ r)) := by rw [← hhead, hv]
    have ht' : (skip t).2 = (head ++ (gap ++ ';' :: text)) ++ r := by simp [ht]
    rw [ht, hv] at hh
    rw [ht, hu] at hb
    exact Spans.of_skip ht' (.bare hmethod hh hgap hb hes)

theorem items_spans {p : Place} {t r : Text} {es : List Element}
    (h : (items (itemAt p) t).result = some (es, r)) : ∃ text, t = text ++ r ∧ Spans es text r :=
  (items_reading h).spans

/-- **Nothing is lost, doubled or reordered in reading.**  The elements of a file take up all of it,
and those of each block what stands between its braces. -/
theorem parse_spans {source : Text} {es : List Element} (h : parse source = .ok es) :
    Spans es source [] := by
  obtain ⟨text, ht, hes⟩ := items_spans (parse_eq_ok.1 h)
  rw [List.append_nil] at ht
  rwa [ht]

theorem parse_spans_sampleFile :
    parse sampleText = .ok sampleFile ∧ Spans sampleFile sampleText [] :=
  have h := parse_eq_ok.2 (items_written sampleFile_written sampleFile_wellFormed (.inl rfl))
  ⟨h, parse_spans h⟩

end ProtoDocs
