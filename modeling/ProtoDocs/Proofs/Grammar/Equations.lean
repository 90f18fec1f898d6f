import ProtoDocs.Proofs.Grammar.Rules

/-!
# Recognisers and readers obey the grammar

Behind each rule, the recogniser or reader leaves what is left by the phrase of the rule.  Most of
this is seen by taking both apart; what is left to show are the lexemes that are not written in the
way of their phrases.

* `Rule.scan_commentForm`, `Rule.scan_stringLit`   comments and strings;
* `Rule.scan_aggregate`, `Rule.scan_listValue`     bracketed text;
* `Rule.scan_eq`     every rule is recognised by its phrase.
-/

namespace ProtoDocs.Rule

open Phrase Lexeme

attribute [local simp] body scan

/-! ## comments and strings -/

theorem isSome_newline (t : Text) : (newline.scan scan t).isSome = t.starts isLineEnd := by
  cases t with
  | nil => rfl
  | cons c t =>
    have hnil (u : Text) : Scan.word [] u = some u := rfl
    simp only [newline, choice, Phrase.scan, Scan.or, Scan.word_cons, hnil, Text.starts_cons]
    by_cases hn : '\n' = c
    · subst hn
      rfl
    by_cases hr : '\r' = c
    · subst hr
      simp [isLineEnd]
    · simp [hn, hr, isLineEnd, Ne.symm hn, Ne.symm hr]

/-- A block ends at the first asterisk with a slash behind it. -/
theorem pastBlockEnd_eq :
    pastBlockEnd = (Scan.many (Scan.unlike (Scan.word ['*', '/']))).seq (Scan.word ['*', '/']) := by
  funext t
  show _ = Scan.word ['*', '/'] (Scan.rest (Scan.unlike (Scan.word ['*', '/'])) t)
  induction t using pastBlockEnd.induct with
  | case1 t =>
    have hend : Scan.unlike (Scan.word ['*', '/']) ('*' :: '/' :: t) = none := rfl
    rw [Scan.rest_of_none hend]
    rfl
  | case2 c t hne ih =>
    have hword : Scan.word ['*', '/'] (c :: t) = none := by
      refine Scan.word_eq_none fun r hr => ?_
      obtain ⟨rfl, rfl⟩ := List.cons.inj hr
      exact hne r rfl rfl
    rw [Scan.rest_of_shorter (Scan.unlike_of_none hword) (Nat.lt_succ_self _),
      pastBlockEnd.eq_2 _ _ hne, ih]
  | case3 =>
    rw [Scan.rest_of_none rfl]
    rfl

theorem scan_commentForm : Lexeme.comment = commentForm.scan scan := by
  have hline : Scan.unlike (newline.scan scan) = Scan.char fun c => !isLineEnd c :=
    Scan.unlike_eq_char isSome_newline
  simp only [commentForm, choice, row, Phrase.scan, scan_unlike, hline, Scan.many_char,
    ← pastBlockEnd_eq]
  funext t
  unfold Lexeme.comment
  split
  · rfl
  · rfl
  · rename_i hline hblock
    rw [Scan.or_of_none (Scan.seq_of_none (Scan.word_eq_none hline) _),
      Scan.seq_of_none (Scan.word_eq_none hblock)]

/-- A string ends at the first quote that no backslash stands in front of. -/
theorem pastQuote_eq {q : Char} (hq : q ≠ '\\') : pastQuote q =
    (Scan.many (((Scan.char (· == '\\')).seq (Scan.char fun _ => true)).or
      (Scan.char fun c => !(c == q || c == '\\' || isLineEnd c)))).seq (Scan.char (· == q)) := by
  generalize hitem : ((Scan.char (· == '\\')).seq (Scan.char fun _ => true)).or
      (Scan.char fun c => !(c == q || c == '\\' || isLineEnd c)) = item
  funext t
  show _ = Scan.char (· == q) (Scan.rest item t)
  have hback (c : Char) (t : Text) : item ('\\' :: c :: t) = some t := by
    subst hitem
    rfl
  have hplain {c : Char} (hc : c ≠ '\\') (t : Text) :
      item (c :: t) = if c = q ∨ isLineEnd c = true then none else some t := by
    subst hitem
    rw [Scan.or_of_none (Scan.seq_of_none (by simp [Scan.char, hc]) _)]
    by_cases hstop : c = q ∨ isLineEnd c = true
    · rw [if_pos hstop]
      rcases hstop with rfl | hend
      · simp [Scan.char]
      · simp [Scan.char, hend]
    · rw [if_neg hstop]
      rw [not_or] at hstop
      simp [Scan.char, hc, hstop]
  induction t using pastQuote.induct (q := q) with
  | case1 =>
    have hnil : item [] = none := by
      subst hitem
      rfl
    rw [Scan.rest_of_none hnil]
    rfl
  | case2 c t ih =>
    rw [Scan.rest_of_shorter (hback c t) (by simp), pastQuote, ih]
  | case3 t hesc =>
    rw [Scan.rest_of_none (by simp [hplain hq]), pastQuote.eq_3 q _ _ hesc, if_pos rfl]
    simp [Scan.char]
  | case4 c t hesc hne hend =>
    have hnone : item (c :: t) = none := by
      by_cases hc : c = '\\'
      · -- the backslash is the last character
        cases t with
        | nil =>
          subst hc hitem
          have hback : (Scan.char (· == '\\')).seq (Scan.char fun _ => true) ['\\'] = none := rfl
          rw [Scan.or_of_none hback]
          simp [Scan.char]
        | cons d t => exact absurd rfl (hesc d t hc)
      · simp_all
    rw [pastQuote.eq_3 q _ _ hesc, if_neg hne, if_pos hend, Scan.rest_of_none hnone]
    simp [Scan.char, hne]
  | case5 c t hesc hne hend ih =>
    rw [Bool.or_eq_true, not_or, decide_eq_true_eq] at hend
    have hone : item (c :: t) = some t := by
      rw [hplain hend.1, if_neg (by simp [hne, hend.2])]
    rw [pastQuote.eq_3 q _ _ hesc, if_neg hne, if_neg (by simp [hend]), ih,
      Scan.rest_of_shorter hone (Nat.lt_succ_self _)]

theorem scan_stringLit : (named .stringLit).scan = (body (named .stringLit)).scan scan := by
  have hplain (q : Char) : Scan.unlike ((choice [mark q, mark '\\', newline]).scan scan) =
      Scan.char fun c => !(c == q || c == '\\' || isLineEnd c) := by
    refine Scan.unlike_eq_char fun t => ?_
    simp only [choice, mark, Phrase.scan, Scan.or, Option.isSome_or, isSome_newline,
      Scan.isSome_char]
    cases t with
    | nil => rfl
    | cons c t => simp only [Text.starts_cons, Bool.or_assoc]
  have hquoted {q : Char} (hq : q ≠ '\\') :
      (quoted q).scan scan = (Scan.char (· == q)).seq (pastQuote q) := by
    rw [pastQuote_eq hq, ← hplain]
    rfl
  show Lexeme.stringLit = ((quoted '"').scan scan).or ((quoted '\x27').scan scan)
  rw [hquoted (by decide), hquoted (by decide)]
  funext t
  cases t with
  | nil => rfl
  | cons c t =>
    by_cases hdouble : c = '"'
    · subst hdouble
      exact Option.or_none.symm
    by_cases hsingle : c = '\x27'
    · subst hsingle
      rfl
    · have hnone {q : Char} (hq : c ≠ q) :
          (Scan.char (· == q)).seq (pastQuote q) (c :: t) = none :=
        Scan.seq_of_none (by simp [Scan.char, hq]) _
      rw [Scan.or_of_none (hnone hdouble), hnone hsingle]
      simp [Lexeme.stringLit, isQuote, hdouble, hsingle]

/-! ## bracketed text -/

/-- Between brackets, it only matters what the parts are on shorter texts. -/
theorem bracketed_congr {p q : Scan} (hp : p.Leaves) {o c : Char} {t : Text}
    (h : ∀ u : Text, u.length < t.length → p u = q u) :
    (Scan.char (· == o)).seq ((Scan.many p).seq (Scan.char (· == c))) t =
      (Scan.char (· == o)).seq ((Scan.many q).seq (Scan.char (· == c))) t := by
  cases ho : Scan.char (· == o) t with
  | none => rw [Scan.seq_of_none ho, Scan.seq_of_none ho]
  | some u =>
    have hlt := (Scan.consumes_char _ t u ho).2
    have hrest : Scan.rest p u = Scan.rest q u :=
      Scan.rest_congr hp fun v hv => h v (Nat.lt_of_le_of_lt hv.length_le hlt)
    rw [Scan.seq_of_some ho, Scan.seq_of_some ho]
    exact congrArg (Scan.char (· == c)) hrest

theorem scan_aggregate : aggregate.scan = (body aggregate).scan scan := by
  have hbody : (body aggregate).scan scan = (Scan.char (· == '{')).seq
      ((Scan.many (Lexeme.stringLit.or (Lexeme.comment.or (Lexeme.aggregate.or
        (Scan.char (· != '}')))))).seq (Scan.char (· == '}'))) := by
    simp [bracketed, bne]
  rw [hbody]
  funext t
  cases t with
  | nil => rfl
  | cons x t =>
    refine bracketed_congr ?_ fun u hu => ?_
    · exact (consumes_stringLit.or (consumes_comment.or
        ((consumes_aggregateAt _).or (Scan.consumes_char _)))).leaves
    · have hu' : u.length ≤ t.length := Nat.le_of_lt_succ hu
      simp only [Scan.or, aggregateAt_of_length_le hu']

theorem scan_listValue : listValue.scan = (body listValue).scan scan := by
  have hbody : (body listValue).scan scan = (Scan.char (· == '[')).seq
      ((Scan.many (Lexeme.stringLit.or (Lexeme.comment.or (Lexeme.aggregate.or
        (Lexeme.listValue.or (Scan.char (· != ']'))))))).seq (Scan.char (· == ']'))) := by
    simp [bracketed, bne]
  rw [hbody]
  funext t
  cases t with
  | nil => rfl
  | cons x t =>
    refine bracketed_congr ?_ fun u hu => ?_
    · exact (consumes_stringLit.or (consumes_comment.or ((consumes_aggregateAt _).or
        ((consumes_listValueAt _).or (Scan.consumes_char _))))).leaves
    · have hu' : u.length ≤ t.length := Nat.le_of_lt_succ hu
      simp only [Scan.or, aggregateAt_of_length_le hu', listValueAt_of_length_le hu']

/-! ## words -/

/-- Labels are told apart before it is seen whether they go on. -/
theorem scan_label : (named .label).scan = (body (named .label)).scan scan := by
  have hoptional (t u : Text) (h : Scan.word "optional".toList t = some u) :
      ((Scan.word "required".toList).or (Scan.word "repeated".toList)) t = none :=
    (Scan.or_of_none (Scan.word_of_word (by decide) (by decide) h) _).trans
      (Scan.word_of_word (by decide) (by decide) h)
  have hrequired (t u : Text) (h : Scan.word "required".toList t = some u) :
      Scan.word "repeated".toList t = none := Scan.word_of_word (by decide) (by decide) h
  show _ = ((Scan.word "optional".toList).or
    ((Scan.word "required".toList).or (Scan.word "repeated".toList))).seq _
  rw [Scan.or_seq hoptional, Scan.or_seq hrequired]
  rfl

theorem scan_importModifier :
    (named .importModifier).scan = (body (named .importModifier)).scan scan := by
  have hweak (t u : Text) (h : Scan.word "weak".toList t = some u) :
      Scan.word "public".toList t = none := Scan.word_of_word (by decide) (by decide) h
  show _ = ((Scan.word "weak".toList).or (Scan.word "public".toList)).seq _
  rw [Scan.or_seq hweak]
  rfl

/-! ## readers -/

@[simp] theorem scan_gap : Phrase.gap.scan scan = Lexeme.gap := by
  rw [gap_eq, ← Scan.many_char]
  rfl

/-- To see that a reader obeys a phrase, it is taken apart. -/
theorem left_of {α : Type} {p : Reader α} {q r : Scan} [h : Reader.Leaving p q] (hq : q = r) :
    p.left = r := h.left_eq.trans hq

set_option synthInstance.maxSize 400 in
theorem scan_mapField : (named .mapField).scan = (body (named .mapField)).scan scan :=
  left_of (p := Reader.named _ _) (by simp)

theorem scan_fieldOptions :
    (named .fieldOptions).scan = (body (named .fieldOptions)).scan scan := by
  refine left_of (p := Reader.named _ _) ?_
  have hmore : ((Scan.char (· == ',')).seq (Lexeme.gap.seq Reader.fieldOption.left)).Consumes :=
    (Scan.consumes_char _).seq (leaves_gap.seq Reader.Consumes.left.leaves)
  simp [Lexeme.many_gap_seq hmore]

theorem scan_block (s : Symbol) (p : Place) {e : Phrase Rule}
    (he : e.scan scan = (Reader.itemAt p).left) :
    (Reader.body s (Reader.itemAt p)).left = (block e).scan scan := by
  rw [Reader.left_body]
  simp [he]

theorem scan_file : (named .file).scan = (body (named .file)).scan scan := by
  show Reader.file.left = _
  rw [funext Reader.file_eq]
  refine left_of (p := Reader.named _ _) ?_
  simp [Reader.itemAt, Lexeme.many_gap_seq Reader.Consumes.left]

theorem scan_endOfInput : (named .endOfInput).scan = (body (named .endOfInput)).scan scan := by
  funext t
  cases t <;> rfl

theorem scan_named (s : Symbol) : (named s).scan = (body (named s)).scan scan := by
  cases s with
  | endOfInput => exact scan_endOfInput
  | comment => exact scan_commentForm
  | stringLit => exact scan_stringLit
  | label => exact scan_label
  | importModifier => exact scan_importModifier
  | keyword | stream => rfl
  | ident | fullIdent | typeRef | fieldNumber | enumNumber | constant | optionName =>
    simp [Lexeme.ident, Lexeme.fullIdent, Lexeme.typeRef, Lexeme.fieldNumber,
      Lexeme.enumNumber, Lexeme.constant, Lexeme.optionName]
  | rangeBody => simp [Lexeme.rangeBody, bne]
  | file => exact scan_file
  | fieldOptions => exact scan_fieldOptions
  | mapField => exact scan_mapField
  | messageBody =>
    exact (congrArg Reader.left Reader.nestedBody_eq).trans (scan_block _ .message rfl)
  | oneofBody => exact scan_block _ .oneof rfl
  | extendBody => exact scan_block _ .extend rfl
  | enumBody => exact scan_block _ .enum rfl
  | serviceBody => exact scan_block _ .service rfl
  | rpcBody => exact scan_block _ .method (left_of (p := Reader.oneOf _) (by simp)).symm
  | language | edition | package | importing | option | message | field | fieldOption
  | group | oneof | reserved | extensions | extend | enumDef | enumValue | service
  | rpc | rpcType =>
    exact left_of (p := Reader.named _ _) (by simp [Reader.itemAt])

/-- **The recognisers and readers obey the phrases.** -/
theorem scan_eq (r : Rule) : r.scan = r.body.scan scan := by
  cases r with
  | named s => exact scan_named s
  | space | identChar | emptyStatement => rfl
  | rawComment => exact scan_commentForm
  | intLit | exponent | floatLit | optionNamePart =>
    simp [Lexeme.intLit, Lexeme.exponent, Lexeme.floatLit, Lexeme.optionNamePart,
      Scan.run1]
  | aggregate => exact scan_aggregate
  | listValue => exact scan_listValue
  | rpcTail => exact left_of (p := Reader.orElse _ _) (by simp [Reader.itemAt])
  | fileElement | messageElement | oneofElement | extendElement | enumElement | serviceElement =>
    exact left_of (p := Reader.oneOf _) (by simp)

end ProtoDocs.Rule
