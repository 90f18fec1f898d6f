import ProtoDocs.Proofs.Grammar.Declarations
import ProtoDocs.Proofs.Grammar.Steady

/-!
# Raw text that leaves nothing open

The value of an option may hold the beginning of a comment, of an aggregate or of a string that has no
end: it is then taken for ordinary characters.  With more text below, the end may be found there, and
the value is another one.

* `Closed escape v`      the value `v` leaves nothing open; that a string is left open matters only if
                         a backslash stands at the end of the whole text, and takes the line end;
* `pieces_below`         the pieces of a text that leaves nothing open;
* `constant_below`       a closed value is read with lines below as it is read without;
* `rangeBody_below`      ranges, where `RangeText` says that they leave no string open.
-/

namespace ProtoDocs

open Lexeme Scan

/-- No comment is left open in the text, no brace, and if the text is to be read in front of a
backslash at the end of all, no string. -/
structure Closed (escape : Prop) (v : Text) : Prop where
  comments : ¬ [Piece.char '/', .char '*'] <:+: pieces inert v
  braces : BracesClosed (pieces inert v)
  strings : escape → ∀ x ∈ outside (pieces inert v), isQuote x = false

instance (escape : Prop) [Decidable escape] (v : Text) : Decidable (Closed escape v) :=
  decidable_of_iff (_ ∧ _ ∧ _) ⟨fun ⟨hc, hb, hs⟩ => ⟨hc, hb, hs⟩, fun ⟨hc, hb, hs⟩ => ⟨hc, hb, hs⟩⟩

section
variable {b t r v : Text}

theorem inert_of_some (h : inert t = some r) : inert (t ++ '\n' :: b) = some (r ++ '\n' :: b) := by
  rcases Option.or_eq_some_iff.1 h with h | ⟨_, h⟩
  · exact or_of_some (stringLit_of_some h _) _
  · have hslash : t.starts (· == '/') = true := by
      obtain ⟨c, rfl, hc⟩ := comment_eq_some_iff.1 h
      obtain ⟨d, rfl⟩ := hc.exists_slash
      rfl
    have hquote : (t ++ '\n' :: b).starts isQuote = false :=
      Text.not_starts_of_starts (fun c hc => by rw [beq_iff_eq.1 hc]; rfl)
        (Text.starts_append_of hslash _)
    exact (or_of_none (stringLit_of_not_starts hquote) _).trans (comment_of_some h)

theorem inert_below (h : inert t = none) (hopen : ¬ ['/', '*'] <+: t)
    (hend : t.ends (· == '\\') = false ∨ t.starts isQuote = false) :
    inert (t ++ '\n' :: b) = none := by
  obtain ⟨hstring, hcomment⟩ := Option.or_eq_none_iff.1 h
  exact (or_of_none (stringLit_below hstring hend) _).trans (comment_below hcomment hopen)

/-! ## pieces -/

/-- The pieces that stand in front of others stand there with lines below, if they leave nothing
open. -/
theorem pieces_below {us qs : List Piece} (h : pieces inert t = us ++ qs)
    (hcomments : ¬ [Piece.char '/', .char '*'] <:+: us) (hlast : us.getLast? ≠ some (.char '/'))
    (hstrings : t.ends (· == '\\') = false ∨ ∀ x ∈ outside us, isQuote x = false) :
    pieces inert (t ++ '\n' :: b) = us ++ pieces inert (textOf qs ++ '\n' :: b) := by
  -- what holds of all the pieces holds of those behind the first
  have htail {p : Piece} {ps : List Piece} (hlast : (p :: ps).getLast? ≠ some (.char '/')) :
      ps.getLast? ≠ some (.char '/') := by
    intro h
    rw [List.getLast?_cons, h] at hlast
    exact hlast rfl
  induction t using consumes_inert.piecewise generalizing us with
  | nil =>
    obtain ⟨rfl, rfl⟩ := List.append_eq_nil_iff.1 (h.symm.trans pieces_nil)
    rfl
  | whole w r hr hne ih =>
    cases us with
    | nil =>
      rw [List.nil_append] at h
      rw [← h, consumes_inert.textOf_pieces]
      rfl
    | cons p us =>
      rw [consumes_inert.pieces_whole hr, List.cons_append, List.cons.injEq] at h
      obtain ⟨rfl, h⟩ := h
      have hrest := ih h (fun hin => hcomments (List.infix_cons hin)) (htail hlast)
        (hstrings.imp_left (Text.ends_of_suffix (List.suffix_append w r)))
      rw [List.append_assoc, consumes_inert.pieces_whole, hrest, List.cons_append]
      rw [← List.append_assoc]
      exact inert_of_some hr
  | char x u hr ih =>
    cases us with
    | nil =>
      rw [List.nil_append] at h
      rw [← h, consumes_inert.textOf_pieces]
      rfl
    | cons p us =>
      rw [pieces_char hr, List.cons_append, List.cons.injEq] at h
      obtain ⟨rfl, h⟩ := h
      have hrest := ih h (fun hin => hcomments (List.infix_cons hin)) (htail hlast)
        (hstrings.imp (Text.ends_of_suffix (List.suffix_cons x u))
          fun hs y hy => hs y (List.mem_cons_of_mem x hy))
      have hopen : ¬ ['/', '*'] <+: x :: u := by
        rintro ⟨w, hw⟩
        obtain ⟨rfl, rfl⟩ := List.cons.inj hw
        have hstar : pieces inert ('*' :: w) = us ++ qs := h
        rw [pieces_char (inert_of_not_starts rfl (by decide))] at hstar
        cases us with
        | nil => exact hlast rfl
        | cons p us =>
          obtain ⟨rfl, -⟩ := List.cons.inj hstar
          exact hcomments ⟨[], us, rfl⟩
      have hquote : Text.ends (· == '\\') (x :: u) = false ∨
          Text.starts isQuote (x :: u) = false := by
        refine hstrings.imp_right fun hs => ?_
        rw [Text.starts_cons]
        exact hs x List.mem_cons_self
      have hbelow : inert (x :: (u ++ '\n' :: b)) = none := inert_below hr hopen hquote
      rw [List.cons_append, pieces_char hbelow, hrest, List.cons_append]

theorem pieces_bracketed {o : Char} {us qs : List Piece} (ho : inert (o :: t) = none)
    (h : pieces inert t = us ++ qs) : pieces inert (o :: textOf us) = .char o :: us := by
  have hall : pieces inert (o :: t) = (.char o :: us) ++ qs := by
    rw [pieces_char ho, h, List.cons_append]
  exact consumes_inert.pieces_of_prefix local_inert hall

/-- The pieces of closed text in brackets are those with lines below. -/
theorem Closed.pieces_below {escape : Prop} {o c : Char} {us qs : List Piece}
    (hv : Closed escape (o :: textOf us)) (hend : t.ends (· == '\\') = false ∨ escape)
    (ho : inert (o :: t) = none) (h : pieces inert t = us ++ qs)
    (hlast : us.getLast? = some (.char c)) (hc : c ≠ '/') :
    pieces inert (t ++ '\n' :: b) = us ++ pieces inert (textOf qs ++ '\n' :: b) := by
  obtain ⟨hcomments, -, hstrings⟩ := hv
  rw [pieces_bracketed ho h] at hcomments hstrings
  refine ProtoDocs.pieces_below h (fun hin => hcomments (List.infix_cons hin)) ?_ ?_
  · rw [hlast]
    rintro ⟨⟩
    exact hc rfl
  · exact hend.imp_right fun he x hx => hstrings he x (List.mem_cons_of_mem o hx)

/-! ## aggregates and lists -/

theorem aggregate_below {escape : Prop} (h : aggregate ('{' :: t) = some r)
    (ht : '{' :: t = v ++ r) (hv : Closed escape v) (hend : t.ends (· == '\\') = false ∨ escape) :
    aggregate ('{' :: (t ++ '\n' :: b)) = some (r ++ '\n' :: b) := by
  obtain ⟨qs, hqs, rfl⟩ := aggregate_eq_some.1 h
  obtain ⟨us, hus⟩ := closing_suffix hqs
  obtain rfl : v = '{' :: textOf us := by
    rw [← consumes_inert.textOf_pieces t, ← hus, textOf_append, ← List.cons_append] at ht
    exact (List.append_cancel_right ht).symm
  rw [← hus] at hqs
  obtain ⟨hlast, hclosing⟩ := closing_cancel Int.one_pos hqs
  have hpieces := hv.pieces_below (b := b) hend (inert_of_not_starts rfl (by decide)) hus.symm
    hlast (by decide)
  refine aggregate_eq_some.2 ⟨_, ?_, consumes_inert.textOf_pieces _⟩
  rw [hpieces, closing_append hclosing]
  rfl

theorem listValue_below {escape : Prop} (h : listValue ('[' :: t) = some r)
    (ht : '[' :: t = v ++ r) (hv : Closed escape v) (hend : t.ends (· == '\\') = false ∨ escape) :
    listValue ('[' :: (t ++ '\n' :: b)) = some (r ++ '\n' :: b) := by
  obtain ⟨qs, hqs, rfl⟩ := listValue_eq_some.1 h
  obtain ⟨us, hus⟩ := closingList_suffix hqs
  obtain rfl : v = '[' :: textOf us := by
    rw [← consumes_inert.textOf_pieces t, ← hus, textOf_append, ← List.cons_append] at ht
    exact (List.append_cancel_right ht).symm
  have hbraces : BracesClosed us := by
    have hclosed := hv.braces
    rw [pieces_bracketed (inert_of_not_starts rfl (by decide)) hus.symm] at hclosed
    exact hclosed.of_suffix (List.suffix_cons ..)
  rw [← hus] at hqs
  obtain ⟨hlast, hclosing⟩ := closingList_cancel Int.one_pos hqs
  have hpieces := hv.pieces_below (b := b) hend (inert_of_not_starts rfl (by decide)) hus.symm
    hlast (by decide)
  refine listValue_eq_some.2 ⟨_, ?_, consumes_inert.textOf_pieces _⟩
  rw [hpieces, closingList_append hbraces hclosing]
  rfl

/-! ## values -/

theorem pastSpace_below (h : pastSpace t ≠ []) :
    pastSpace (t ++ '\n' :: b) = pastSpace t ++ '\n' :: b := by
  rw [pastSpace, List.dropWhile_append, if_neg (by simpa [List.isEmpty_iff, pastSpace] using h)]
  rfl

/-- Where strings in a row have come to their end, they have with lines below. -/
theorem strings_below (h : (stringLit.seq (many ((run isSpace).seq stringLit))) t = some r)
    (hr : (pastSpace r).starts (fun c => !isQuote c) = true) :
    (stringLit.seq (many ((run isSpace).seq stringLit))) (t ++ '\n' :: b) =
      some (r ++ '\n' :: b) := by
  have hmore : ((run isSpace).seq stringLit).Consumes :=
    (leaves_run isSpace).seq_consumes consumes_stringLit
  have hstep {u v : Text} (h : (run isSpace).seq stringLit u = some v) :
      (run isSpace).seq stringLit (u ++ '\n' :: b) = some (v ++ '\n' :: b) := by
    have hv : stringLit (pastSpace u) = some v := h
    have hne : pastSpace u ≠ [] := by
      rintro hnil
      simp [hnil, stringLit] at hv
    show stringLit (pastSpace (u ++ '\n' :: b)) = _
    rw [pastSpace_below hne]
    exact stringLit_of_some hv _
  have hend : (run isSpace).seq stringLit (r ++ '\n' :: b) = none := by
    have hne : pastSpace r ≠ [] := by
      rintro hnil
      simp [hnil] at hr
    show stringLit (pastSpace (r ++ '\n' :: b)) = none
    rw [pastSpace_below hne]
    refine stringLit_of_not_starts (Text.not_starts_of_starts (fun c hc => ?_)
      (Text.starts_append_of hr _))
    simpa using hc
  obtain ⟨u, hu, hrest⟩ := seq_eq_some_iff.1 h
  refine seq_eq_some_iff.2 ⟨u ++ '\n' :: b, stringLit_of_some hu _, ?_⟩
  rw [many, Option.some.injEq] at hrest ⊢
  clear hu h
  fun_induction rest ((run isSpace).seq stringLit) u with
  | case1 u hnone =>
    rw [hrest] at hnone ⊢
    exact rest_of_none hend
  | case2 u v hv hlt ih =>
    rw [rest_of_some hmore (hstep hv)]
    exact ih hrest
  | case3 u v hv hlt => exact absurd (hmore u v hv).2 hlt

/-- A closed value is read with lines below, if what follows cannot be taken for a further string. -/
theorem constant_below {escape : Prop} (h : constant (v ++ r) = some r) (hv : Closed escape v)
    (hend : (v ++ r).ends (· == '\\') = false ∨ escape)
    (hr : (pastSpace r).starts (fun c => !isQuote c) = true) :
    constant (v ++ r ++ '\n' :: b) = some (r ++ '\n' :: b) := by
  have hplain : (((opt (char isSign)).seq (floatLit.or intLit)).or
      ((opt (char isSign)).seq fullIdent)).Steady b :=
    ((steady_char rfl).opt.seq (steady_floatLit.or steady_intLit)).or
      ((steady_char rfl).opt.seq steady_fullIdent)
  cases ht : v ++ r with
  | nil =>
    rw [ht] at h
    cases h
  | cons x t =>
    rw [ht] at h hend
    replace hend := hend.imp_left (Text.ends_of_suffix (List.suffix_cons x t))
    -- a bracket or a quote in front says which kind of value it is
    by_cases hbrace : x = '{'
    · subst hbrace
      rcases Option.or_eq_some_iff.1 h with h | ⟨_, h⟩
      · exact or_of_some (aggregate_below h ht.symm hv hend) _
      · cases h
    have hagg (u : Text) : aggregate (x :: u) = none :=
      aggregate_of_not_starts (by simpa using hbrace)
    rw [constant, or_of_none (hagg t)] at h
    rw [List.cons_append, constant, or_of_none (hagg _)]
    by_cases hbracket : x = '['
    · subst hbracket
      rcases Option.or_eq_some_iff.1 h with h | ⟨_, h⟩
      · exact or_of_some (listValue_below h ht.symm hv hend) _
      · cases h
    have hlist (u : Text) : listValue (x :: u) = none :=
      listValue_of_not_starts (by simpa using hbracket)
    rw [or_of_none (hlist t)] at h
    rw [or_of_none (hlist _)]
    rcases Option.or_eq_some_iff.1 h with h | ⟨hnone, h⟩
    · exact or_of_some (strings_below h hr) _
    · have hstring (u : Text) : stringLit (x :: u) = none := by
        refine stringLit_of_not_starts (Bool.eq_false_iff.2 fun hquote => ?_)
        rw [Text.starts_cons, isQuote, Bool.or_eq_true, beq_iff_eq, beq_iff_eq] at hquote
        rcases hquote with rfl | rfl <;> cases h
      rw [or_of_none (seq_of_none (hstring _) _)]
      exact hplain.of_some h

/-! ## ranges -/

theorem rangeBody_end (h : rangeBody t = some r) : r = [] ∨ ∃ u, r = ';' :: u := by
  obtain ⟨u, _, hr⟩ := seq_eq_some_iff.1 h
  have hnone : (stringLit.or (char (· != ';'))) r = none := by
    rw [← Option.some.inj hr]
    exact (consumes_stringLit.or (consumes_char _)).rest_end u
  obtain ⟨-, hchar⟩ := Option.or_eq_none_iff.1 hnone
  cases r with
  | nil => exact .inl rfl
  | cons c r =>
    by_cases hc : c = ';'
    · exact .inr ⟨r, by rw [hc]⟩
    · simp [char, hc] at hchar

theorem RangeText.of_trim (h : RangeText v.trim) : RangeText v := by
  obtain ⟨s, u, hs, hu, hv⟩ := Text.exists_trim v
  rw [hv]
  exact (RangeText.of_blanks hs).append (h.append (.of_blanks hu))

theorem rangeBody_below (h : rangeBody (v ++ r) = some r) (hr : r ≠ [])
    (hend : (v ++ r).ends (· == '\\') = false ∨ RangeText v.trim) :
    rangeBody (v ++ r ++ '\n' :: b) = some (r ++ '\n' :: b) := by
  obtain ⟨r, rfl⟩ := (rangeBody_end h).resolve_left hr
  rcases hend with hend | hv
  · let item := stringLit.or (char (· != ';'))
    have hconsumes : item.Consumes := consumes_stringLit.or (consumes_char _)
    have hsome {u w : Text} (hu : u.ends (· == '\\') = false) (h : item u = some w) :
        item (u ++ '\n' :: b) = some (w ++ '\n' :: b) := by
      rcases Option.or_eq_some_iff.1 h with h | ⟨hnone, h⟩
      · exact or_of_some (stringLit_of_some h _) _
      · obtain ⟨c, hc, rfl⟩ := char_eq_some_iff.1 h
        exact (or_of_none (stringLit_below hnone (.inl hu)) _).trans
          (char_eq_some_iff.2 ⟨c, hc, rfl⟩)
    have hrest {u : Text} (hu : u.ends (· == '\\') = false) (h : rest item u = ';' :: r) :
        rest item (u ++ '\n' :: b) = ';' :: r ++ '\n' :: b := by
      fun_induction rest item u with
      | case1 u hnone =>
        subst h
        exact rest_of_none rfl
      | case2 u w hw hlt ih =>
        rw [rest_of_some hconsumes (hsome hu hw)]
        exact ih (Text.ends_of_suffix (hconsumes u w hw).1 hu) h
      | case3 u w hw hlt => exact absurd (hconsumes u w hw).2 hlt
    obtain ⟨u, hu, h⟩ := seq_eq_some_iff.1 h
    have hu' := Text.ends_of_suffix (hconsumes _ u hu).1 hend
    exact seq_eq_some_iff.2 ⟨_, hsome hend hu, congrArg some (hrest hu' (Option.some.inj h))⟩
  · have hne : v ≠ [] := by
      rintro rfl
      simpa using (consumes_rangeBody _ _ h).2
    rw [List.append_assoc]
    exact rangeBody_append hv.of_trim hne _

end
end ProtoDocs
