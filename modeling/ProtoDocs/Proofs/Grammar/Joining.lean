import ProtoDocs.Proofs.Grammar.Reading
import ProtoDocs.Proofs.Grammar.Rivals
import ProtoDocs.Proofs.Grammar.Written

/-!
# One file after another

A file with another one below it is read as the one and then the other, if the first leaves nothing
open.  Where it does leave something open, the end may be found in the second file, and the two are not
read as they were.

* `Settled escape p es`   at the place `p`, the elements `es` leave nothing open;
* `items_below`           settled elements are read with lines below, and then what stands there;
* `parse_append`          so are files;
* `openPairs`, `not_forall_appended`   files that are read in another way, or not at all, one behind the
                          other.
-/

namespace ProtoDocs

open Reader

/-- At the place, the elements leave nothing open: no value, no ranges, and no field or enum value that
could be taken for ranges. -/
inductive Settled (escape : Prop) : Place → List Element → Prop
  | nil {p : Place} : Settled escape p []
  | comment {p : Place} {c : Text} {es : List Element} : Settled escape p es →
      Settled escape p (.comment c :: es)
  | statement {p : Place} {cs : List Text} {s : Statement} {es : List Element} :
      s.ClosedText escape → s.NoRanges p → Settled escape p es →
      Settled escape p (.statement cs s :: es)
  | block {p : Place} {cs : List Text} {h : Heading} {body es : List Element} :
      h.ClosedText escape → Settled escape h.place body → Settled escape p es →
      Settled escape p (.block cs h body :: es)

section
variable {p : Place} {t r : Text} {escape : Prop}

theorem Settled.of_comments {cs : List Text} {es : List Element}
    (h : Settled escape p (cs.map .comment ++ es)) : Settled escape p es := by
  induction cs with
  | nil => exact h
  | cons c cs ih =>
    cases h with
    | comment h => exact ih h

/-! ## blocks with lines below -/

instance (p : Place) : Opens (itemAt p) where
  refuses h := by
    rw [itemAt_noName h rfl]
    rfl

theorem itemAt_of_block {h : Heading} {es : List Element} (hp : p.admitsBlock h = true)
    (hread : (blockLike h t).result = some (.block [] h es, r)) :
    (itemAt p t).result = some (some (.block [] h es), r) := by
  cases hk : h.keyword? with
  | some k =>
    exact itemAt_of_led (p.admitsBlock_keyword hp hk) (itemLedBy_block hk ▸ ofBlock_of_some hread)
  | none =>
    cases h with
    | group name number l options =>
      obtain ⟨hothers, hgroup⟩ := p.admits_group hp
      have hne (k : Keyword) (hk : k ∈ p.keywords) : firstWord t ≠ k.word := by
        intro hfirst
        obtain rfl := firstWord_of_group hread hfirst
        exact hgroup hk
      rw [itemAt_others hne, hothers]
      exact oneOf_of_some (ofBlock_of_some hread)
    | _ => cases hk

/-- A block is read with lines below if its heading leaves nothing open and its body is read with lines
below. -/
theorem blockLike_below {h : Heading} {es : List Element} {b : Text} (hclosed : h.ClosedText escape)
    (hend : t.ends (· == '\\') = false ∨ escape)
    (hread : (blockLike h t).result = some (.block [] h es, r))
    (hbody : ∀ w, w <:+ t → w.length < t.length →
      (items (itemAt h.place) w).result = some (es, '}' :: r) →
      (items (itemAt h.place) (w ++ '\n' :: b)).result = some (es, '}' :: (r ++ '\n' :: b))) :
    (blockLike h (t ++ '\n' :: b)).result = some (.block [] h es, r ++ '\n' :: b) := by
  obtain ⟨h', es', v, hheading, hes, he⟩ := blockLike_eq_some.1 hread
  cases he
  -- behind the heading there is a brace, or a semicolon for a method without a body
  have hmarked : Marked v := by
    rcases bodyOf_eq_some.1 hes with ⟨w, hw, -⟩ | ⟨-, -, hw⟩ <;> rw [Marked, hw] <;> rfl
  refine blockLike_eq_some.2 ⟨h, es, v ++ '\n' :: b,
    headingLike_lasts h t h v b hend hheading hmarked hclosed, ?_, rfl⟩
  rw [hmarked.solid.skip_below]
  rcases bodyOf_eq_some.1 hes with ⟨w, hw, hitems⟩ | ⟨hmethod, rfl, hw⟩
  · have hsuffix : w <:+ t :=
      ((hw ▸ List.suffix_cons '{' w).trans (skip_suffix v)).trans (Leaves.suffix hheading)
    have hlt : w.length < t.length := by
      have h₁ := (skip_suffix v).length_le
      have h₂ := (Leaves.suffix hheading).length_le
      rw [hw, List.length_cons] at h₁
      omega
    rw [hw]
    exact bodyOf_eq_some.2 (.inl ⟨_, rfl, hbody w hsuffix hlt hitems⟩)
  · rw [hw]
    exact bodyOf_eq_some.2 (.inr ⟨hmethod, rfl, rfl⟩)

/-! ## items with lines below -/

/-- The comments in front of items come before them, also with lines below. -/
theorem items_skip_below {es : List Element} {s : Text} (b : Text)
    (h : (items (itemAt p) ((skip t).2 ++ '\n' :: b)).result = some (es, s)) :
    (items (itemAt p) (t ++ '\n' :: b)).result = some ((skip t).1.map .comment ++ es, s) := by
  fun_induction skip t with
  | case1 t hnone =>
    obtain ⟨u, hu, ht⟩ := exists_pastSpace t
    rw [ht, List.append_assoc, items_spaces hu]
    exact h
  | case2 t r hr comments u heq ih =>
    rw [heq] at ih
    obtain ⟨w, hw, ht⟩ := exists_pastSpace t
    obtain ⟨c, hc, hbefore⟩ := comment_eq_some_iff.1 hr
    have htext : t ++ '\n' :: b = w ++ (c ++ (r ++ '\n' :: b)) := by
      rw [ht, hc, List.append_assoc, List.append_assoc]
    have hup : (Lexeme.pastSpace t).upTo r = c := by rw [hc, Text.upTo_append]
    rw [htext, items_spaces hw, items_comment (Lexeme.commentBefore_below hbefore) (ih h), hup]
    rfl

/-- **Settled elements are read with lines below**, and then what stands there. -/
theorem items_below {es es' : List Element} {b s : Text} (hs : Settled escape p es)
    (hend : t.ends (· == '\\') = false ∨ escape)
    (h : (items (itemAt p) t).result = some (es, r))
    (hrest : (items (itemAt p) (r ++ '\n' :: b)).result = some (es', s)) :
    (items (itemAt p) (t ++ '\n' :: b)).result = some (es ++ es', s) := by
  -- on the length of the text, as for `items_reading`
  induction hn : t.length using Nat.strong_induction_on generalizing p t r es es' s with
  | _ n ih =>
  subst hn
  cases hi : (itemAt p (skip t).2).result with
  | none =>
    rw [items_of_none hi] at h
    cases h
    exact items_skip_below b hrest
  | some x =>
    obtain ⟨e, u⟩ := x
    have hskip : (skip t).2 <:+ t := skip_suffix t
    have hu : u <:+ t := (Leaves.suffix hi).trans hskip
    have hlt : u.length < t.length := Nat.lt_of_lt_of_le (Consumes.shorter hi) hskip.length_le
    have hend' := hend.imp_left (Text.ends_of_suffix hskip)
    obtain ⟨es₁, r₁, hr⟩ := exists_items (itemAt p) u
    rw [items_of_some hi hr] at h
    cases h
    have hsolid : Solid (skip t).2 := Opens.solid (firm_skip t) hi
    have hfirm := (firm_skip t).below hsolid.ne_nil hsolid.not_opening b
    -- with lines below, the item is read, and then the induction reads what stands behind it
    have hitem (hes : Settled escape p es₁)
        (hbelow : (itemAt p ((skip t).2 ++ '\n' :: b)).result = some (e, u ++ '\n' :: b)) :
        (items (itemAt p) (t ++ '\n' :: b)).result =
          some ((skip t).1.map .comment ++ (e.toList ++ es₁) ++ es', s) := by
      have htail := ih u.length hlt hes (hend.imp_left (Text.ends_of_suffix hu)) hr hrest rfl
      rw [items_skip_below b (items_cons hfirm hbelow htail)]
      simp only [List.append_assoc]
    have hes := hs.of_comments
    cases itemAt_readsItems p (skip t).2 e u hi with
    | empty hsemi =>
      refine hitem hes ?_
      rw [hsemi]
      exact itemAt_semicolon p _
    | statement hp hread =>
      cases hes with
      | statement hclosed hranges hes =>
        exact hitem hes (itemAt_statement_below hclosed hranges hend' hi b)
    | @block h body hp hread =>
      cases hes with
      | block hclosed hbody hes =>
        refine hitem hes (itemAt_of_block hp (blockLike_below hclosed hend' hread ?_))
        intro w hw hlen hitems
        have hstop : Stop ('}' :: (u ++ '\n' :: b)) := .inr ⟨_, rfl⟩
        have hwt : w.length < t.length := Nat.lt_of_lt_of_le hlen hskip.length_le
        have hread := ih w.length hwt hbody (hend'.imp_left (Text.ends_of_suffix hw)) hitems
          (items_nil hstop.firm (itemAt_stop _ hstop)) rfl
        rwa [List.append_nil] at hread

end

/-! ## files -/

/-- **One file after another.**  A file that leaves nothing open is read with a second one below it as
the elements of the one and then those of the other. -/
theorem parse_append {a b : Text} {es es' : List Element} (ha : parse a = .ok es)
    (hb : parse b = .ok es') (hs : Settled (a.ends (· == '\\') = true) .file es) :
    parse (a ++ '\n' :: b) = .ok (es ++ es') := by
  have hend : a.ends (· == '\\') = false ∨ a.ends (· == '\\') = true :=
    (Bool.eq_false_or_eq_true _).symm
  have hrest : (items (itemAt .file) ([] ++ '\n' :: b)).result = some (es', []) := by
    rw [List.nil_append, items_space rfl]
    exact parse_eq_ok.1 hb
  exact parse_eq_ok.2 (items_below hs hend (parse_eq_ok.1 ha) hrest)

/-- an option with brackets, quotes and comments in its value, and a comment that ends in a backslash -/
def closedText : Text := "option x=\x7by:[\"\x7d\"]/*\x7d*/\x7d;//\\".toList

def closedFile : List Element :=
  [.statement [] (.setting ⟨"x".toList, "\x7by:[\"\x7d\"]/*\x7d*/\x7d".toList⟩),
    .comment "//\\".toList]

theorem parse_append_closedText :
    parse closedText = .ok closedFile ∧ Settled (closedText.ends (· == '\\') = true) .file closedFile ∧
      parse (closedText ++ '\n' :: sampleText) = .ok (closedFile ++ sampleFile) :=
  have hparse : parse closedText = .ok closedFile := parse_eq_ok.2 (by decide +kernel)
  have hsample : parse sampleText = .ok sampleFile :=
    parse_eq_ok.2 (items_written sampleFile_written sampleFile_wellFormed (.inl rfl))
  have hvalue : Closed (closedText.ends (· == '\\') = true) "\x7by:[\"\x7d\"]/*\x7d*/\x7d".toList := by
    decide +kernel
  have hsettled : Settled (closedText.ends (· == '\\') = true) .file closedFile :=
    .statement hvalue trivial (.comment .nil)
  ⟨hparse, hsettled, parse_append hparse hsample hsettled⟩

/-- files that leave something open, and files with which this makes a difference: the beginning of a
comment, of an aggregate and of a string in a value, of a comment and of a string in ranges, and
fields and enum values that could be taken for ranges -/
def openPairs : List (Text × Text) :=
  [("option x=\x7b/*\x7d;".toList, "/**/".toList),
    ("option x=[\x7b];".toList, "option y=[\x7d];".toList),
    ("option x=\x7b\"\x7d; //\\".toList, "import \"x\";".toList),
    ("message M\x7breserved /*;\x7d".toList, "/**/".toList),
    ("message M\x7breserved \";\x7d//\\".toList, "import \"x\";".toList),
    ("message M\x7breserved x/*\"*/=1;\x7d//\"".toList, ";".toList),
    ("enum E\x7breserved=/*\"*/1;\x7d//\"".toList, ";".toList)]

def readApart (a b : Text) : Bool :=
  match parse a, parse b, parse (a ++ '\n' :: b) with
  | .ok es, .ok es', .ok joined => joined != es ++ es'
  | .ok _, .ok _, .error _ => true
  | _, _, _ => false

theorem readApart_eq_true {a b : Text} (h : readApart a b = true) :
    ∃ es es', parse a = .ok es ∧ parse b = .ok es' ∧ parse (a ++ '\n' :: b) ≠ .ok (es ++ es') := by
  unfold readApart at h
  split at h
  · rename_i es es' joined ha hb hjoined
    refine ⟨es, es', ha, hb, ?_⟩
    rw [hjoined]
    simpa using h
  · rename_i es es' e ha hb hjoined
    refine ⟨es, es', ha, hb, ?_⟩
    rw [hjoined]
    simp
  · cases h

/-- Not every file can be read with another one below it: each of these pairs is read in another way, or
not at all. -/
theorem not_forall_appended :
    (¬ ∀ a b es es', parse a = .ok es → parse b = .ok es' → parse (a ++ '\n' :: b) = .ok (es ++ es')) ∧
    ∀ x ∈ openPairs, ∃ es es', parse x.1 = .ok es ∧ parse x.2 = .ok es' ∧
      parse (x.1 ++ '\n' :: x.2) ≠ .ok (es ++ es') := by
  have hall : openPairs.all (fun x => readApart x.1 x.2) = true := by decide +kernel
  have hpairs : ∀ x ∈ openPairs, ∃ es es', parse x.1 = .ok es ∧ parse x.2 = .ok es' ∧
      parse (x.1 ++ '\n' :: x.2) ≠ .ok (es ++ es') :=
    fun x hx => readApart_eq_true (List.all_eq_true.1 hall x hx)
  refine ⟨fun h => ?_, hpairs⟩
  obtain ⟨es, es', ha, hb, hne⟩ := hpairs _ List.mem_cons_self
  exact hne (h _ _ es es' ha hb)

end ProtoDocs
