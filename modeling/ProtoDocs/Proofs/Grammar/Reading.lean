import ProtoDocs.Proofs.Grammar.Block
import ProtoDocs.Proofs.Grammar.Items

/-!
# How items are read

The items of a place are read one after the other, each with the comments in front of it, and the
items of a body are read at the place of their block.  A statement about all parsed files is shown
by induction on these steps.

* `Reading p t es r`   at the place `p`, the elements `es` are read off `t`, and `r` is left;
* `items_reading`      items in a row are read in these steps;
* `parse_reading`      so is a file.
-/

namespace ProtoDocs

open Reader

/-- At the place `p`, the elements `es` are read off `t`, and `r` is left.  Each step takes the
comments in front of an item and then the item: a semicolon, a statement, a block with a body in
braces, or a method without a body.  The last step takes comments that no item follows. -/
inductive Reading : Place → Text → List Element → Text → Prop
  | stop {p : Place} {t : Text} : (itemAt p (skip t).2).result = none →
      Reading p t ((skip t).1.map .comment) (skip t).2
  | empty {p : Place} {t u r : Text} {es : List Element} : (skip t).2 = ';' :: u →
      Reading p u es r → Reading p t ((skip t).1.map .comment ++ es) r
  | statement {p : Place} {s : Statement} {t u r : Text} {es : List Element} :
      p.admits s = true → (statementLike s (skip t).2).result = some (s, u) → Reading p u es r →
      Reading p t ((skip t).1.map .comment ++ .statement [] s :: es) r
  | block {p : Place} {h : Heading} {t v w u r : Text} {body es : List Element} :
      p.admitsBlock h = true → (headingLike h (skip t).2).result = some (h, v) →
      (blockLike h (skip t).2).result = some (.block [] h body, u) → (skip v).2 = '{' :: w →
      Reading h.place w body ('}' :: u) → Reading p u es r →
      Reading p t ((skip t).1.map .comment ++ .block [] h body :: es) r
  | bare {p : Place} {h : Heading} {t v u r : Text} {es : List Element} :
      p.admitsBlock h = true → h.isMethod → (headingLike h (skip t).2).result = some (h, v) →
      (blockLike h (skip t).2).result = some (.block [] h [], u) → (skip v).2 = ';' :: u →
      Reading p u es r → Reading p t ((skip t).1.map .comment ++ .block [] h [] :: es) r

instance (h : Heading) : Leaves (headingLike h) := by
  cases h <;> unfold headingLike <;> infer_instance

instance (s : Statement) : Leaves (statementLike s) := by
  cases s <;> unfold statementLike <;> infer_instance

/-- Items in a row are read step by step. -/
theorem items_reading {p : Place} {t r : Text} {es : List Element}
    (h : (items (itemAt p) t).result = some (es, r)) : Reading p t es r := by
  -- on the length of the text: a body is shorter than the text that its block begins
  induction hn : t.length using Nat.strong_induction_on generalizing p t r es with
  | _ n ih =>
  subst hn
  cases hi : (itemAt p (skip t).2).result with
  | none =>
    rw [items_of_none hi] at h
    cases h
    exact .stop hi
  | some x =>
    obtain ⟨e, u⟩ := x
    have hskip : (skip t).2.length ≤ t.length := (skip_suffix t).length_le
    have hut : u.length < t.length := Nat.lt_of_lt_of_le (Consumes.shorter hi) hskip
    obtain ⟨es', r', hr⟩ := exists_items (itemAt p) u
    rw [items_of_some hi hr] at h
    cases h
    have hrest : Reading p u es' r := ih u.length hut hr rfl
    cases itemAt_readsItems p (skip t).2 e u hi with
    | empty hsemi => exact .empty hsemi hrest
    | statement hp hs => exact .statement hp hs hrest
    | @block h body hp hb =>
      obtain ⟨h', body', v, hh, hbody, he⟩ := blockLike_eq_some.1 hb
      cases he
      rcases bodyOf_eq_some.1 hbody with ⟨w, hw, hitems⟩ | ⟨hmethod, rfl, hw⟩
      · have hwt : w.length < t.length := by
          have h₁ := (Leaves.suffix hh).length_le
          have h₂ := (skip_suffix v).length_le
          rw [hw, List.length_cons] at h₂
          omega
        exact .block hp hh hb hw (ih w.length hwt hitems rfl) hrest
      · exact .bare hp hmethod hh hb hw hrest

theorem parse_reading {source : Text} {es : List Element} (h : parse source = .ok es) :
    Reading .file source es [] :=
  items_reading (parse_eq_ok.1 h)

end ProtoDocs
