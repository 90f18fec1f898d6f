import ProtoDocs.Proofs.Element.Attach
import ProtoDocs.Proofs.Grammar.Reading

/-!
# Where elements are read

Each element of a file is read at some place off some part of the text.  These parts are found by
following the readers: behind one item for the next one, and behind the brace of a block for the
items in it.

* `Within e es`         the element `e` is among `es` or in a body, at any depth;
* `Origin e q u p t`    reading items at the place `p` off `t`, one comes to read `e` at `q` off
  `u`;
* `Origin.within`       what is read is in the tree;
* `exists_origin`       whatever is in the tree is read somewhere, but for comments;
* `within_iff_origin`   both, for files.
-/

namespace ProtoDocs

open Reader

/-! ## parts of trees -/

/-- the element is one of these or stands in the body of one, at any depth -/
inductive Within (e : Element) : List Element → Prop
  | here {es : List Element} : e ∈ es → Within e es
  | inside {cs : List Text} {h : Heading} {body es : List Element} :
      .block cs h body ∈ es → Within e body → Within e es

namespace Within

variable {e : Element} {es fs : List Element}

theorem mono (h : Within e es) (hsub : es ⊆ fs) : Within e fs := by
  cases h with
  | here he => exact .here (hsub he)
  | inside hb h => exact .inside (hsub hb) h

theorem of_append (h : Within e (es ++ fs)) : Within e es ∨ Within e fs := by
  cases h with
  | here he => exact (List.mem_append.1 he).imp .here .here
  | inside hb h => exact (List.mem_append.1 hb).imp (.inside · h) (.inside · h)

theorem of_comments {cs : List Text} (h : Within e (cs.map .comment)) : e.isComment = true := by
  cases h with
  | here he =>
    obtain ⟨c, -, rfl⟩ := List.mem_map.1 he
    rfl
  | inside hb _ =>
    obtain ⟨c, -, hc⟩ := List.mem_map.1 hb
    cases hc

end Within

/-! ## parts of the text -/

/-- Reading the items of the place `p` off the text, one comes to the place `q` and the text `u`,
where the element is read.  This is so at once, behind another item, or in the body of a block. -/
inductive Origin (e : Element) (q : Place) (u : Text) : Place → Text → Prop
  | here {t v : Text} : (skip t).2 = u → (itemAt q u).result = some (some e, v) → Origin e q u q t
  | behind {p : Place} {t v : Text} {other : Option Element} :
      (itemAt p (skip t).2).result = some (other, v) → Origin e q u p v → Origin e q u p t
  | inside {p : Place} {h : Heading} {body : List Element} {t v w x : Text} :
      (itemAt p (skip t).2).result = some (some (.block [] h body), v) →
      (headingLike h (skip t).2).result = some (h, w) → (skip w).2 = '{' :: x →
      Origin e q u h.place x → Origin e q u p t

section
variable {p q : Place} {t u v r : Text} {e : Element} {es : List Element}

/-- The items are the first one, with the comments in front of it, and those behind it. -/
theorem items_behind {other : Option Element}
    (hitem : (itemAt p (skip t).2).result = some (other, v))
    (h : (items (itemAt p) t).result = some (es, r)) :
    ∃ es', (items (itemAt p) v).result = some (es', r) ∧
      es = (skip t).1.map .comment ++ (other.toList ++ es') := by
  obtain ⟨es', r', hr⟩ := exists_items (itemAt p) v
  rw [items_of_some hitem hr] at h
  cases h
  exact ⟨es', hr, rfl⟩

/-- A block is read with its heading, and then the items of its body are. -/
theorem items_inside {h : Heading} {cs : List Text} {body : List Element}
    (hitem : (itemAt p t).result = some (some (.block cs h body), v)) :
    cs = [] ∧ ∃ w, (headingLike h t).result = some (h, w) ∧
      ((∃ x, (skip w).2 = '{' :: x ∧ (items (itemAt h.place) x).result = some (body, '}' :: v)) ∨
        (skip w).2 = ';' :: v ∧ body = []) := by
  cases itemAt_readsItems p t _ v hitem with
  | block _ hread =>
    obtain ⟨h', body', w, hheading, hbody, he⟩ := blockLike_eq_some.1 hread
    cases he
    refine ⟨rfl, w, hheading, ?_⟩
    exact (bodyOf_eq_some.1 hbody).imp_right fun ⟨_, hnil, hsemi⟩ => ⟨hsemi, hnil⟩

theorem Origin.item (ho : Origin e q u p t) :
    ∃ v, (itemAt q u).result = some (some e, v) := by
  induction ho with
  | here _ hitem => exact ⟨_, hitem⟩
  | behind _ _ ih => exact ih
  | inside _ _ _ _ ih => exact ih

theorem Origin.within (ho : Origin e q u p t) (h : (items (itemAt p) t).result = some (es, r)) :
    Within e es := by
  induction ho generalizing es r with
  | here hskip hitem =>
    obtain ⟨es', -, rfl⟩ := items_behind (hskip ▸ hitem) h
    exact .here (List.mem_append_right _ List.mem_cons_self)
  | behind hitem _ ih =>
    obtain ⟨es', hr, rfl⟩ := items_behind hitem h
    exact (ih hr).mono fun x hx => List.mem_append_right _ (List.mem_append_right _ hx)
  | inside hitem hheading hx _ ih =>
    obtain ⟨es', -, rfl⟩ := items_behind hitem h
    obtain ⟨-, w, hw, hbody⟩ := items_inside hitem
    rw [hheading] at hw
    cases hw
    rcases hbody with ⟨x, hx', hitems⟩ | ⟨hsemi, -⟩
    · rw [hx] at hx'
      cases hx'
      exact .inside (List.mem_append_right _ List.mem_cons_self) (ih hitems)
    · rw [hx] at hsemi
      cases hsemi

/-- Whatever is in the tree is read somewhere, unless it is a comment. -/
theorem exists_origin (h : (items (itemAt p) t).result = some (es, r)) (hw : Within e es)
    (he : e.isComment = false) : ∃ q u, Origin e q u p t := by
  -- on the length of the text, as for `items_reading`
  induction hn : t.length using Nat.strong_induction_on generalizing p t es r with
  | _ n ih =>
  subst hn
  have hskip : (skip t).2.length ≤ t.length := (skip_suffix t).length_le
  have hcomments (cs : List Text) (hc : Within e (cs.map .comment)) : False := by
    rw [hc.of_comments] at he
    cases he
  cases hi : (itemAt p (skip t).2).result with
  | none =>
    rw [items_of_none hi] at h
    cases h
    exact (hcomments _ hw).elim
  | some x =>
    obtain ⟨other, v⟩ := x
    obtain ⟨es', hr, rfl⟩ := items_behind hi h
    rcases hw.of_append with hw | hw
    · exact (hcomments _ hw).elim
    rcases hw.of_append with hw | hw
    · cases hw with
      | here he =>
        obtain rfl : other = some e := Option.mem_toList.1 he
        exact ⟨p, _, .here rfl hi⟩
      | @inside cs h body _ hb hbelow =>
        obtain rfl : other = some (.block cs h body) := Option.mem_toList.1 hb
        obtain ⟨rfl, w, hheading, hbody⟩ := items_inside hi
        rcases hbody with ⟨x, hx, hitems⟩ | ⟨-, rfl⟩
        · have hlt : x.length < t.length := by
            have h₁ := (Leaves.suffix hheading).length_le
            have h₂ := (skip_suffix w).length_le
            rw [hx, List.length_cons] at h₂
            omega
          obtain ⟨q, u, ho⟩ := ih x.length hlt hitems hbelow rfl
          exact ⟨q, u, .inside hi hheading hx ho⟩
        · exact (hcomments [] hbelow).elim
    · have hlt : v.length < t.length := Nat.lt_of_lt_of_le (Consumes.shorter hi) hskip
      obtain ⟨q, u, ho⟩ := ih v.length hlt hr hw rfl
      exact ⟨q, u, .behind hi ho⟩

end

/-! ## files -/

/-- The elements of a file at all depths are what is read off its text, but for the comments. -/
theorem within_iff_origin {source : Text} {es : List Element} (h : parse source = .ok es)
    {e : Element} (he : e.isComment = false) : Within e es ↔ ∃ q u, Origin e q u .file source := by
  constructor
  · intro hw
    exact exists_origin (parse_eq_ok.1 h) hw he
  · rintro ⟨q, u, ho⟩
    exact ho.within (parse_eq_ok.1 h)

end ProtoDocs
