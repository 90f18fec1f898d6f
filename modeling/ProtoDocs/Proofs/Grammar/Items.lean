import ProtoDocs.Proofs.Grammar.Gap

/-!
# Items in a row

The reading of items goes on as long as there are any: each time with the comments in front of the
item, and at last with the comments that no item follows.

* `items_of_none`, `items_of_some`   no item, or an item and further ones;
* `items_space`, `items_comment`, `items_cons`, `items_nil`   the same by what stands in front.
-/

namespace ProtoDocs.Reader

open Lexeme

variable {α : Type} {p : Reader α} {item : ItemReader}

theorem optional_of_some {t r : Text} {a : α} (h : (p t).result = some (a, r)) :
    (Reader.optional p t).result = some (some a, r) := by
  rw [Reader.optional, result_orElse, result_bind, h]
  rfl

theorem optional_of_none {t : Text} (h : (p t).result = none) :
    (Reader.optional p t).result = some (none, t) := by
  rw [Reader.optional, result_orElse, result_bind, h]
  rfl

theorem result_many (p : Reader α) (t : Text) : (many p t).result = some (repeated p t).1 := rfl

theorem repeated_of_none {t : Text} (h : (p t).result = none) : (repeated p t).1 = ([], t) := by
  rcases hp : p t with ⟨_ | x, tried⟩
  · rw [repeated, hp]
  · simp [hp] at h

theorem repeated_of_some [Consumes p] {t r : Text} {a : α} (h : (p t).result = some (a, r)) :
    (repeated p t).1 = (a :: (repeated p r).1.1, (repeated p r).1.2) := by
  rcases hp : p t with ⟨_ | ⟨a', r'⟩, tried⟩
  · simp [hp] at h
  · rw [hp] at h
    cases h
    have hlt : r.length < t.length := Consumes.shorter (p := p) (by rw [hp])
    rw [repeated, hp]
    simp only [if_pos hlt]

theorem commentedItem_result (item : ItemReader) (t : Text) :
    (commentedItem item t).result =
      (item (skip t).2).result.map fun x =>
        ((skip t).1.map .comment ++ x.1.toList, x.2) := by
  rw [commentedItem, result_bind]
  show ((do let e ← item; return ((skip t).1.map .comment ++ e.toList) : Reader _) _).result = _
  rw [result_bind]
  cases (item (skip t).2).result <;> rfl

theorem items_result (item : ItemReader) (t : Text) :
    (items item t).result =
      some ((repeated (commentedItem item) t).1.1.flatten ++
        (skip (repeated (commentedItem item) t).1.2).1.map .comment,
        (skip (repeated (commentedItem item) t).1.2).2) := by
  rw [items, result_bind, result_many]
  rfl

/-- Where no item stands, only comments are read. -/
theorem items_of_none {t : Text} (h : (item (skip t).2).result = none) :
    (items item t).result = some ((skip t).1.map .comment, (skip t).2) := by
  have hnone : (commentedItem item t).result = none := by rw [commentedItem_result, h]; rfl
  rw [items_result, repeated_of_none hnone]
  rfl

/-- Behind an item, reading goes on. -/
theorem items_of_some [Consumes item] {t r s : Text} {e : Option Element} {es : List Element}
    (h : (item (skip t).2).result = some (e, r)) (hr : (items item r).result = some (es, s)) :
    (items item t).result = some ((skip t).1.map .comment ++ (e.toList ++ es), s) := by
  have hsome : (commentedItem item t).result =
      some ((skip t).1.map .comment ++ e.toList, r) := by
    rw [commentedItem_result, h]
    rfl
  rw [items_result, repeated_of_some hsome]
  rw [items_result] at hr
  cases hr
  simp

/-- The reading of items never fails. -/
theorem exists_items (item : ItemReader) (t : Text) :
    ∃ es s, (items item t).result = some (es, s) :=
  ⟨_, _, items_result item t⟩

/-! ## by what stands in front -/

theorem items_congr_skip [Consumes item] {t u : Text} (h : skip t = skip u) :
    (items item t).result = (items item u).result := by
  cases hi : (item (skip t).2).result with
  | none => rw [items_of_none hi, items_of_none (h ▸ hi), h]
  | some x =>
    obtain ⟨es, s, hr⟩ := exists_items item x.2
    rw [items_of_some (e := x.1) hi hr, items_of_some (e := x.1) (h ▸ hi) hr, h]

theorem items_space [Consumes item] {c : Char} (hc : isSpace c) (t : Text) :
    (items item (c :: t)).result = (items item t).result :=
  items_congr_skip (skip_space hc t)

theorem items_spaces [Consumes item] {u : Text} (hu : ∀ c ∈ u, isSpace c = true) (t : Text) :
    (items item (u ++ t)).result = (items item t).result := by
  induction u with
  | nil => rfl
  | cons c u ih =>
    rw [List.forall_mem_cons] at hu
    exact (items_space hu.1 _).trans (ih hu.2)

theorem items_comment [Consumes item] {c r s : Text} {es : List Element} (hc : CommentBefore c r)
    (h : (items item r).result = some (es, s)) :
    (items item (c ++ r)).result = some (.comment c :: es, s) := by
  have hskip := skip_comment hc
  cases hi : (item (skip r).2).result with
  | none =>
    rw [items_of_none hi] at h
    cases h
    rw [items_of_none (by rw [hskip]; exact hi), hskip]
    rfl
  | some x =>
    obtain ⟨es', s', hr⟩ := exists_items item x.2
    rw [items_of_some (e := x.1) hi hr] at h
    cases h
    rw [items_of_some (e := x.1) (by rw [hskip]; exact hi) hr, hskip]
    rfl

/-- An item with nothing to skip in front of it comes before the others. -/
theorem items_cons [Consumes item] {t r s : Text} {e : Option Element} {es : List Element}
    (ht : Firm t) (h : (item t).result = some (e, r)) (hr : (items item r).result = some (es, s)) :
    (items item t).result = some (e.toList ++ es, s) := by
  have hskip := skip_of_firm ht
  rw [items_of_some (by rw [hskip]; exact h) hr, hskip]
  rfl

theorem items_nil {t : Text} (ht : Firm t) (h : (item t).result = none) :
    (items item t).result = some ([], t) := by
  have hskip := skip_of_firm ht
  rw [items_of_none (by rw [hskip]; exact h), hskip]
  rfl

end ProtoDocs.Reader
