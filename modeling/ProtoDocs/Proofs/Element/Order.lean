import ProtoDocs.Proofs.Element.Attach

/-!
# The order of looking up

A look-up tries an element before what is in it, and what is in it before the next element of the
level, and it stops at the first match.  What it finds is thus the first match in a listing of the
tree.  The listing goes by positions alone, so it is the same with comments attached, and the match
is found where it was found before.

* `elementAt`            the element at a position of a tree;
* `listed`               the elements that a look-up can come to, with their positions;
* `position?`            the position of the first match;
* `mem_listed_iff`, `listed_sorted`   what the listing holds, and in which order;
* `find?_first`          looking up is looking through the listing.
-/

namespace ProtoDocs

/-! ## positions -/

/-- the elements that a look-up goes through below an element: those of a message -/
def Element.searched : Element → List Element
  | .block _ (.message _) body => body
  | _ => []

section
variable (inside : Element → List Element)

def Element.descend : List Nat → Element → Option Element
  | [], e => some e
  | i :: path, e => (inside e)[i]?.bind (Element.descend path)

/-- the element at a position of a tree: a place on the first level, and the steps from there -/
def elementAt : List Nat → List Element → Option Element
  | [], _ => none
  | i :: path, es => es[i]?.bind (Element.descend inside path)

end

mutual

/-- the elements of a level in the order of a look-up, where the first one has the place `i` -/
def listedFrom : Nat → List Element → List (List Nat × Element)
  | _, [] => []
  | i, e :: es => (e.listed.map fun x => (i :: x.1, x.2)) ++ listedFrom (i + 1) es

def Element.listed (e : Element) : List (List Nat × Element) :=
  ([], e) :: match e with
    | .block _ (.message _) body => listedFrom 0 body
    | _ => []

end

/-- the elements that a look-up can come to, in its order, with their positions -/
def listed (es : List Element) : List (List Nat × Element) :=
  listedFrom 0 es

def position? (kind : Kind) (name : Text) (es : List Element) : Option (List Nat) :=
  ((listed es).find? fun x => x.2.declares kind name).map Prod.fst

/-! ## the listing -/

theorem Element.listed_eq (e : Element) : e.listed = ([], e) :: listedFrom 0 e.searched := by
  cases e with
  | comment t => rfl
  | statement cs s => rfl
  | block cs h body => cases h <;> rfl

mutual

/-- From the place `i` on, the listing of a level holds what stands there or inside of it. -/
theorem mem_listedFrom_iff (i : Nat) (es : List Element) (path : List Nat) (e : Element) :
    (path, e) ∈ listedFrom i es ↔
      ∃ k rest, path = (i + k) :: rest ∧ elementAt Element.searched (k :: rest) es = some e := by
  cases es with
  | nil => simp [listedFrom, elementAt]
  | cons e' es =>
    rw [listedFrom, List.mem_append, List.mem_map, mem_listedFrom_iff (i + 1) es]
    constructor
    · rintro (⟨⟨rest, e⟩, hmem, ⟨⟩⟩ | ⟨k, rest, rfl, h⟩)
      · exact ⟨0, rest, rfl, (Element.mem_listed_iff e' rest e).1 hmem⟩
      · exact ⟨k + 1, rest, by rw [Nat.add_assoc, Nat.add_comm 1 k], h⟩
    · rintro ⟨k, rest, rfl, h⟩
      cases k with
      | zero => exact .inl ⟨(rest, e), (Element.mem_listed_iff e' rest e).2 h, rfl⟩
      | succ k => exact .inr ⟨k, rest, by rw [Nat.add_assoc, Nat.add_comm 1 k], h⟩

theorem Element.mem_listed_iff (e : Element) (path : List Nat) (e' : Element) :
    (path, e') ∈ e.listed ↔ Element.descend Element.searched path e = some e' := by
  have hinside : (path, e') ∈ listedFrom 0 e.searched ↔
      ∃ k rest, path = k :: rest ∧ elementAt Element.searched (k :: rest) e.searched = some e' := by
    have hnil : (path, e') ∈ listedFrom 0 [] ↔
        ∃ k rest, path = k :: rest ∧ elementAt Element.searched (k :: rest) [] = some e' := by
      simp [listedFrom, elementAt]
    cases e with
    | comment t => exact hnil
    | statement cs s => exact hnil
    | block cs h body =>
      cases h with
      | message name =>
        have hbody := mem_listedFrom_iff 0 body path e'
        simp only [Nat.zero_add] at hbody
        exact hbody
      | _ => exact hnil
  rw [Element.listed_eq, List.mem_cons, hinside]
  cases path with
  | nil => simp [Element.descend, eq_comm]
  | cons k rest => simp [Element.descend, elementAt]

end

theorem mem_listed_iff (path : List Nat) (e : Element) (es : List Element) :
    (path, e) ∈ listed es ↔ elementAt Element.searched path es = some e := by
  rw [listed, mem_listedFrom_iff]
  cases path with
  | nil => simp [elementAt]
  | cons i rest => simp

mutual

/-- The listing goes from left to right, and from an element to those in it. -/
theorem listedFrom_sorted (i : Nat) (es : List Element) :
    (listedFrom i es).Pairwise fun x y => x.1 < y.1 := by
  cases es with
  | nil => exact .nil
  | cons e es =>
    rw [listedFrom, List.pairwise_append, List.pairwise_map]
    refine ⟨(Element.listed_sorted e).imp fun h => ?_, listedFrom_sorted (i + 1) es, ?_⟩
    · exact List.cons_lt_cons_iff.2 (.inr ⟨rfl, h⟩)
    · rintro x hx ⟨path, e'⟩ hy
      obtain ⟨y, -, rfl⟩ := List.mem_map.1 hx
      obtain ⟨k, rest, rfl, -⟩ := (mem_listedFrom_iff (i + 1) es path e').1 hy
      exact List.cons_lt_cons_iff.2 (.inl (by omega))

theorem Element.listed_sorted (e : Element) : e.listed.Pairwise fun x y => x.1 < y.1 := by
  have hinside : (listedFrom 0 e.searched).Pairwise fun x y => x.1 < y.1 := by
    cases e with
    | comment t => exact .nil
    | statement cs s => exact .nil
    | block cs h body =>
      cases h with
      | message name => exact listedFrom_sorted 0 body
      | _ => exact .nil
  rw [Element.listed_eq, List.pairwise_cons]
  refine ⟨?_, hinside⟩
  rintro ⟨path, e'⟩ hy
  obtain ⟨k, rest, rfl, -⟩ := (mem_listedFrom_iff 0 _ path e').1 hy
  exact List.nil_lt_cons _ _

end

/-! ## looking up -/

mutual

theorem find?_listedFrom (kind : Kind) (name : Text) (i : Nat) (es : List Element) :
    find? kind name es =
      ((listedFrom i es).find? fun x => x.2.declares kind name).map Prod.snd := by
  cases es with
  | nil => rfl
  | cons e es =>
    rw [find?, listedFrom, List.find?_append, Option.map_or,
      ← find?_listedFrom kind name (i + 1) es,
      List.find?_map, Option.map_map, Element.find?_listed]
    rfl

theorem Element.find?_listed (kind : Kind) (name : Text) (e : Element) :
    e.find? kind name = (e.listed.find? fun x => x.2.declares kind name).map Prod.snd := by
  rw [Element.find?.eq_def, Element.listed_eq, List.find?_cons]
  cases hd : e.declares kind name with
  | true => simp
  | false =>
    simp only [Bool.false_eq_true, if_false]
    cases e with
    | comment t => rfl
    | statement cs s => rfl
    | block cs h body =>
      cases h with
      | message name' => exact find?_listedFrom kind name 0 body
      | _ => rfl

end

theorem Element.searched_eq_body_or_nil (e : Element) : e.searched = e.body ∨ e.searched = [] := by
  cases e with
  | comment t => exact .inr rfl
  | statement cs s => exact .inr rfl
  | block cs h body => cases h <;> first | exact .inl rfl | exact .inr rfl

theorem Element.descend_body {path : List Nat} {e e' : Element}
    (h : Element.descend Element.searched path e = some e') :
    Element.descend Element.body path e = some e' := by
  induction path generalizing e with
  | nil => exact h
  | cons i path ih =>
    obtain ⟨x, hx, h⟩ := Option.bind_eq_some_iff.1 h
    rcases e.searched_eq_body_or_nil with he | he
    · exact Option.bind_eq_some_iff.2 ⟨x, he ▸ hx, ih h⟩
    · simp [he] at hx

/-- What is listed stands at its position. -/
theorem elementAt_body {path : List Nat} {e : Element} {es : List Element}
    (h : elementAt Element.searched path es = some e) :
    elementAt Element.body path es = some e := by
  cases path with
  | nil => exact h
  | cons i path =>
    obtain ⟨x, hx, h⟩ := Option.bind_eq_some_iff.1 h
    exact Option.bind_eq_some_iff.2 ⟨x, hx, Element.descend_body h⟩

/-- What is found is what stands at the position of the first match. -/
theorem find?_eq_position (kind : Kind) (name : Text) (es : List Element) :
    find? kind name es = (position? kind name es).bind (elementAt Element.body · es) := by
  rw [find?_listedFrom kind name 0 es, position?, listed]
  cases h : (listedFrom 0 es).find? fun x => x.2.declares kind name with
  | none => rfl
  | some x =>
    have hx := elementAt_body ((mem_listed_iff x.1 x.2 es).1 (List.mem_of_find?_eq_some h))
    simp [hx]

/-! ## attached comments -/

mutual

theorem listedFrom_bare (i : Nat) (es : List Element) :
    listedFrom i (bare es) = (listedFrom i es).map fun x => (x.1, x.2.bare) := by
  cases es with
  | nil => rfl
  | cons e es =>
    rw [bare, listedFrom, listedFrom, Element.listed_bare, listedFrom_bare (i + 1) es,
      List.map_append, List.map_map, List.map_map]
    rfl

theorem Element.listed_bare (e : Element) :
    e.bare.listed = e.listed.map fun x => (x.1, x.2.bare) := by
  have hinside : listedFrom 0 e.bare.searched =
      (listedFrom 0 e.searched).map fun x => (x.1, x.2.bare) := by
    cases e with
    | comment t => rfl
    | statement cs s => rfl
    | block cs h body =>
      cases h with
      | message name => exact listedFrom_bare 0 body
      | _ => rfl
  rw [Element.listed_eq, Element.listed_eq, hinside, List.map_cons]

end

theorem position?_bare (kind : Kind) (name : Text) (es : List Element) :
    position? kind name (bare es) = position? kind name es := by
  rw [position?, position?, listed, listed, listedFrom_bare, List.find?_map, Option.map_map]
  simp only [Function.comp_def, Element.declares_bare]

theorem position?_attach (kind : Kind) (name : Text) (es : List Element) :
    position? kind name (attach es) = position? kind name es := by
  rw [← position?_bare, attach, bare_attachAfter, position?_bare]

/-! ## types -/

def Kind.heading : Kind → Text → Heading
  | .message => .message
  | .enum => .enum
  | .service => .service

def TypeBlock.element (kind : Kind) (b : TypeBlock) : Element :=
  .block b.comments (kind.heading b.name) b.body

theorem Element.typeBlock?_of_declares {kind : Kind} {name : Text} {e : Element}
    (h : e.declares kind name = true) :
    (e.typeBlock? kind).map (TypeBlock.element kind) = some e := by
  rw [Element.declares, Bool.and_eq_true, beq_iff_eq, beq_iff_eq] at h
  obtain ⟨-, hkind⟩ := h
  cases e with
  | comment t => cases hkind
  | statement cs s => cases hkind
  | block cs h body => cases h <;> cases hkind <;> rfl

/-- What is found has the parts of a type of its kind. -/
theorem findType?_element (kind : Kind) (name : Text) (es : List Element) :
    (findType? kind name es).map (TypeBlock.element kind) = find? kind name es := by
  rw [findType?]
  cases h : find? kind name es with
  | none => rfl
  | some e =>
    rw [find?_listedFrom kind name 0 es, Option.map_eq_some_iff] at h
    obtain ⟨x, hx, rfl⟩ := h
    have hdeclares := List.find?_some hx
    exact Element.typeBlock?_of_declares hdeclares

/-! ## first matches -/

/-- **What is found is the first match in the order of the text**, where a message comes before what
is in it.  The listing goes by ascending positions and holds what can be reached through messages.
Looking up a type gives the same element, taken apart.  With comments attached, what is found is at
the same position. -/
theorem find?_first (kind : Kind) (name : Text) (es : List Element) :
    (((listed es).Pairwise fun x y => x.1 < y.1) ∧
      ∀ path e, (path, e) ∈ listed es ↔ elementAt Element.searched path es = some e) ∧
    (find? kind name es = ((listed es).map Prod.snd).find? (Element.declares kind name) ∧
      (find? kind name es = none ↔ ∀ x ∈ listed es, x.2.declares kind name = false)) ∧
    (findType? kind name es).map (TypeBlock.element kind) = find? kind name es ∧
    find? kind name es = (position? kind name es).bind (elementAt Element.body · es) ∧
    find? kind name (attach es) =
      (position? kind name es).bind (elementAt Element.body · (attach es)) := by
  have hfirst :
      find? kind name es = ((listed es).map Prod.snd).find? (Element.declares kind name) := by
    rw [List.find?_map]
    exact find?_listedFrom kind name 0 es
  have hnone : find? kind name es = none ↔ ∀ x ∈ listed es, x.2.declares kind name = false := by
    rw [hfirst, List.find?_eq_none, List.forall_mem_map]
    simp only [Bool.not_eq_true]
  refine ⟨⟨listedFrom_sorted 0 es, fun path e => mem_listed_iff path e es⟩, ⟨hfirst, hnone⟩,
    findType?_element kind name es, find?_eq_position kind name es, ?_⟩
  rw [find?_eq_position, position?_attach]

end ProtoDocs
