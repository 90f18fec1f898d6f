import ProtoDocs.Proofs.Grammar.Nesting

/-!
# Blocks as headings with bodies

Every block is a heading, then a gap, then a body, and the body holds items of its kind between
braces.  The readers of blocks read the one and then the other, so that what is said about bodies
need not be said for every kind of block.

* `Place`              where elements stand: in a file or in the body of a block;
* `Place.admits`, `Place.admitsBlock`   what may stand there;
* `Reader.itemAt`      the reader of the items at a place;
* `Reader.statementLike`, `Reader.blockLike`   the reader of a declaration of the kind of another;
* `Reader.headingLike`, `Reader.bodyOf`        the readers of the two parts of a block;
* `Reader.Gives`       every value that the reader gives has a property.

`blockLike_eq_some` takes a block apart, `bodyOf_eq_some` its body, and `itemAt_readsItems` says
that the place admits an item that is read there, and that it is read by the reader of its own kind.
-/

namespace ProtoDocs

open Reader

inductive Place
  | file | message | enum | service | method | oneof | extend
  deriving DecidableEq, Repr

def Heading.place : Heading → Place
  | .message _ => .message
  | .enum _ => .enum
  | .service _ => .service
  | .method _ _ _ => .method
  | .oneof _ => .oneof
  | .group _ _ _ _ => .message
  | .extend _ => .extend

def Place.admits : Place → Statement → Bool
  | .file, .language _ | .file, .edition _ | .file, .package _ | .file, .importing _ _ => true
  | .file, .setting _ | .message, .setting _ | .enum, .setting _ | .service, .setting _ => true
  | .method, .setting _ | .oneof, .setting _ => true
  | .message, .field _ | .oneof, .field _ | .extend, .field _ => true
  | .message, .mapField _ | .message, .extensions _ => true
  | .message, .reserved _ | .enum, .reserved _ => true
  | .enum, .enumValue _ => true
  | _, _ => false

def Place.admitsBlock : Place → Heading → Bool
  | .file, .message _ | .file, .enum _ | .file, .service _ | .file, .extend _ => true
  | .message, .message _ | .message, .enum _ | .message, .oneof _ | .message, .extend _ => true
  | .message, .group .. | .oneof, .group .. | .extend, .group .. => true
  | .service, .method .. => true
  | _, _ => false

def Heading.isMethod : Heading → Prop
  | .method _ _ _ => True
  | _ => False

namespace Reader

variable {α β : Type}

def itemAt : Place → ItemReader
  | .file => fileItem nestedBody
  | .message => messageItem nestedBody
  | .enum => oneOf
      [ofStatement setting, ofStatement reserved, ofStatement enumValue, emptyStatement]
  | .service => oneOf [ofStatement setting, ofBlock method, emptyStatement]
  | .method => oneOf [ofStatement setting, emptyStatement]
  | .oneof => oneOf
      [ofStatement setting, ofBlock (group nestedBody), ofStatement field, emptyStatement]
  | .extend => oneOf [ofBlock (group nestedBody), ofStatement field, emptyStatement]

instance (p : Place) : Consumes (itemAt p) := by
  cases p <;> unfold itemAt <;> infer_instance

/-- the reader of statements of this kind -/
def statementLike : Statement → Reader Statement
  | .language _ => language
  | .edition _ => edition
  | .package _ => package
  | .importing _ _ => importing
  | .setting _ => setting
  | .field _ => field
  | .mapField _ => mapField
  | .enumValue _ => enumValue
  | .reserved _ => reserved
  | .extensions _ => extensions

def blockLike : Heading → Reader Element
  | .message _ => message nestedBody
  | .enum _ => enum
  | .service _ => service
  | .method _ _ _ => method
  | .oneof _ => oneof nestedBody
  | .group _ _ _ _ => group nestedBody
  | .extend _ => extend nestedBody

def headingLike : Heading → Reader Heading
  | .message _ => do
    keyword .message
    let name ← next ident
    return .message name
  | .enum _ => do
    keyword .enum
    let name ← next ident
    return .enum name
  | .service _ => do
    keyword .service
    let name ← next ident
    return .service name
  | .method _ _ _ => do
    keyword .rpc
    let name ← next ident
    let input ← next sideInParens
    next (keyword .returns)
    let output ← next sideInParens
    return .method name input output
  | .oneof _ => do
    keyword .oneof
    let name ← next ident
    return .oneof name
  | .group _ _ _ _ => do
    let label ← optional label
    next (keyword .group)
    let name ← next ident
    next (mark '=')
    let number ← next fieldNumber
    let options ← next memberOptions
    return .group name number label options
  | .extend _ => do
    keyword .extend
    let type ← next typeRef
    return .extend type.name

def bodyOf : Heading → Reader (List Element)
  | .message _ => nestedBody
  | .enum _ => body .enumBody (itemAt .enum)
  | .service _ => body .serviceBody (itemAt .service)
  | .method _ _ _ => methodBody
  | .oneof _ => body .oneofBody (itemAt .oneof)
  | .group _ _ _ _ => nestedBody
  | .extend _ => body .extendBody (itemAt .extend)

/-! ## taking blocks apart -/

/-- A block is a heading, a gap and a body. -/
theorem blockLike_result (h : Heading) (t : Text) :
    (blockLike h t).result =
      ((do
        let heading ← headingLike h
        let es ← next (bodyOf h)
        return .block [] heading es : Reader Element) t).result := by
  cases h <;>
    simp only [blockLike, headingLike, bodyOf, message, enum, service, method, oneof, group, extend,
      result_named, result_bind, result_pure, itemAt, Option.bind_assoc, Option.bind_some]

theorem blockLike_eq_some {h : Heading} {t r : Text} {e : Element} :
    (blockLike h t).result = some (e, r) ↔
      ∃ heading es u, (headingLike h t).result = some (heading, u) ∧
        (bodyOf h (skip u).2).result = some (es, r) ∧ e = .block [] heading es := by
  rw [blockLike_result, bind_eq_some]
  constructor
  · rintro ⟨heading, u, hu, h⟩
    obtain ⟨es, v, hv, h⟩ := bind_eq_some.1 h
    rw [result_next] at hv
    cases h
    exact ⟨heading, es, u, hu, hv, rfl⟩
  · rintro ⟨heading, es, u, hu, hv, rfl⟩
    exact ⟨heading, u, hu, bind_eq_some.2 ⟨es, r, by rwa [result_next], rfl⟩⟩

theorem body_eq_some {s : Symbol} {item : ItemReader} {t r : Text} {es : List Element} :
    (body s item t).result = some (es, r) ↔
      ∃ u, t = '{' :: u ∧ (items item u).result = some (es, '}' :: r) := by
  rw [body, result_named, bind_eq_some]
  constructor
  · rintro ⟨_, u, hu, h⟩
    obtain ⟨es', v, hv, h⟩ := bind_eq_some.1 h
    obtain ⟨_, w, hw, h⟩ := bind_eq_some.1 h
    cases h
    rw [mark_eq_some] at hu hw
    exact ⟨u, hu, by rwa [← hw]⟩
  · rintro ⟨u, rfl, h⟩
    exact ⟨(), u, mark_eq_some.2 rfl, bind_eq_some.2 ⟨es, '}' :: r, h,
      bind_eq_some.2 ⟨(), r, mark_eq_some.2 rfl, rfl⟩⟩⟩

theorem nestedBody_eq_some {t r : Text} {es : List Element} :
    (nestedBody t).result = some (es, r) ↔
      ∃ u, t = '{' :: u ∧ (items (itemAt .message) u).result = some (es, '}' :: r) := by
  rw [nestedBody_eq]
  exact body_eq_some

theorem methodBody_eq_some {t r : Text} {es : List Element} :
    (methodBody t).result = some (es, r) ↔
      (∃ u, t = '{' :: u ∧ (items (itemAt .method) u).result = some (es, '}' :: r)) ∨
        es = [] ∧ t = ';' :: r := by
  rw [methodBody, orElse_eq_some]
  refine or_congr body_eq_some ?_
  rw [bind_eq_some]
  constructor
  · rintro ⟨_, ⟨_, u, hu, h⟩⟩
    cases h
    exact ⟨rfl, mark_eq_some.1 hu⟩
  · rintro ⟨rfl, rfl⟩
    refine ⟨?_, (), r, mark_eq_some.2 rfl, rfl⟩
    rw [Option.eq_none_iff_forall_ne_some]
    rintro ⟨es, v⟩ h
    obtain ⟨u, hu, _⟩ := body_eq_some.1 h
    simp at hu

/-- A body is what stands between its braces; that of a method may be a semicolon instead. -/
theorem bodyOf_eq_some {h : Heading} {t r : Text} {es : List Element} :
    (bodyOf h t).result = some (es, r) ↔
      (∃ u, t = '{' :: u ∧ (items (itemAt h.place) u).result = some (es, '}' :: r)) ∨
        h.isMethod ∧ es = [] ∧ t = ';' :: r := by
  cases h with
  | message name => simpa [bodyOf, Heading.place, Heading.isMethod] using nestedBody_eq_some
  | enum name => simpa [bodyOf, Heading.place, Heading.isMethod] using body_eq_some
  | service name => simpa [bodyOf, Heading.place, Heading.isMethod] using body_eq_some
  | method name input output =>
    simpa [bodyOf, Heading.place, Heading.isMethod] using methodBody_eq_some
  | oneof name => simpa [bodyOf, Heading.place, Heading.isMethod] using body_eq_some
  | group name number label options =>
    simpa [bodyOf, Heading.place, Heading.isMethod] using nestedBody_eq_some
  | extend type => simpa [bodyOf, Heading.place, Heading.isMethod] using body_eq_some

/-! ## what readers give -/

/-- every value that the reader gives has the property -/
def Gives (p : Reader α) (P : α → Prop) : Prop :=
  ∀ t a r, (p t).result = some (a, r) → P a

namespace Gives

theorem pure {a : α} {P : α → Prop} (h : P a) : Gives (Pure.pure a) P := by
  intro t b r hb
  cases hb
  exact h

theorem bind {p : Reader α} {f : α → Reader β} {P : α → Prop} {Q : β → Prop} (hp : Gives p P)
    (hf : ∀ a, P a → Gives (f a) Q) : Gives (p >>= f) Q := by
  intro t b r hb
  obtain ⟨a, u, ha, hb⟩ := bind_eq_some.1 hb
  exact hf a (hp t a u ha) u b r hb

theorem step {p : Reader α} {f : α → Reader β} {Q : β → Prop} (hf : ∀ a, Gives (f a) Q) :
    Gives (p >>= f) Q :=
  bind (P := fun _ => True) (fun _ _ _ _ => trivial) fun a _ => hf a

theorem named {s : Symbol} {p : Reader α} {P : α → Prop} (h : Gives p P) :
    Gives (Reader.named s p) P := by
  intro t a r ha
  rw [result_named] at ha
  exact h t a r ha

theorem orElse {p q : Reader α} {P : α → Prop} (hp : Gives p P) (hq : Gives q P) :
    Gives (Reader.orElse p q) P := by
  intro t a r ha
  rcases orElse_eq_some.1 ha with ha | ⟨_, ha⟩
  · exact hp t a r ha
  · exact hq t a r ha

end Gives

theorem headingLike_gives (h : Heading) :
    Gives (headingLike h) fun h' => h'.ctorIdx = h.ctorIdx := by
  cases h with
  | message name => exact .step fun _ => .step fun _ => .pure rfl
  | enum name => exact .step fun _ => .step fun _ => .pure rfl
  | service name => exact .step fun _ => .step fun _ => .pure rfl
  | method name input output =>
    exact .step fun _ => .step fun _ => .step fun _ => .step fun _ => .step fun _ => .pure rfl
  | oneof name => exact .step fun _ => .step fun _ => .pure rfl
  | group name number label options =>
    exact .step fun _ => .step fun _ => .step fun _ => .step fun _ => .step fun _ => .step fun _ =>
      .pure rfl
  | extend type => exact .step fun _ => .step fun _ => .pure rfl

theorem statementLike_gives (s : Statement) :
    Gives (statementLike s) fun s' => s'.ctorIdx = s.ctorIdx := by
  cases s with
  | language version =>
    exact .named (.step fun _ => .step fun _ => .step fun _ => .step fun _ => .pure rfl)
  | edition version =>
    exact .named (.step fun _ => .step fun _ => .step fun _ => .step fun _ => .pure rfl)
  | package name => exact .named (.step fun _ => .step fun _ => .step fun _ => .pure rfl)
  | importing path modifier =>
    exact .named (.step fun _ => .step fun _ => .step fun _ => .step fun _ => .pure rfl)
  | setting option => exact .named (.step fun _ => .step fun _ => .step fun _ => .pure rfl)
  | field f =>
    exact .named (.step fun _ => .step fun _ => .step fun _ => .step fun _ => .step fun _ =>
      .step fun _ => .step fun _ => .pure rfl)
  | mapField m =>
    exact .named (.step fun _ => .step fun _ => .step fun _ => .step fun _ => .step fun _ =>
      .step fun _ => .step fun _ => .step fun _ => .step fun _ => .step fun _ => .step fun _ =>
        .pure rfl)
  | enumValue v =>
    exact .named (.step fun _ => .step fun _ => .step fun _ => .step fun _ => .step fun _ =>
      .pure rfl)
  | reserved ranges => exact .named (.step fun _ => .step fun _ => .step fun _ => .pure rfl)
  | extensions ranges => exact .named (.step fun _ => .step fun _ => .step fun _ => .pure rfl)

theorem statementLike_congr {s s' : Statement} (h : s'.ctorIdx = s.ctorIdx) :
    statementLike s' = statementLike s := by
  cases s <;> cases s' <;> first | (simp [Statement.ctorIdx] at h; done) | rfl

theorem blockLike_congr {h h' : Heading} (hh : h'.ctorIdx = h.ctorIdx) :
    blockLike h' = blockLike h := by
  cases h <;> cases h' <;> first | (simp [Heading.ctorIdx] at hh; done) | rfl

theorem blockLike_gives (h : Heading) :
    Gives (blockLike h) fun e => ∃ h' es, e = .block [] h' es ∧ h'.ctorIdx = h.ctorIdx := by
  intro t e r he
  obtain ⟨h', es, u, hh, _, rfl⟩ := blockLike_eq_some.1 he
  exact ⟨h', es, rfl, headingLike_gives h t h' u hh⟩

end Reader

/-- What a place admits is a matter of kinds. -/
theorem Place.admits_congr {s s' : Statement} (h : s'.ctorIdx = s.ctorIdx) (p : Place) :
    p.admits s' = p.admits s := by
  cases s <;> cases s' <;>
    first | (simp [Statement.ctorIdx] at h; done) | (cases p <;> rfl)

theorem Place.admitsBlock_congr {h h' : Heading} (hh : h'.ctorIdx = h.ctorIdx) (p : Place) :
    p.admitsBlock h' = p.admitsBlock h := by
  cases h <;> cases h' <;>
    first | (simp [Heading.ctorIdx] at hh; done) | (cases p <;> rfl)

namespace Reader

/-! ## items -/

/-- In front of `r`, `t` holds an item of the place: a semicolon, or a statement or block that the
place admits and that the reader of its kind reads. -/
inductive IsItem (p : Place) (t r : Text) : Option Element → Prop
  | empty : t = ';' :: r → IsItem p t r none
  | statement {s : Statement} : p.admits s = true → (statementLike s t).result = some (s, r) →
      IsItem p t r (some (.statement [] s))
  | block {h : Heading} {es : List Element} : p.admitsBlock h = true →
      (blockLike h t).result = some (.block [] h es, r) → IsItem p t r (some (.block [] h es))

def ReadsItems (p : Place) (item : ItemReader) : Prop :=
  ∀ t e r, (item t).result = some (e, r) → IsItem p t r e

namespace ReadsItems

variable {p : Place}

theorem emptyStatement : ReadsItems p emptyStatement := by
  intro t e r h
  obtain ⟨_, u, hu, h⟩ := bind_eq_some.1 h
  cases h
  exact .empty (mark_eq_some.1 hu)

theorem ofStatement {s : Statement} (hp : p.admits s = true) :
    ReadsItems p (ofStatement (statementLike s)) := by
  intro t e r h
  obtain ⟨s', u, hs, h⟩ := bind_eq_some.1 h
  cases h
  have hkind := statementLike_gives s t s' _ hs
  exact .statement (by rwa [p.admits_congr hkind]) (by rwa [statementLike_congr hkind])

theorem ofBlock {h : Heading} (hp : p.admitsBlock h = true) :
    ReadsItems p (ofBlock (blockLike h)) := by
  intro t e r he
  obtain ⟨e', u, hb, he⟩ := bind_eq_some.1 he
  cases he
  obtain ⟨h', es, rfl, hkind⟩ := blockLike_gives h t e' _ hb
  exact .block (by rwa [p.admitsBlock_congr hkind]) (by rwa [blockLike_congr hkind])

theorem nil : ReadsItems p (oneOf []) := by
  intro t e r h
  simp [oneOf, fail] at h

theorem cons {item : ItemReader} {items : List ItemReader} (hitem : ReadsItems p item)
    (hitems : ReadsItems p (oneOf items)) : ReadsItems p (oneOf (item :: items)) := by
  intro t e r h
  rcases orElse_eq_some.1 h with h | ⟨_, h⟩
  · exact hitem t e r h
  · exact hitems t e r h

end ReadsItems

/-- An item of a place is read by the reader of its kind, and the place admits it. -/
theorem itemAt_readsItems (p : Place) : ReadsItems p (itemAt p) := by
  have hsetting (hp : p.admits (.setting ⟨[], []⟩) = true) : ReadsItems p (ofStatement setting) :=
    .ofStatement hp
  have hfield (hp : p.admits (.field ⟨[], 0, .named [], none, []⟩) = true) :
      ReadsItems p (ofStatement field) := .ofStatement hp
  have hreserved (hp : p.admits (.reserved []) = true) : ReadsItems p (ofStatement reserved) :=
    .ofStatement hp
  have hgroup (hp : p.admitsBlock (.group [] 0 none []) = true) :
      ReadsItems p (ofBlock (group nestedBody)) := .ofBlock hp
  have hmessage (hp : p.admitsBlock (.message []) = true) :
      ReadsItems p (ofBlock (message nestedBody)) := .ofBlock hp
  have henum (hp : p.admitsBlock (.enum []) = true) : ReadsItems p (ofBlock enum) := .ofBlock hp
  have hextend (hp : p.admitsBlock (.extend []) = true) :
      ReadsItems p (ofBlock (extend nestedBody)) := .ofBlock hp
  cases p with
  | file =>
    exact .cons (.ofStatement (s := .language []) rfl) (.cons (.ofStatement (s := .edition []) rfl)
      (.cons (.ofStatement (s := .package []) rfl)
        (.cons (.ofStatement (s := .importing [] none) rfl) (.cons (hsetting rfl)
          (.cons (hmessage rfl) (.cons (henum rfl) (.cons (.ofBlock (h := .service []) rfl)
            (.cons (hextend rfl) (.cons .emptyStatement .nil)))))))))
  | message =>
    exact .cons (hsetting rfl) (.cons (hmessage rfl) (.cons (henum rfl)
      (.cons (.ofBlock (h := .oneof []) rfl)
        (.cons (.ofStatement (s := .mapField ⟨[], 0, .named [], .named [], []⟩) rfl)
          (.cons (hextend rfl) (.cons (hreserved rfl)
            (.cons (.ofStatement (s := .extensions []) rfl) (.cons (hgroup rfl)
              (.cons (hfield rfl) (.cons .emptyStatement .nil))))))))))
  | enum =>
    exact .cons (hsetting rfl) (.cons (hreserved rfl)
      (.cons (.ofStatement (s := .enumValue ⟨[], 0, []⟩) rfl) (.cons .emptyStatement .nil)))
  | service =>
    exact .cons (hsetting rfl) (.cons (.ofBlock (h := .method [] ⟨[], false⟩ ⟨[], false⟩) rfl)
      (.cons .emptyStatement .nil))
  | method => exact .cons (hsetting rfl) (.cons .emptyStatement .nil)
  | oneof =>
    exact .cons (hsetting rfl) (.cons (hgroup rfl) (.cons (hfield rfl)
      (.cons .emptyStatement .nil)))
  | extend => exact .cons (hgroup rfl) (.cons (hfield rfl) (.cons .emptyStatement .nil))

/-! ## files -/

theorem endOfInput_eq_some {t : Text} {x : Unit × Text} :
    (endOfInput t).result = some x ↔ t = [] ∧ x.2 = [] := by
  obtain ⟨u, r⟩ := x
  unfold endOfInput
  cases t with
  | nil => simp [eq_comm]
  | cons c t => simp

theorem file_eq_some {t r : Text} {es : List Element} :
    (Reader.file t).result = some (es, r) ↔
      (items (itemAt .file) t).result = some (es, []) ∧ r = [] := by
  rw [file_eq, result_named, bind_eq_some]
  constructor
  · rintro ⟨es', u, hu, h⟩
    obtain ⟨_, v, hv, h⟩ := bind_eq_some.1 h
    cases h
    obtain ⟨rfl, hr⟩ := endOfInput_eq_some.1 hv
    exact ⟨hu, hr⟩
  · rintro ⟨h, rfl⟩
    exact ⟨es, [], h, bind_eq_some.2 ⟨(), [], endOfInput_eq_some.2 ⟨rfl, rfl⟩, rfl⟩⟩

end Reader

/-- A file is items in a row up to its end. -/
theorem parse_eq_ok {source : Text} {es : List Element} :
    parse source = .ok es ↔ (items (itemAt .file) source).result = some (es, []) := by
  rcases hf : (Reader.file source).result with _ | ⟨es', r⟩
  · simp only [parse, hf, reduceCtorEq, false_iff]
    intro h
    rw [file_eq_some.2 ⟨h, rfl⟩] at hf
    simp at hf
  · obtain ⟨hitems, -⟩ := file_eq_some.1 hf
    simp [parse, hf, hitems]

end ProtoDocs
