import ProtoDocs.Yaml.Event

/-!
# Documents of a YAML text

The first document of a text, as the row of its nodes in the order of the text, as far as it could be
read. Aliases are linked to the nodes that they stand for.

* `Item`              a scalar, an alias, or the beginning or end of a collection;
* `Document`          the items, and what is wrong behind them;
* `Document.ofText`   the first document of a text.
-/

namespace ProtoDocs.Yaml

/-- a part of a document; an alias has the number of its anchor -/
inductive Item
  | void
  | alias (anchor : Nat)
  | scalar (tag : Option Text) (text : Text) (style : Style)
  | sequenceStart | sequenceEnd | mappingStart | mappingEnd
  deriving DecidableEq, Repr

inductive DocumentFault
  | fault (f : Fault)
  | unknownAnchor (m : Mark)
  deriving DecidableEq, Repr

structure Document where
  items : List (Item × Mark)
  /-- the number of an anchor, and how many items are in front of its node; the first entry counts -/
  anchored : List (Nat × Nat)
  fault : Option DocumentFault
  /-- whether there is anything behind the document -/
  followed : Bool

/-! ## characters -/

/-- the characters that a text may be made of -/
def isAllowed (c : Char) : Bool :=
  let n := c.toNat
  n == 0x09 || n == 0x0A || n == 0x0D || (0x20 ≤ n && n ≤ 0x7E) || n == 0x85 ||
    (0xA0 ≤ n && n ≤ 0xD7FF) || (0xE000 ≤ n && n ≤ 0xFFFD) || 0x10000 ≤ n

/-- the offset in bytes of the first character that is not allowed, behind `offset` bytes -/
def forbiddenOffset? (offset : Nat) : Text → Option Nat
  | [] => none
  | c :: t => if isAllowed c then forbiddenOffset? (offset + c.utf8Size) t else some offset

/-- the text behind a byte order mark, whose characters are all allowed -/
def readable (t : Text) : Except Fault Text :=
  let (offset, t) := match t with
    | '\uFEFF' :: t => (3, t)
    | t => (0, t)
  match forbiddenOffset? offset t with
  | some o => .error { problem := .controlCharacter, place := .zero, reading := none, offset := o }
  | none => .ok t

/-! ## items -/

/-- what has been read of a document -/
structure Loading where
  items : List (Item × Mark)
  /-- the names of anchors and their numbers, the last one given first -/
  names : List (Text × Nat)
  anchored : List (Nat × Nat)

namespace Loading

def empty : Loading := ⟨[], [], []⟩

def add (l : Loading) (i : Item) (m : Mark) : Loading :=
  { l with items := l.items ++ [(i, m)] }

/-- gives an anchor a number, the count of different names so far -/
def bindAnchor (l : Loading) (anchor : Option Text) : Loading :=
  match anchor with
  | none => l
  | some name =>
    let number := (l.names.map (·.1)).eraseDups.length
    { l with names := (name, number) :: l.names,
             anchored := (number, l.items.length) :: l.anchored }

def document (l : Loading) (fault : Option DocumentFault) (followed : Bool) : Document :=
  ⟨l.items, l.anchored, fault, followed⟩

end Loading

/-- whether the stream goes on behind a document -/
def goesOn (r : EventReader) : Bool :=
  match r.next with
  | .ok ((.streamEnd, _), _) => false
  | _ => true

/-- the rest of the first document, of at most `n` events -/
def loadItems (l : Loading) (r : EventReader) : Nat → Document
  | 0 => l.document none false
  | n + 1 =>
    match r.next with
    | .error f => l.document (some (.fault f)) false
    | .ok ((e, m), r) =>
      match e with
      | .streamStart | .documentStart => loadItems l r n
      | .streamEnd => (l.add .void m).document none false
      | .documentEnd => l.document none (goesOn r)
      | .alias name => match l.names.lookup name with
        | some number => loadItems (l.add (.alias number) m) r n
        | none => l.document (some (.unknownAnchor m)) false
      | .scalar anchor tag text style =>
        loadItems ((l.bindAnchor anchor).add (.scalar tag text style) m) r n
      | .sequenceStart anchor _ => loadItems ((l.bindAnchor anchor).add .sequenceStart m) r n
      | .mappingStart anchor _ => loadItems ((l.bindAnchor anchor).add .mappingStart m) r n
      | .sequenceEnd => loadItems (l.add .sequenceEnd m) r n
      | .mappingEnd => loadItems (l.add .mappingEnd m) r n

namespace Document

/-- the first document of a text; a text without one has a single void item -/
def ofText (t : Text) : Document :=
  match readable t with
  | .error f => Loading.empty.document (some (.fault f)) false
  | .ok t => loadItems .empty (.ofText t) (16 * (t.length + 2))

/-- the item that an anchor number stands for -/
def target? (d : Document) (anchor : Nat) : Option (Item × Mark) :=
  (d.anchored.lookup anchor).bind fun i => d.items[i]?

/-- the items behind a node whose collections are open `depth` deep, if the document has them all -/
def skipNode? : Nat → List (Item × Mark) → Option (List (Item × Mark))
  | _, [] => none
  | depth, (i, _) :: rest =>
    let depth := match i with
      | .sequenceStart | .mappingStart => depth + 1
      | .sequenceEnd | .mappingEnd => depth - 1
      | _ => depth
    if depth = 0 then some rest else skipNode? depth rest

end Document
end ProtoDocs.Yaml
