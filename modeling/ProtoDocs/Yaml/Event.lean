import ProtoDocs.Yaml.Scanner

/-!
# The structure of a YAML text

The tokens of a text make up a stream of documents, each a tree of nodes, which is given as events in
the order of the text. Events are found one by one: a stack says what is expected next.

* `Event`           the beginnings and ends of the parts of a stream, and its scalars and aliases;
* `Expected`        what may come next;
* `EventReader`     the tokens that are left, and the stack of what is expected;
* `EventReader.next`   one more event.
-/

namespace ProtoDocs.Yaml

inductive Event
  | streamStart | streamEnd | documentStart | documentEnd
  | alias (name : Text)
  | scalar (anchor tag : Option Text) (text : Text) (style : Style)
  | sequenceStart (anchor tag : Option Text)
  | sequenceEnd
  | mappingStart (anchor tag : Option Text)
  | mappingEnd
  deriving DecidableEq, Repr

/-- what may come next; the parts of a collection know where it was opened -/
inductive Expected
  | stream
  | firstDocument | document | documentContent | documentEnd
  | blockNode
  | blockEntry (opened : Mark)
  | indentlessEntry
  | blockKey (opened : Mark)
  | blockValue (opened : Mark)
  | flowEntry (first : Bool) (opened : Mark)
  | pairKey | pairValue | pairEnd
  | flowKey (first : Bool) (opened : Mark)
  | flowValue
  | emptyFlowValue
  deriving DecidableEq, Repr

structure EventReader where
  tokens : Scanner
  stack : List Expected
  /-- the tag handles of the document, and what they stand for -/
  handles : List (Text × Text)

namespace EventReader

def ofText (t : Text) : EventReader :=
  { tokens := .ofText t, stack := [.stream], handles := [] }

/-- an event and its place, and the reader behind it -/
abbrev Found := Except Fault ((Event × Mark) × EventReader)

def peek (r : EventReader) : Except Fault (Token × EventReader) := do
  let (t, tokens) ← r.tokens.peek
  return (t, { r with tokens := tokens })

def skip (r : EventReader) : EventReader := { r with tokens := r.tokens.skip }

def push (r : EventReader) (e : Expected) : EventReader := { r with stack := e :: r.stack }

def found (r : EventReader) (e : Event) (m : Mark) : Found := .ok ((e, m), r)

def emptyNode (r : EventReader) (m : Mark) : Found := r.found (.scalar none none [] .plain) m

/-! ## directives -/

def defaultHandles : List (Text × Text) :=
  [("!".toList, "!".toList), ("!!".toList, "tag:yaml.org,2002:".toList)]

/-- the directives in front of a document, at most `n` -/
def directives (seen : Bool) (r : EventReader) : Nat → Except Fault EventReader
  | 0 => .ok r
  | n + 1 => do
    let (t, r) ← r.peek
    match t.kind with
    | .version major minor =>
      if seen then .error (.alone .duplicateVersion t.start)
      else if major ≠ 1 ∨ (minor ≠ 1 ∧ minor ≠ 2) then .error (.alone .badVersion t.start)
      else directives true r.skip n
    | .tagHandle handle lead =>
      if (r.handles.lookup handle).isSome then .error (.alone .duplicateTagDirective t.start)
      else directives seen { r.skip with handles := r.handles ++ [(handle, lead)] } n
    | _ => return { r with handles := r.handles ++ defaultHandles }

/-! ## nodes -/

/-- the anchor and the tag in front of a node, and the place where they begin -/
structure Properties where
  anchor : Option Text
  tag : Option (Text × Text × Mark)
  start : Mark

/-- anchor and tag in either order -/
def properties (r : EventReader) : Except Fault (Properties × EventReader) := do
  let (t, r) ← r.peek
  match t.kind with
  | .anchor name =>
    let (u, r) ← r.skip.peek
    match u.kind with
    | .tag handle suffix => return (⟨some name, some (handle, suffix, u.start), t.start⟩, r.skip)
    | _ => return (⟨some name, none, t.start⟩, r)
  | .tag handle suffix =>
    let (u, r) ← r.skip.peek
    match u.kind with
    | .anchor name => return (⟨some name, some (handle, suffix, t.start), t.start⟩, r.skip)
    | _ => return (⟨none, some (handle, suffix, t.start), t.start⟩, r)
  | _ => return (⟨none, none, t.start⟩, r)

/-- a tag with its handle resolved -/
def resolve (r : EventReader) (p : Properties) : Except Fault (Option Text) :=
  match p.tag with
  | none => .ok none
  | some (handle, suffix, m) =>
    if handle.isEmpty then .ok (some suffix)
    else match r.handles.lookup handle with
      | some lead => .ok (some (lead ++ suffix))
      | none => .error (.during .undefinedHandle m .node p.start)

/-- a node, in a block or in a flow collection; `indentless` allows a sequence that is no deeper than
the mapping around it -/
def node (r : EventReader) (block indentless : Bool) : Found := do
  let (t, r) ← r.peek
  match t.kind with
  | .alias name => r.skip.found (.alias name) t.start
  | _ =>
    let (p, r) ← r.properties
    let tag ← r.resolve p
    let (t, r) ← r.peek
    match t.kind with
    | .scalar text style =>
      r.skip.found (.scalar p.anchor (if tag = some ['!'] then none else tag) text style) p.start
    | .flowSequenceStart =>
      (r.skip.push (.flowEntry true t.start)).found (.sequenceStart p.anchor tag) p.start
    | .flowMappingStart =>
      (r.skip.push (.flowKey true t.start)).found (.mappingStart p.anchor tag) p.start
    | kind =>
      if indentless ∧ kind = .blockEntry then
        (r.push .indentlessEntry).found (.sequenceStart p.anchor tag) p.start
      else if block ∧ kind = .blockSequenceStart then
        (r.skip.push (.blockEntry t.start)).found (.sequenceStart p.anchor tag) p.start
      else if block ∧ kind = .blockMappingStart then
        (r.skip.push (.blockKey t.start)).found (.mappingStart p.anchor tag) p.start
      else if p.anchor.isSome ∨ tag.isSome then
        r.found (.scalar p.anchor tag [] .plain) p.start
      else
        .error (.during .noNodeContent t.start (if block then .blockNode else .flowNode) p.start)

/-! ## documents -/

/-- past the marks of a document's end, at most `n` -/
def skipDocumentEnds (r : EventReader) : Nat → Except Fault EventReader
  | 0 => .ok r
  | n + 1 => do
    let (t, r) ← r.peek
    if t.kind = .documentEnd then skipDocumentEnds r.skip n else return r

/-- the beginning of a document, or the end of the stream; the first document needs no mark -/
def documentStart (r : EventReader) (first : Bool) : Found := do
  let fuel := r.tokens.cursor.rest.length + r.tokens.queue.length + 1
  let r ← if first then .ok r else r.skipDocumentEnds fuel
  let (t, r) ← r.peek
  let begins := match t.kind with
    | .version _ _ => true
    | .tagHandle _ _ => true
    | .documentStart => true
    | _ => false
  if t.kind = .streamEnd then r.skip.found .streamEnd t.start
  else if first ∧ !begins then
    ({ r with handles := r.handles ++ defaultHandles }.push .documentEnd |>.push .blockNode).found
      .documentStart t.start
  else
    let r ← directives false r fuel
    let (u, r) ← r.peek
    if u.kind = .documentStart then
      (r.skip.push .documentEnd |>.push .documentContent).found .documentStart t.start
    else .error (.alone .noDocumentStart u.start)

/-- the content of a document behind its mark, which may be missing -/
def documentContent (r : EventReader) : Found := do
  let (t, r) ← r.peek
  match t.kind with
  | .version _ _ | .tagHandle _ _ | .documentStart | .documentEnd | .streamEnd =>
    r.emptyNode t.start
  | _ => r.node true false

def documentEnd (r : EventReader) : Found := do
  let (t, r) ← r.peek
  let r := if t.kind = .documentEnd then r.skip else r
  ({ r with handles := [] }.push .document).found .documentEnd t.start

/-! ## block collections -/

def blockEntry (r : EventReader) (opened : Mark) : Found := do
  let (t, r) ← r.peek
  match t.kind with
  | .blockEntry =>
    let (u, r) ← r.skip.peek
    let r := r.push (.blockEntry opened)
    if u.kind = .blockEntry ∨ u.kind = .blockEnd then r.emptyNode t.start.pass else r.node true false
  | .blockEnd => r.skip.found .sequenceEnd t.start
  | _ => .error (.during .noDash t.start .blockSequence opened)

def indentlessEntry (r : EventReader) : Found := do
  let (t, r) ← r.peek
  match t.kind with
  | .blockEntry =>
    let (u, r) ← r.skip.peek
    let r := r.push .indentlessEntry
    match u.kind with
    | .blockEntry | .key | .value | .blockEnd => r.emptyNode t.start.pass
    | _ => r.node true false
  | _ => r.found .sequenceEnd t.start

/-- the node behind a key or value mark of a block mapping, which may be missing -/
def blockMappingNode (r : EventReader) (m : Mark) : Found := do
  let (u, r) ← r.peek
  match u.kind with
  | .key | .value | .blockEnd => r.emptyNode m
  | _ => r.node true true

def blockKey (r : EventReader) (opened : Mark) : Found := do
  let (t, r) ← r.peek
  match t.kind with
  | .key => (r.skip.push (.blockValue opened)).blockMappingNode t.start.pass
  | .blockEnd => r.skip.found .mappingEnd t.start
  | _ => .error (.during .noKey t.start .blockMapping opened)

def blockValue (r : EventReader) (opened : Mark) : Found := do
  let (t, r) ← r.peek
  let r := r.push (.blockKey opened)
  match t.kind with
  | .value => r.skip.blockMappingNode t.start.pass
  | _ => r.emptyNode t.start

/-! ## flow collections -/

/-- past the comma in front of a part of a flow collection, which the first part has not -/
def comma (r : EventReader) (first : Bool) (problem : Problem) (activity : Activity) (opened : Mark) :
    Except Fault EventReader := do
  let (t, r) ← r.peek
  if first then return r
  else if t.kind = .flowEntry then return r.skip
  else .error (.during problem t.start activity opened)

def flowEntry (r : EventReader) (first : Bool) (opened : Mark) : Found := do
  let (t, r) ← r.peek
  if t.kind = .flowSequenceEnd then r.skip.found .sequenceEnd t.start
  else
    let r ← r.comma first .noCommaOrBracket .flowSequence opened
    let (t, r) ← r.peek
    match t.kind with
    | .flowSequenceEnd => r.skip.found .sequenceEnd t.start
    | .key =>
      (r.skip.push (.flowEntry false opened) |>.push .pairKey).found (.mappingStart none none) t.start
    | _ => (r.push (.flowEntry false opened)).node false false

/-- the key of a single pair in a flow sequence -/
def pairKey (r : EventReader) : Found := do
  let (t, r) ← r.peek
  let r := r.push .pairValue
  match t.kind with
  | .value | .flowEntry | .flowSequenceEnd => r.skip.emptyNode t.start.pass
  | _ => r.node false false

def pairValue (r : EventReader) : Found := do
  let (t, r) ← r.peek
  let r := r.push .pairEnd
  match t.kind with
  | .value =>
    let (u, r) ← r.skip.peek
    match u.kind with
    | .flowEntry | .flowSequenceEnd => r.emptyNode u.start
    | _ => r.node false false
  | _ => r.emptyNode t.start

def flowKey (r : EventReader) (first : Bool) (opened : Mark) : Found := do
  let (t, r) ← r.peek
  if t.kind = .flowMappingEnd then r.skip.found .mappingEnd t.start
  else
    let r ← r.comma first .noCommaOrBrace .flowMapping opened
    let (t, r) ← r.peek
    let inside := r.push (.flowKey false opened)
    match t.kind with
    | .flowMappingEnd => r.skip.found .mappingEnd t.start
    | .key =>
      let (u, r) ← (inside.push .flowValue).skip.peek
      match u.kind with
      | .value | .flowEntry | .flowMappingEnd => r.emptyNode u.start
      | _ => r.node false false
    | _ => (inside.push .emptyFlowValue).node false false

def flowValue (r : EventReader) : Found := do
  let (t, r) ← r.peek
  match t.kind with
  | .value =>
    let (u, r) ← r.skip.peek
    match u.kind with
    | .flowEntry | .flowMappingEnd => r.emptyNode u.start
    | _ => r.node false false
  | _ => r.emptyNode t.start

/-! ## one event -/

/-- one more event; behind the end of the stream there is nothing -/
def next (r : EventReader) : Found :=
  match r.stack with
  | [] => r.found .streamEnd r.tokens.mark
  | e :: stack =>
    let r := { r with stack := stack }
    match e with
    | .stream => do
      let (t, r) ← r.peek
      (r.skip.push .firstDocument).found .streamStart t.start
    | .firstDocument => r.documentStart true
    | .document => r.documentStart false
    | .documentContent => r.documentContent
    | .documentEnd => r.documentEnd
    | .blockNode => r.node true false
    | .blockEntry opened => r.blockEntry opened
    | .indentlessEntry => r.indentlessEntry
    | .blockKey opened => r.blockKey opened
    | .blockValue opened => r.blockValue opened
    | .flowEntry first opened => r.flowEntry first opened
    | .pairKey => r.pairKey
    | .pairValue => r.pairValue
    | .pairEnd => do
      let (t, r) ← r.peek
      r.found .mappingEnd t.start
    | .flowKey first opened => r.flowKey first opened
    | .flowValue => r.flowValue
    | .emptyFlowValue => do
      let (t, r) ← r.peek
      r.emptyNode t.start

end EventReader
end ProtoDocs.Yaml
