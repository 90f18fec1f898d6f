import ProtoDocs.Yaml.Tag

/-!
# The tokens of a YAML text, one after another

Tokens are found as they are asked for. Whether a scalar or collection is the key of a mapping shows
only at the colon behind it, so a token that may begin a key waits until that is known; then the key
token, and perhaps the start of its mapping, are put in front of it. A key must stand on one line and
be no longer than 1024 characters.

* `PossibleKey`       a place where a key may have begun;
* `Scanner`           the text that is left and the tokens that wait;
* `Scanner.fetch`     finds one more token;
* `Scanner.peek`      the next token, found first if need be;
* `Scanner.skip`      takes it away.
-/

namespace ProtoDocs.Yaml

/-- a place where a key may have begun: the number of its token among all, and whether nothing else may
stand there -/
structure PossibleKey where
  required : Bool
  number : Nat
  mark : Mark
  deriving DecidableEq, Repr

structure Scanner where
  cursor : Cursor
  started : Bool
  /-- the columns of the block collections around the cursor, the innermost first -/
  indents : List Int
  /-- where keys may have begun, for the innermost flow collection first and the block last -/
  keys : List (Option PossibleKey)
  /-- whether a key may begin at the cursor -/
  keyAllowed : Bool
  /-- the tokens that wait -/
  queue : List Token
  /-- the number of tokens taken away -/
  taken : Nat

namespace Scanner

def ofText (t : Text) : Scanner :=
  { cursor := ⟨.zero, t⟩, started := false, indents := [-1], keys := [none], keyAllowed := false,
    queue := [], taken := 0 }

def inFlow (s : Scanner) : Bool := 1 < s.keys.length

/-- the column of the block collection around the cursor -/
def indent (s : Scanner) : Int := s.indents.headD (-1)

def mark (s : Scanner) : Mark := s.cursor.mark

def push (s : Scanner) (k : TokenKind) : Scanner :=
  { s with queue := s.queue ++ [⟨k, s.mark⟩] }

/-- puts a token in front of the one with the given number -/
def insert (s : Scanner) (number : Nat) (t : Token) : Scanner :=
  { s with queue := s.queue.insertIdx (number - s.taken) t }

/-! ## keys -/

/-- forgets that a key may have begun, which is a fault if it had to -/
def dropKey (s : Scanner) : Except Fault Scanner :=
  match s.keys with
  | some k :: keys =>
    if k.required then .error (.during .noColon s.mark .simpleKey k.mark)
    else .ok { s with keys := none :: keys }
  | _ => .ok s

/-- remembers that a key may begin here -/
def saveKey (s : Scanner) : Except Fault Scanner :=
  if s.keyAllowed then do
    let s ← s.dropKey
    let key : PossibleKey :=
      { required := !s.inFlow && s.indent == s.mark.column, number := s.taken + s.queue.length,
        mark := s.mark }
    return { s with keys := some key :: s.keys.drop 1 }
  else .ok s

/-- whether a key that began at a place can no longer end at another -/
def isStale (k : PossibleKey) (m : Mark) : Bool :=
  k.mark.line < m.line || k.mark.index + 1024 < m.index

def dropStaleKeys (s : Scanner) : Except Fault Scanner := do
  let stale := s.keys.reverse.filterMap fun
    | some k => if isStale k s.mark then some k else none
    | none => none
  match stale.find? (·.required) with
  | some k => .error (.during .noColon s.mark .simpleKey k.mark)
  | none =>
    return { s with keys := s.keys.map fun
      | some k => if isStale k s.mark then none else some k
      | none => none }

/-! ## indentation -/

/-- begins a block collection at a column, if that is deeper than those around it -/
def rollIndent (s : Scanner) (column : Nat) (number? : Option Nat) (kind : TokenKind) (m : Mark) :
    Scanner :=
  if s.inFlow || (column : Int) ≤ s.indent then s
  else
    let s := { s with indents := (column : Int) :: s.indents }
    match number? with
    | some n => s.insert n ⟨kind, m⟩
    | none => { s with queue := s.queue ++ [⟨kind, m⟩] }

/-- ends the block collections that are deeper than a column -/
def unrollIndent (s : Scanner) (column : Int) : Scanner :=
  if s.inFlow then s
  else
    let ended := (s.indents.takeWhile (column < ·)).length
    { s with indents := s.indents.drop ended,
             queue := s.queue ++ List.replicate ended ⟨.blockEnd, s.mark⟩ }

/-! ## tokens -/

/-- a token of `n` characters at the cursor -/
def take (s : Scanner) (k : TokenKind) (n : Nat) : Scanner :=
  { s.push k with cursor := s.cursor.pass n }

/-- a scalar or the like that begins at the cursor and may be a key -/
def keyLike (s : Scanner) (read : Scanner → Except Fault (TokenKind × Cursor)) :
    Except Fault Scanner := do
  let s ← s.saveKey
  let s := { s with keyAllowed := false }
  let (kind, c) ← read s
  return { s.push kind with cursor := c }

/-- past blanks, line breaks and comments; in a block, a new line may begin a key, and tabs may not
stand where a key may begin -/
def toNextToken (s : Scanner) : Nat → Scanner
  | 0 => s
  | n + 1 =>
    let tabs := s.inFlow || !s.keyAllowed
    let c := if s.mark.index = 0 ∧ s.cursor.rest.head? = some '\uFEFF' then s.cursor.pass 1 else s.cursor
    let c := (c.passWhile fun x => x == ' ' || (tabs && x == '\t')).skipComment
    if c.rest.head?.any isBreak then
      toNextToken { s with cursor := c.skipBreak, keyAllowed := s.keyAllowed || !s.inFlow } n
    else { s with cursor := c }

def fetchStreamEnd (s : Scanner) : Except Fault Scanner := do
  let m := s.mark
  let s := if m.column = 0 then s
    else { s with cursor := { s.cursor with mark := ⟨m.index, m.line + 1, 0⟩ } }
  let s ← (s.unrollIndent (-1)).dropKey
  return { s with keyAllowed := false }.push .streamEnd

/-- what ends all collections of a block: a directive or the mark of a document -/
def fetchDirective (s : Scanner) : Except Fault Scanner := do
  let s ← (s.unrollIndent (-1)).dropKey
  let s := { s with keyAllowed := false }
  let (kind, c) ← directive s.cursor
  return { s.push kind with cursor := c }

def fetchDocumentMark (s : Scanner) (k : TokenKind) : Except Fault Scanner := do
  let s ← (s.unrollIndent (-1)).dropKey
  return { s with keyAllowed := false }.take k 3

def fetchFlowStart (s : Scanner) (k : TokenKind) : Except Fault Scanner := do
  let s ← s.saveKey
  return { s with keys := none :: s.keys, keyAllowed := true }.take k 1

def fetchFlowEnd (s : Scanner) (k : TokenKind) : Except Fault Scanner := do
  let s ← s.dropKey
  let keys := if s.inFlow then s.keys.drop 1 else s.keys
  return { s with keys := keys, keyAllowed := false }.take k 1

def fetchFlowEntry (s : Scanner) : Except Fault Scanner := do
  let s ← s.dropKey
  return { s with keyAllowed := true }.take .flowEntry 1

def fetchBlockEntry (s : Scanner) : Except Fault Scanner := do
  if !s.inFlow && !s.keyAllowed then .error (.alone .blockEntryHere s.mark)
  else
    let s ← (s.rollIndent s.mark.column none .blockSequenceStart s.mark).dropKey
    return { s with keyAllowed := true }.take .blockEntry 1

def fetchKey (s : Scanner) : Except Fault Scanner := do
  if !s.inFlow && !s.keyAllowed then .error (.alone .keyHere s.mark)
  else
    let s ← (s.rollIndent s.mark.column none .blockMappingStart s.mark).dropKey
    return { s with keyAllowed := !s.inFlow }.take .key 1

/-- a colon: if a key may have begun, it did, and its token goes where it began -/
def fetchValue (s : Scanner) : Except Fault Scanner :=
  match s.keys with
  | some k :: keys =>
    let s := s.insert k.number ⟨.key, k.mark⟩
    let s := s.rollIndent k.mark.column (some k.number) .blockMappingStart k.mark
    .ok ({ s with keys := none :: keys, keyAllowed := false }.take .value 1)
  | _ =>
    if !s.inFlow && !s.keyAllowed then .error (.alone .valueHere s.mark)
    else
      let s := s.rollIndent s.mark.column none .blockMappingStart s.mark
      .ok ({ s with keyAllowed := !s.inFlow }.take .value 1)

def fetchAnchor (s : Scanner) : Except Fault Scanner :=
  s.keyLike fun s => do
    let (name, c) ← anchorName .anchor s.cursor
    return (.anchor name, c)

def fetchAlias (s : Scanner) : Except Fault Scanner :=
  s.keyLike fun s => do
    let (name, c) ← anchorName .alias s.cursor
    return (.alias name, c)

def fetchTag (s : Scanner) : Except Fault Scanner :=
  s.keyLike fun s => do
    let (handle, suffix, c) ← tag s.inFlow s.cursor
    return (.tag handle suffix, c)

def fetchQuoted (s : Scanner) (single : Bool) : Except Fault Scanner :=
  s.keyLike fun s => do
    let c := s.cursor.pass 1
    let (text, c) ← quoted single s.mark .none c.mark c.rest
    return (.scalar text .quoted, c)

/-- a plain scalar; behind its last line break a key may begin -/
def fetchPlain (s : Scanner) : Except Fault Scanner := do
  let s ← s.saveKey
  let (text, c, broken) ← plain s.inFlow (s.indent + 1) s.mark .none s.mark s.cursor.rest
  return { s.push (.scalar text .plain) with cursor := c, keyAllowed := broken }

def fetchBlockScalar (s : Scanner) (literal : Bool) : Except Fault Scanner := do
  let s ← s.dropKey
  let (text, c) ← blockScalar literal s.mark s.indent (s.cursor.pass 1)
  return { s.push (.scalar text .block) with cursor := c, keyAllowed := true }

/-- whether a plain scalar may begin with the text -/
def beginsPlain (inFlow : Bool) : Text → Bool
  | [] => false
  | c :: t =>
    if c = '-' then !(t.head?.any isGap)
    else if c = '?' ∨ c = ':' then !inFlow && !atBlank t
    else !isGap c && !isBreak c && !(",[]\x7b\x7d#&*!|>'\"%@`".toList.contains c)

def fetch (s : Scanner) : Except Fault Scanner :=
  if !s.started then
    .ok ({ s with started := true, keyAllowed := true }.push .streamStart)
  else do
    let s := s.toNextToken (s.cursor.rest.length + 1)
    let s ← s.dropStaleKeys
    let s := s.unrollIndent s.mark.column
    match s.cursor.rest with
    | [] => s.fetchStreamEnd
    | c :: t =>
      if s.mark.column = 0 ∧ c = '%' then s.fetchDirective
      else if s.mark.column = 0 ∧ atDocumentMark (c :: t) then
        s.fetchDocumentMark (if c = '-' then .documentStart else .documentEnd)
      else if c = '[' then s.fetchFlowStart .flowSequenceStart
      else if c = '{' then s.fetchFlowStart .flowMappingStart
      else if c = ']' then s.fetchFlowEnd .flowSequenceEnd
      else if c = '}' then s.fetchFlowEnd .flowMappingEnd
      else if c = ',' then s.fetchFlowEntry
      else if c = '-' ∧ atBlank t then s.fetchBlockEntry
      else if c = '?' ∧ (s.inFlow ∨ atBlank t) then s.fetchKey
      else if c = ':' ∧ (s.inFlow ∨ atBlank t) then s.fetchValue
      else if c = '*' then s.fetchAlias
      else if c = '&' then s.fetchAnchor
      else if c = '!' then s.fetchTag
      else if c = '|' ∧ !s.inFlow then s.fetchBlockScalar true
      else if c = '>' ∧ !s.inFlow then s.fetchBlockScalar false
      else if c = '\x27' then s.fetchQuoted true
      else if c = '"' then s.fetchQuoted false
      else if beginsPlain s.inFlow (c :: t) then s.fetchPlain
      else .error (.during .noToken s.mark .nextToken s.mark)

/-! ## asking for tokens -/

/-- whether the first waiting token may still get a key token in front of it -/
def headMayBeKey (s : Scanner) : Bool :=
  s.keys.any fun
    | some k => k.number == s.taken
    | none => false

/-- finds tokens, at most `n`, until the first one is sure -/
def settle (s : Scanner) : Nat → Except Fault Scanner
  | 0 => .ok s
  | n + 1 =>
    if s.queue.isEmpty then do
      let s ← s.fetch
      s.settle n
    else do
      let s ← s.dropStaleKeys
      if s.headMayBeKey then
        let s ← s.fetch
        s.settle n
      else return s

def peek (s : Scanner) : Except Fault (Token × Scanner) := do
  let s ← s.settle (s.cursor.rest.length + 4)
  match s.queue with
  | t :: _ => return (t, s)
  | [] => return (⟨.streamEnd, s.mark⟩, s)

def skip (s : Scanner) : Scanner :=
  { s with queue := s.queue.drop 1, taken := s.taken + 1 }

end Scanner
end ProtoDocs.Yaml
