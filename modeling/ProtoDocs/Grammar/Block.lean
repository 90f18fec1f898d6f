import ProtoDocs.Grammar.Statement

/-!
# Reading blocks

Blocks are read with the elements between their braces: the comments there, and the statements and
blocks that their kind allows. An empty statement is a semicolon and no element. Messages nest, in
themselves and through oneofs, groups and extensions; the readers of such blocks take the reader of
the inner message body as an argument.

* `items`         the elements up to the first thing that is none;
* `messageBody`   the body of a message, with messages nested to a given depth;
* `message`, `enum`, `service`, `oneof`, `extend`, `group`, `method`   the blocks.
-/

namespace ProtoDocs.Reader

/-! ## elements in a row -/

/-- a statement or block where elements are expected; an empty statement is none -/
abbrev ItemReader := Reader (Option Element)

def ofStatement (p : Reader Statement) : ItemReader := do
  let s ← p
  return some (.statement [] s)

def ofBlock (p : Reader Element) : ItemReader := do
  let e ← p
  return some e

def emptyStatement : ItemReader := do
  mark ';'
  return none

def commentedItem (item : ItemReader) : Reader (List Element) := do
  let comments ← gap
  let e ← item
  return comments.map .comment ++ e.toList

def items (item : ItemReader) : Reader (List Element) := do
  let es ← many (commentedItem item)
  let comments ← gap
  return es.flatten ++ comments.map .comment

def body (s : Symbol) (item : ItemReader) : Reader (List Element) := named s do
  mark '{'
  let es ← items item
  mark '}'
  return es

/-! ## blocks without messages in them -/

def enum : Reader Element := named .enumDef do
  keyword .enum
  let name ← next ident
  let es ← next (body .enumBody (oneOf
    [ofStatement setting, ofStatement reserved, ofStatement enumValue, emptyStatement]))
  return .block [] (.enum name) es

def side : Reader Side := named .rpcType do
  let stream ← optional (token .stream Lexeme.stream)
  let type ← next typeRef
  return ⟨type.name, stream.isSome⟩

def sideInParens : Reader Side := do
  mark '('
  let side ← next side
  next (mark ')')
  return side

/-- the options of a method between braces, or a semicolon in place of a block -/
def methodBody : Reader (List Element) :=
  orElse (body .rpcBody (oneOf [ofStatement setting, emptyStatement])) do
    mark ';'
    return []

def method : Reader Element := named .rpc do
  keyword .rpc
  let name ← next ident
  let input ← next sideInParens
  next (keyword .returns)
  let output ← next sideInParens
  let es ← next methodBody
  return .block [] (.method name input output) es

def service : Reader Element := named .service do
  keyword .service
  let name ← next ident
  let es ← next (body .serviceBody (oneOf [ofStatement setting, ofBlock method, emptyStatement]))
  return .block [] (.service name) es

/-! ## blocks with messages in them -/

variable (inner : Reader (List Element))

def message : Reader Element := named .message do
  keyword .message
  let name ← next ident
  let es ← next inner
  return .block [] (.message name) es

/-- a field that declares its own message -/
def group : Reader Element := named .group do
  let label ← optional label
  next (keyword .group)
  let name ← next ident
  next (mark '=')
  let number ← next fieldNumber
  let options ← next memberOptions
  let es ← next inner
  return .block [] (.group name number label options) es

def oneof : Reader Element := named .oneof do
  keyword .oneof
  let name ← next ident
  let es ← next (body .oneofBody (oneOf
    [ofStatement setting, ofBlock (group inner), ofStatement field, emptyStatement]))
  return .block [] (.oneof name) es

def extend : Reader Element := named .extend do
  keyword .extend
  let type ← next typeRef
  let es ← next (body .extendBody (oneOf [ofBlock (group inner), ofStatement field, emptyStatement]))
  return .block [] (.extend type.name) es

/-- what a message may hold: an option and the block words come before a field, since their words
could begin the type of one -/
def messageItem : ItemReader := oneOf
  [ofStatement setting, ofBlock (message inner), ofBlock enum, ofBlock (oneof inner),
    ofStatement mapField, ofBlock (extend inner), ofStatement reserved, ofStatement extensions,
    ofBlock (group inner), ofStatement field, emptyStatement]

def fileItem : ItemReader := oneOf
  [ofStatement language, ofStatement edition, ofStatement package, ofStatement importing,
    ofStatement setting, ofBlock (message inner), ofBlock enum, ofBlock service,
    ofBlock (extend inner), emptyStatement]

omit inner

/-- the body of a message, where message bodies nest less than `depth` deep -/
def messageBody : Nat → Reader (List Element)
  | 0 => fail
  | depth + 1 => body .messageBody (messageItem (messageBody depth))

end ProtoDocs.Reader
