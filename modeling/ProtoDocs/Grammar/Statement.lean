import ProtoDocs.Element.Basic
import ProtoDocs.Grammar.Number
import ProtoDocs.Grammar.Reader
import ProtoDocs.Text.Blank

/-!
# Reading statements

The declarations without a block, from their first word to their semicolon. Every reader here reads
one kind of statement and fails on the others; their order is chosen where they are used.

* `language`, `edition`, `package`, `importing`   the statements of a file;
* `setting`                   an option;
* `field`, `mapField`, `enumValue`   members of messages and enums;
* `reserved`, `extensions`    ranges of numbers, kept as written.
-/

namespace ProtoDocs

/-- the contents of a string literal: both quotes removed, escapes left as they are -/
def unquoted (t : Text) : Text := (t.drop 1).dropLast

/-- the type that a name refers to; a name with a dot in front is never a scalar -/
def TypeRef.ofWritten : Text → TypeRef
  | '.' :: name => .named name
  | t => .ofName t

def Label.ofWord (t : Text) : Label :=
  if t = "repeated".toList then .repeated
  else if t = "required".toList then .required
  else .optional

namespace Reader

/-! ## tokens -/

def keyword (k : Keyword) : Reader Unit := do
  let _ ← token (.keyword k) (Lexeme.keyword k)

def ident : Reader Text := token .ident Lexeme.ident

def string : Reader Text := do
  let t ← token .stringLit Lexeme.stringLit
  return unquoted t

def typeRef : Reader TypeRef := do
  let t ← token .typeRef Lexeme.typeRef
  return .ofWritten t

def label : Reader Label := do
  let t ← token .label Lexeme.label
  return .ofWord t

def importModifier : Reader ImportModifier := do
  let t ← token .importModifier Lexeme.importModifier
  return if t = "weak".toList then .weak else .shared

def fieldNumber : Reader Nat := do
  let t ← token .fieldNumber Lexeme.fieldNumber
  return Number.fieldNumber t

def enumNumber : Reader Int := do
  let t ← token .enumNumber Lexeme.enumNumber
  return Number.enumNumber t

/-- the ranges of a statement as written, without blanks at the ends -/
def ranges : Reader Text := do
  let t ← token .rangeBody Lexeme.rangeBody
  return t.trim

/-! ## options -/

def assignment : Reader Setting := do
  let name ← token .optionName Lexeme.optionName
  next (mark '=')
  let value ← next (token .constant Lexeme.constant)
  return ⟨name, value⟩

def setting : Reader Statement := named .option do
  keyword .option
  let s ← next assignment
  next (mark ';')
  return .setting s

def fieldOption : Reader MemberOption := named .fieldOption do
  let s ← assignment
  return { s with comments := [] }

def fieldOptions : Reader (List MemberOption) := named .fieldOptions do
  mark '['
  let first ← next fieldOption
  let more ← many do
    next (mark ',')
    next fieldOption
  next (mark ']')
  return first :: more

/-- the options of a member, none if there are no brackets -/
def memberOptions : Reader (List MemberOption) := do
  let options ← optional fieldOptions
  return options.getD []

/-! ## statements of a file -/

def language : Reader Statement := named .language do
  keyword .language
  next (mark '=')
  let version ← next string
  next (mark ';')
  return .language version

def edition : Reader Statement := named .edition do
  keyword .edition
  next (mark '=')
  let version ← next string
  next (mark ';')
  return .edition version

def package : Reader Statement := named .package do
  keyword .package
  let name ← next (token .fullIdent Lexeme.fullIdent)
  next (mark ';')
  return .package name

def importing : Reader Statement := named .importing do
  keyword .importing
  let modifier ← next (optional importModifier)
  let path ← next string
  next (mark ';')
  return .importing path modifier

/-! ## members -/

def field : Reader Statement := named .field do
  let label ← optional label
  let type ← next typeRef
  let name ← next ident
  next (mark '=')
  let number ← next fieldNumber
  let options ← next memberOptions
  next (mark ';')
  return .field { name, number, type, label, options }

def mapField : Reader Statement := named .mapField do
  keyword .map
  next (mark '<')
  let key ← next typeRef
  next (mark ',')
  let value ← next typeRef
  next (mark '>')
  let name ← next ident
  next (mark '=')
  let number ← next fieldNumber
  let options ← next memberOptions
  next (mark ';')
  return .mapField { name, number, key, value, options }

def enumValue : Reader Statement := named .enumValue do
  let name ← ident
  next (mark '=')
  let number ← next enumNumber
  let options ← next memberOptions
  next (mark ';')
  return .enumValue { name, number, options }

def reserved : Reader Statement := named .reserved do
  keyword .reserved
  let ranges ← next ranges
  next (mark ';')
  return .reserved ranges

def extensions : Reader Statement := named .extensions do
  keyword .extensions
  let ranges ← next ranges
  next (mark ';')
  return .extensions ranges

end Reader
end ProtoDocs
