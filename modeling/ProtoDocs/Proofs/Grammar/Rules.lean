import ProtoDocs.Proofs.Grammar.Block
import ProtoDocs.Proofs.Grammar.Brackets
import ProtoDocs.Proofs.Grammar.Leftover

/-!
# The rules of the grammar

The grammar of schema files, rule by rule.  Most rules are named parts of the grammar; the others
have no name in reports.  Each rule is a phrase over rules, and beside it stands what recognises the
rule: its recogniser, or its reader without the value.

* `Rule`                 the rules;
* `Rule.body`            the phrase of a rule; between tokens, and in front of items, it skips gaps;
* `Rule.scan`            what is left behind the rule, by its recogniser or reader.
-/

namespace ProtoDocs

inductive Rule
  | named (s : Symbol)
  | space | identChar | intLit | exponent | floatLit | aggregate | listValue | rawComment
  | optionNamePart | emptyStatement | fileElement | messageElement | oneofElement | extendElement
  | enumElement | serviceElement | rpcTail
  deriving DecidableEq, Repr

namespace Phrase

/-! ## kinds of phrases -/

section
variable {R : Type}

@[simp] def row : List (Phrase R) → Phrase R
  | [] => nothing
  | [e] => e
  | e :: es => seq e (row es)

@[simp] def choice : List (Phrase R) → Phrase R
  | [] => not nothing
  | [e] => e
  | e :: es => alt e (choice es)

@[simp] def opt (e : Phrase R) : Phrase R := alt e nothing

@[simp] def plus (e : Phrase R) : Phrase R := seq e (star e)

@[simp] def any : Phrase R := one fun _ => true

@[simp] def mark (c : Char) : Phrase R := one (· == c)

def unlike (e : Phrase R) : Phrase R := row [not e, any]

@[simp] theorem scan_unlike (σ : R → Scan) (e : Phrase R) :
    (unlike e).scan σ = Scan.unlike (e.scan σ) := rfl

end

@[simp] def part (s : Symbol) : Phrase Rule := rule (.named s)

@[simp] def keyword (k : Keyword) : Phrase Rule := part (.keyword k)

/-- blanks and comments, as they are skipped between tokens -/
def gap : Phrase Rule := seq (star (rule .space)) (star (seq (part .comment) (star (rule .space))))

@[simp] def next (e : Phrase Rule) : Phrase Rule := seq gap e

@[simp] def items (e : Phrase Rule) : Phrase Rule := spaced gap e

@[simp] def block (e : Phrase Rule) : Phrase Rule :=
  row [mark '{', next (items e), next (mark '}')]

def newline : Phrase Rule := choice [word ['\n'], word ['\r', '\n'], word ['\r']]

/-- the word `w` where it does not go on as an identifier -/
@[simp] def wholeWord (w : Text) : Phrase Rule := row [word w, not (rule .identChar)]

/-- the text between two quotes `q` -/
def quoted (q : Char) : Phrase Rule :=
  row [mark q,
    star (choice [row [mark '\\', any], unlike (choice [mark q, mark '\\', newline])]),
    mark q]

/-- two slashes and the rest of the line, or a block -/
def commentForm : Phrase Rule := choice [
  row [word ['/', '/'], star (unlike newline)],
  row [word ['/', '*'], star (unlike (word ['*', '/'])), word ['*', '/']]]

/-- what brackets enclose, besides further bracketed text -/
def bracketed (opening closing : Char) (inner : List (Phrase Rule)) : Phrase Rule :=
  row [mark opening,
    star (choice ([part .stringLit, rule .rawComment] ++ inner ++ [unlike (mark closing)])),
    mark closing]

@[simp] def digit : Phrase Rule := one Char.isDigit

@[simp] def sign : Phrase Rule := opt (one Lexeme.isSign)

end Phrase

namespace Rule

open Phrase Lexeme

def body : Rule → Phrase Rule
  | space => one isSpace
  | named .comment | rawComment => commentForm
  | named .endOfInput => not any
  | identChar => one isIdentChar
  | named .ident => row [one isIdentStart, star (rule identChar)]
  | named .fullIdent => row [part .ident, star (row [mark '.', part .ident])]
  | named .typeRef => row [opt (mark '.'), part .fullIdent]
  | named .stringLit => choice [quoted '"', quoted '\x27']
  | intLit => choice [
      row [choice [word "0x".toList, word "0X".toList], plus (one isHexDigit)], plus digit]
  | exponent => row [one fun c => c == 'e' || c == 'E', sign, plus digit]
  | floatLit => choice [
      row [star digit, mark '.', plus digit, opt (rule exponent)],
      row [plus digit, mark '.', opt (rule exponent)],
      row [plus digit, rule exponent]]
  | named .fieldNumber => rule intLit
  | named .enumNumber => row [opt (mark '-'), rule intLit]
  | named .constant => choice [
      rule aggregate,
      rule listValue,
      row [part .stringLit, star (row [star (rule space), part .stringLit])],
      row [sign, choice [rule floatLit, rule intLit]],
      row [sign, part .fullIdent]]
  | aggregate => bracketed '{' '}' [rule aggregate]
  | listValue => bracketed '[' ']' [rule aggregate, rule listValue]
  | named .optionName => row [rule optionNamePart, star (row [mark '.', rule optionNamePart])]
  | optionNamePart => choice [
      row [mark '(', opt (mark '.'), part .fullIdent, mark ')'], part .ident]
  | named (.keyword k) => wholeWord k.word
  | named .label => row [
      choice [word "optional".toList, word "required".toList, word "repeated".toList],
      not (rule identChar)]
  | named .stream => wholeWord "stream".toList
  | named .importModifier => row [
      choice [word "weak".toList, word "public".toList], not (rule identChar)]
  | named .file => row [next (items (rule fileElement)), next (part .endOfInput)]
  | fileElement => choice [part .language, part .edition, part .package, part .importing,
      part .option, part .message, part .enumDef, part .service, part .extend, rule emptyStatement]
  | emptyStatement => mark ';'
  | named .language => row [
      keyword .language, next (mark '='), next (part .stringLit), next (mark ';')]
  | named .edition => row [
      keyword .edition, next (mark '='), next (part .stringLit), next (mark ';')]
  | named .package => row [keyword .package, next (part .fullIdent), next (mark ';')]
  | named .importing => row [
      keyword .importing, next (opt (part .importModifier)), next (part .stringLit),
      next (mark ';')]
  | named .option => row [
      keyword .option, next (part .optionName), next (mark '='), next (part .constant),
      next (mark ';')]
  | named .message => row [keyword .message, next (part .ident), next (part .messageBody)]
  | named .messageBody => block (rule messageElement)
  | messageElement => choice [part .option, part .message, part .enumDef, part .oneof,
      part .mapField, part .extend, part .reserved, part .extensions, part .group, part .field,
      rule emptyStatement]
  | named .field => row [
      opt (part .label), next (part .typeRef), next (part .ident), next (mark '='),
      next (part .fieldNumber), next (opt (part .fieldOptions)), next (mark ';')]
  | named .fieldOptions => row [
      mark '[', next (part .fieldOption),
      next (items (row [mark ',', next (part .fieldOption)])), next (mark ']')]
  | named .fieldOption => row [part .optionName, next (mark '='), next (part .constant)]
  | named .mapField => row [
      keyword .map, next (mark '<'), next (part .typeRef), next (mark ','), next (part .typeRef),
      next (mark '>'), next (part .ident), next (mark '='), next (part .fieldNumber),
      next (opt (part .fieldOptions)), next (mark ';')]
  | named .group => row [
      opt (part .label), next (keyword .group), next (part .ident), next (mark '='),
      next (part .fieldNumber), next (opt (part .fieldOptions)), next (part .messageBody)]
  | named .oneof => row [keyword .oneof, next (part .ident), next (part .oneofBody)]
  | named .oneofBody => block (rule oneofElement)
  | oneofElement => choice [part .option, part .group, part .field, rule emptyStatement]
  | named .reserved => row [keyword .reserved, next (part .rangeBody), next (mark ';')]
  | named .extensions => row [keyword .extensions, next (part .rangeBody), next (mark ';')]
  | named .rangeBody => plus (choice [part .stringLit, unlike (mark ';')])
  | named .extend => row [keyword .extend, next (part .typeRef), next (part .extendBody)]
  | named .extendBody => block (rule extendElement)
  | extendElement => choice [part .group, part .field, rule emptyStatement]
  | named .enumDef => row [keyword .enum, next (part .ident), next (part .enumBody)]
  | named .enumBody => block (rule enumElement)
  | enumElement => choice [part .option, part .reserved, part .enumValue, rule emptyStatement]
  | named .enumValue => row [
      part .ident, next (mark '='), next (part .enumNumber), next (opt (part .fieldOptions)),
      next (mark ';')]
  | named .service => row [keyword .service, next (part .ident), next (part .serviceBody)]
  | named .serviceBody => block (rule serviceElement)
  | serviceElement => choice [part .option, part .rpc, rule emptyStatement]
  | named .rpc => row [
      keyword .rpc, next (part .ident), next (mark '('), next (part .rpcType), next (mark ')'),
      next (keyword .returns), next (mark '('), next (part .rpcType), next (mark ')'),
      next (rule rpcTail)]
  | rpcTail => choice [part .rpcBody, mark ';']
  | named .rpcBody => block (choice [part .option, rule emptyStatement])
  | named .rpcType => row [opt (part .stream), next (part .typeRef)]

/-- what is left behind the rule, by its recogniser or its reader -/
def scan : Rule → Scan
  | space => Scan.char isSpace
  | named .comment | rawComment => comment
  | named .endOfInput => Reader.endOfInput.left
  | identChar => Scan.char isIdentChar
  | named .ident => Lexeme.ident
  | named .fullIdent => Lexeme.fullIdent
  | named .typeRef => Lexeme.typeRef
  | named .stringLit => Lexeme.stringLit
  | intLit => Lexeme.intLit
  | exponent => Lexeme.exponent
  | floatLit => Lexeme.floatLit
  | named .fieldNumber => Lexeme.fieldNumber
  | named .enumNumber => Lexeme.enumNumber
  | named .constant => Lexeme.constant
  | aggregate => Lexeme.aggregate
  | listValue => Lexeme.listValue
  | named .optionName => Lexeme.optionName
  | optionNamePart => Lexeme.optionNamePart
  | named (.keyword k) => Lexeme.keyword k
  | named .label => Lexeme.label
  | named .stream => Lexeme.stream
  | named .importModifier => Lexeme.importModifier
  | named .file => Reader.file.left
  | fileElement => (Reader.itemAt .file).left
  | emptyStatement => Scan.char (· == ';')
  | named .language => Reader.language.left
  | named .edition => Reader.edition.left
  | named .package => Reader.package.left
  | named .importing => Reader.importing.left
  | named .option => Reader.setting.left
  | named .message => (Reader.message Reader.nestedBody).left
  | named .messageBody => Reader.nestedBody.left
  | messageElement => (Reader.itemAt .message).left
  | named .field => Reader.field.left
  | named .fieldOptions => Reader.fieldOptions.left
  | named .fieldOption => Reader.fieldOption.left
  | named .mapField => Reader.mapField.left
  | named .group => (Reader.group Reader.nestedBody).left
  | named .oneof => (Reader.oneof Reader.nestedBody).left
  | named .oneofBody => (Reader.body .oneofBody (Reader.itemAt .oneof)).left
  | oneofElement => (Reader.itemAt .oneof).left
  | named .reserved => Reader.reserved.left
  | named .extensions => Reader.extensions.left
  | named .rangeBody => Lexeme.rangeBody
  | named .extend => (Reader.extend Reader.nestedBody).left
  | named .extendBody => (Reader.body .extendBody (Reader.itemAt .extend)).left
  | extendElement => (Reader.itemAt .extend).left
  | named .enumDef => Reader.enum.left
  | named .enumBody => (Reader.body .enumBody (Reader.itemAt .enum)).left
  | enumElement => (Reader.itemAt .enum).left
  | named .enumValue => Reader.enumValue.left
  | named .service => Reader.service.left
  | named .serviceBody => (Reader.body .serviceBody (Reader.itemAt .service)).left
  | serviceElement => (Reader.itemAt .service).left
  | named .rpc => Reader.method.left
  | rpcTail => Reader.methodBody.left
  | named .rpcBody => (Reader.body .rpcBody (Reader.itemAt .method)).left
  | named .rpcType => Reader.side.left

end Rule
end ProtoDocs
