import ProtoDocs.Text.Basic

/-!
# Named parts of the grammar

The parts of a schema file that an error can report as expected. Their order here is the order in
which a report lists them.

* `Keyword`        the words with a meaning of their own;
* `Symbol`         a named part;
* `Symbol.all`     every named part, in the order of reports;
* `Symbol.name`    the name in reports.

`Symbol.mem_all` says that the list leaves none out.
-/

namespace ProtoDocs

/-- a word that begins or divides a declaration -/
inductive Keyword
  | language | edition | package | importing | option | message | enum | service | rpc | returns
  | oneof | map | reserved | extensions | extend | group
  deriving DecidableEq, Repr

namespace Keyword

def word : Keyword → Text
  | language => "syntax".toList
  | edition => "edition".toList
  | package => "package".toList
  | importing => "import".toList
  | option => "option".toList
  | message => "message".toList
  | enum => "enum".toList
  | service => "service".toList
  | rpc => "rpc".toList
  | returns => "returns".toList
  | oneof => "oneof".toList
  | map => "map".toList
  | reserved => "reserved".toList
  | extensions => "extensions".toList
  | extend => "extend".toList
  | group => "group".toList

def all : List Keyword :=
  [language, edition, package, importing, option, message, enum, service, rpc, returns, oneof, map,
    reserved, extensions, extend, group]

end Keyword

/-- a part of the grammar with a name -/
inductive Symbol
  | endOfInput | comment
  | ident | fullIdent | typeRef | stringLit | fieldNumber | enumNumber | constant | optionName
  | keyword (k : Keyword)
  | label | stream | importModifier
  | file | language | edition | package | importing | option
  | message | messageBody | field | fieldOptions | fieldOption | mapField | group
  | oneof | oneofBody | reserved | extensions | rangeBody | extend | extendBody
  | enumDef | enumBody | enumValue
  | service | serviceBody | rpc | rpcBody | rpcType
  deriving DecidableEq, Repr

namespace Symbol

def name : Symbol → Text
  | endOfInput => "EOI".toList
  | comment => "COMMENT".toList
  | ident => "ident".toList
  | fullIdent => "full_ident".toList
  | typeRef => "type_ref".toList
  | stringLit => "string_lit".toList
  | fieldNumber => "field_number".toList
  | enumNumber => "enum_number".toList
  | constant => "constant".toList
  | optionName => "option_name".toList
  | keyword k => "kw_".toList ++ k.word
  | label => "label".toList
  | stream => "stream".toList
  | importModifier => "import_modifier".toList
  | file => "proto".toList
  | language => "syntax".toList
  | edition => "edition".toList
  | package => "package".toList
  | importing => "import".toList
  | option => "option".toList
  | message => "message".toList
  | messageBody => "message_body".toList
  | field => "field".toList
  | fieldOptions => "field_options".toList
  | fieldOption => "field_option".toList
  | mapField => "map_field".toList
  | group => "group".toList
  | oneof => "oneof".toList
  | oneofBody => "oneof_body".toList
  | reserved => "reserved".toList
  | extensions => "extensions".toList
  | rangeBody => "range_body".toList
  | extend => "extend".toList
  | extendBody => "extend_body".toList
  | enumDef => "enum_def".toList
  | enumBody => "enum_body".toList
  | enumValue => "enum_value".toList
  | service => "service".toList
  | serviceBody => "service_body".toList
  | rpc => "rpc".toList
  | rpcBody => "rpc_body".toList
  | rpcType => "rpc_type".toList

/-- every named part, in the order of reports -/
def all : List Symbol :=
  [endOfInput, comment, ident, fullIdent, typeRef, stringLit, fieldNumber, enumNumber, constant,
    optionName] ++ Keyword.all.map keyword ++
  [label, stream, importModifier, file, language, edition, package, importing, option, message,
    messageBody, field, fieldOptions, fieldOption, mapField, group, oneof, oneofBody, reserved,
    extensions, rangeBody, extend, extendBody, enumDef, enumBody, enumValue, service, serviceBody,
    rpc, rpcBody, rpcType]

theorem mem_all (s : Symbol) : s ∈ all := by
  cases s with
  | keyword k => cases k <;> decide
  | _ => decide

end Symbol
end ProtoDocs
