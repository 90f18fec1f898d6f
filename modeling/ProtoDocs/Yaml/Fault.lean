import ProtoDocs.Yaml.Mark

/-!
# Faults of a YAML text

A text that is no YAML is reported by what is wrong, where it is wrong, and what was being read.

* `Problem`       what is wrong;
* `Activity`      what was being read;
* `Fault`         both with their places;
* `Fault.message` the report.
-/

namespace ProtoDocs.Yaml

inductive Problem
  | controlCharacter
  | noToken
  | blockEntryHere | keyHere | valueHere
  | noColon
  | unknownDirective | noDirectiveName | oddDirectiveName | noDirectiveEnd
  | noVersionDigit | noVersionNumber | longVersionNumber
  | noWhitespace | noWhitespaceOrBreak
  | noNameCharacter
  | noTagBang | noTagEnd | noTagUri | noEscapedOctet | badLeadingOctet | badTrailingOctet
  | zeroIndentation | noCommentOrBreak | tabInIndentation
  | documentMark | endOfStream | unknownEscape | noHexDigit | badEscapeCode
  | tabBeforeText | unexpectedColon
  | noStreamStart | noDocumentStart | duplicateVersion | badVersion | duplicateTagDirective
  | undefinedHandle | noNodeContent | noDash | noKey | noCommaOrBracket | noCommaOrBrace
  deriving DecidableEq, Repr

def Problem.text : Problem → Text
  | controlCharacter => "control characters are not allowed".toList
  | noToken => "found character that cannot start any token".toList
  | blockEntryHere => "block sequence entries are not allowed in this context".toList
  | keyHere => "mapping keys are not allowed in this context".toList
  | valueHere => "mapping values are not allowed in this context".toList
  | noColon => "could not find expected ':'".toList
  | unknownDirective => "found unknown directive name".toList
  | noDirectiveName => "could not find expected directive name".toList
  | oddDirectiveName => "found unexpected non-alphabetical character".toList
  | noDirectiveEnd => "did not find expected comment or line break".toList
  | noVersionDigit => "did not find expected digit or '.' character".toList
  | noVersionNumber => "did not find expected version number".toList
  | longVersionNumber => "found extremely long version number".toList
  | noWhitespace => "did not find expected whitespace".toList
  | noWhitespaceOrBreak => "did not find expected whitespace or line break".toList
  | noNameCharacter => "did not find expected alphabetic or numeric character".toList
  | noTagBang => "did not find expected '!'".toList
  | noTagEnd => "did not find the expected '>'".toList
  | noTagUri => "did not find expected tag URI".toList
  | noEscapedOctet => "did not find URI escaped octet".toList
  | badLeadingOctet => "found an incorrect leading UTF-8 octet".toList
  | badTrailingOctet => "found an incorrect trailing UTF-8 octet".toList
  | zeroIndentation => "found an indentation indicator equal to 0".toList
  | noCommentOrBreak => "did not find expected comment or line break".toList
  | tabInIndentation => "found a tab character where an indentation space is expected".toList
  | documentMark => "found unexpected document indicator".toList
  | endOfStream => "found unexpected end of stream".toList
  | unknownEscape => "found unknown escape character".toList
  | noHexDigit => "did not find expected hexdecimal number".toList
  | badEscapeCode => "found invalid Unicode character escape code".toList
  | tabBeforeText => "found a tab character that violates indentation".toList
  | unexpectedColon => "found unexpected ':'".toList
  | noStreamStart => "did not find expected <stream-start>".toList
  | noDocumentStart => "did not find expected <document start>".toList
  | duplicateVersion => "found duplicate %YAML directive".toList
  | badVersion => "found incompatible YAML document".toList
  | duplicateTagDirective => "found duplicate %TAG directive".toList
  | undefinedHandle => "found undefined tag handle".toList
  | noNodeContent => "did not find expected node content".toList
  | noDash => "did not find expected '-' indicator".toList
  | noKey => "did not find expected key".toList
  | noCommaOrBracket => "did not find expected ',' or ']'".toList
  | noCommaOrBrace => "did not find expected ',' or '\x7d'".toList

/-- what was being read when a problem was met -/
inductive Activity
  | nextToken | simpleKey | directive | versionDirective | tagDirective | tagDirectiveHandle
  | tagDirectiveEnd | tagDirectiveUri | anchor | alias | tag | tagUri
  | blockScalar | quotedScalar | quotedEscape | plainScalar
  | node | blockNode | flowNode | blockSequence | blockMapping | flowSequence | flowMapping
  deriving DecidableEq, Repr

def Activity.text : Activity → Text
  | .nextToken => "while scanning for the next token".toList
  | .simpleKey => "while scanning a simple key".toList
  | .directive => "while scanning a directive".toList
  | .versionDirective => "while scanning a %YAML directive".toList
  | .tagDirective => "while scanning a %TAG directive".toList
  | .tagDirectiveHandle => "while scanning a tag directive".toList
  | .tagDirectiveEnd => "while parsing a tag directive".toList
  | .tagDirectiveUri => "while parsing a %TAG directive".toList
  | .anchor => "while scanning an anchor".toList
  | .alias => "while scanning an alias".toList
  | .tag => "while scanning a tag".toList
  | .tagUri => "while parsing a tag".toList
  | .blockScalar => "while scanning a block scalar".toList
  | .quotedScalar => "while scanning a quoted scalar".toList
  | .quotedEscape => "while parsing a quoted scalar".toList
  | .plainScalar => "while scanning a plain scalar".toList
  | .node => "while parsing a node".toList
  | .blockNode => "while parsing a block node".toList
  | .flowNode => "while parsing a flow node".toList
  | .blockSequence => "while parsing a block collection".toList
  | .blockMapping => "while parsing a block mapping".toList
  | .flowSequence => "while parsing a flow sequence".toList
  | .flowMapping => "while parsing a flow mapping".toList

/-- a problem with its place, and what was being read since which place; a problem of the characters
themselves has a place in bytes only -/
structure Fault where
  problem : Problem
  place : Mark
  reading : Option (Activity × Mark)
  offset : Nat := 0
  deriving DecidableEq, Repr

namespace Fault

def during (problem : Problem) (place : Mark) (activity : Activity) (since : Mark) : Fault :=
  { problem, place, reading := some (activity, since) }

def alone (problem : Problem) (place : Mark) : Fault :=
  { problem, place, reading := none }

/-- the report: the problem and its place, then what was being read and since when, if that is
another place -/
def message (f : Fault) : Text :=
  f.problem.text ++
  (if f.place.isFirst && f.offset != 0 then " at position ".toList ++ (toString f.offset).toList
    else f.place.phrase) ++
  match f.reading with
  | none => []
  | some (activity, since) =>
    ", ".toList ++ activity.text ++ if since.samePlace f.place then [] else since.phrase

end Fault
end ProtoDocs.Yaml
