import ProtoDocs.Yaml.Mark

/-!
# Tokens of a YAML text

* `Style`       how a scalar is written;
* `TokenKind`   the tokens, with what they carry;
* `Token`       a token with the place where it begins.
-/

namespace ProtoDocs.Yaml

inductive Style
  | plain | quoted | block
  deriving DecidableEq, Repr

inductive TokenKind
  | streamStart | streamEnd
  | version (major minor : Nat)
  | tagHandle (handle lead : Text)
  | documentStart | documentEnd
  | blockSequenceStart | blockMappingStart | blockEnd
  | flowSequenceStart | flowSequenceEnd | flowMappingStart | flowMappingEnd
  | blockEntry | flowEntry | key | value
  | alias (name : Text)
  | anchor (name : Text)
  | tag (handle suffix : Text)
  | scalar (text : Text) (style : Style)
  deriving DecidableEq, Repr

structure Token where
  kind : TokenKind
  start : Mark
  deriving DecidableEq, Repr

end ProtoDocs.Yaml
