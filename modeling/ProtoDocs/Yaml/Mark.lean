import ProtoDocs.Text.Basic

/-!
# Places in a YAML text

* `Mark`             a place: how many characters, lines and characters of its line are in front of it;
* `Mark.phrase`      a place in words, nothing for the very beginning;
* `isBreak`, `isGap`, `isNameChar`   classes of characters;
* `Mark.pass`, `Mark.passBreak`   the place behind a character, and behind a line break.

The line breaks are line feed, carriage return, both together, next line, and the line and paragraph
separators.
-/

namespace ProtoDocs.Yaml

/-- a place in a text, counted from zero -/
structure Mark where
  index : Nat
  line : Nat
  column : Nat
  deriving DecidableEq, Repr

namespace Mark

def zero : Mark := ⟨0, 0, 0⟩

def isFirst (m : Mark) : Bool := m.line == 0 && m.column == 0

/-- whether two marks are in one column of one line -/
def samePlace (a b : Mark) : Bool := a.line == b.line && a.column == b.column

/-- the place behind a character that is no line break -/
def pass (m : Mark) : Mark := ⟨m.index + 1, m.line, m.column + 1⟩

/-- the place behind a line break of `n` characters -/
def passBreak (m : Mark) (n : Nat) : Mark := ⟨m.index + n, m.line + 1, 0⟩

/-- the place behind `n` characters without a line break -/
def passMany (m : Mark) (n : Nat) : Mark := ⟨m.index + n, m.line, m.column + n⟩

/-- the place in words; the very beginning is not worth a word -/
def phrase (m : Mark) : Text :=
  if m.isFirst then []
  else " at line ".toList ++ (toString (m.line + 1)).toList ++ " column ".toList ++
    (toString (m.column + 1)).toList

end Mark

/-! ## classes of characters -/

def isBreak (c : Char) : Bool :=
  c == '\n' || c == '\r' || c == '\u0085' || c == '\u2028' || c == '\u2029'

def isGap (c : Char) : Bool := c == ' ' || c == '\t'

def isNameChar (c : Char) : Bool := c.isAlphanum || c == '_' || c == '-'

/-- whether a text begins with a gap or a line break, or is at its end -/
def atBlank : Text → Bool
  | [] => true
  | c :: _ => isGap c || isBreak c

/-- whether a text begins with a line break or is at its end -/
def atLineEnd : Text → Bool
  | [] => true
  | c :: _ => isBreak c

/-- whether a text begins with the mark of a document's start or end, standing alone -/
def atDocumentMark : Text → Bool
  | '-' :: '-' :: '-' :: t => atBlank t
  | '.' :: '.' :: '.' :: t => atBlank t
  | _ => false

/-- what a line break counts as in a scalar: a line feed, unless it is a separator of its own -/
def normalBreak (c : Char) : Char :=
  if c == '\u2028' || c == '\u2029' then c else '\n'

end ProtoDocs.Yaml
