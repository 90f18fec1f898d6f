import ProtoDocs.Yaml.Fault

/-!
# Reading along a YAML text

* `Cursor`             a place in a text with the text from there on;
* `Cursor.skipGaps`, `Cursor.skipComment`, `Cursor.skipBreak`   what stands between tokens;
* `Cursor.name`        a name at the cursor;
* `Pause`              the gaps and line breaks between two parts of a scalar, and what they mean.
-/

namespace ProtoDocs.Yaml

structure Cursor where
  mark : Mark
  rest : Text
  deriving DecidableEq, Repr

namespace Cursor

/-- past `n` characters of the line -/
def pass (c : Cursor) (n : Nat) : Cursor := ⟨c.mark.passMany n, c.rest.drop n⟩

/-- past the characters of a class, none of which is a line break -/
def passWhile (c : Cursor) (p : Char → Bool) : Cursor :=
  c.pass (c.rest.takeWhile p).length

def skipGaps (c : Cursor) : Cursor := c.passWhile isGap

def skipComment (c : Cursor) : Cursor :=
  if c.rest.head? = some '#' then c.passWhile (!isBreak ·) else c

/-- the line break at the cursor, as it counts in a scalar, and the place behind it -/
def takeBreak (c : Cursor) : Text × Cursor :=
  match c.rest with
  | '\r' :: '\n' :: t => (['\n'], ⟨c.mark.passBreak 2, t⟩)
  | b :: t => if isBreak b then ([normalBreak b], ⟨c.mark.passBreak 1, t⟩) else ([], c)
  | [] => ([], c)

def skipBreak (c : Cursor) : Cursor := c.takeBreak.2

/-- the name at the cursor, which may be empty, and the place behind it -/
def name (c : Cursor) : Text × Cursor :=
  (c.rest.takeWhile isNameChar, c.passWhile isNameChar)

end Cursor

/-! ## pauses -/

/-- what stands between two parts of a scalar: nothing, gaps on one line, or a first line break and
further ones with gaps around them -/
inductive Pause
  | none
  | gaps (t : Text)
  | breaks (first more : Text)
  deriving DecidableEq, Repr

namespace Pause

/-- what a pause counts as: a single line feed is a space, and of several the first does not count -/
def text : Pause → Text
  | none => []
  | gaps t => t
  | breaks ['\n'] [] => [' ']
  | breaks ['\n'] more => more
  | breaks first more => first ++ more

/-- a pause with a further space or tab; next to line breaks it does not count -/
def addGap : Pause → Char → Pause
  | none, c => gaps [c]
  | gaps t, c => gaps (t ++ [c])
  | breaks first more, _ => breaks first more

/-- a pause with a further line break, in front of which gaps do not count -/
def addBreak : Pause → Char → Pause
  | breaks first more, c => breaks first (more ++ [c])
  | _, c => breaks [c] []

def hasBreaks : Pause → Bool
  | breaks _ _ => true
  | _ => false

end Pause
end ProtoDocs.Yaml
