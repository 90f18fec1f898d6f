import ProtoDocs.Text.Basic
import ProtoDocs.Text.CaseData

/-!
# Letter case

Upper and lower case of characters and of texts after the Unicode standard: a character may become
several, and in a text the Greek capital sigma gets its final form at the end of a word.

* `Case.upper`, `Case.lower`   the other case of a character;
* `Case.isLetter`              whether a character has the property Lowercase or Uppercase;
* `Text.toLower`               lower case of a text, final sigma included.

On ASCII the mappings are core's: `Case.upper_ascii`, `Case.lower_ascii`, `Case.isLetter_ascii`.
-/

namespace ProtoDocs
namespace Case

/-- the image of `n` under the first run that holds it -/
def lookup (runs : List CaseRun) (n : Nat) : Option Nat :=
  runs.findSome? fun r => r.image? n

/-- the other case of a character past ASCII: a special mapping, a run, or the character itself -/
def mapped (specials : List (Nat × List Nat)) (runs : List CaseRun) (c : Char) : Text :=
  match specials.lookup c.toNat with
  | some ns => ns.map Char.ofNat
  | none => match lookup runs c.toNat with
    | some n => [Char.ofNat n]
    | none => [c]

def upper (c : Char) : Text :=
  if c.toNat < 0x80 then [c.toUpper] else mapped upperSpecials upperRuns c

/-- lower case of a character, whatever stands around it -/
def lower (c : Char) : Text :=
  if c.toNat < 0x80 then [c.toLower] else mapped lowerSpecials lowerRuns c

/-- Lowercase or Uppercase -/
def isLetter (c : Char) : Bool :=
  if c.toNat < 0x80 then c.isAlpha else inRanges letterRanges c.toNat

/-- Cased: a letter with a case, title case included -/
def isCased (c : Char) : Bool :=
  inRanges casedRanges c.toNat

/-- Case_Ignorable: a character that does not end a word -/
def isIgnorable (c : Char) : Bool :=
  inRanges ignorableRanges c.toNat

theorem upper_ascii {c : Char} (h : c.toNat < 0x80) : upper c = [c.toUpper] := by
  simp [upper, h]

theorem lower_ascii {c : Char} (h : c.toNat < 0x80) : lower c = [c.toLower] := by
  simp [lower, h]

theorem isLetter_ascii {c : Char} (h : c.toNat < 0x80) : isLetter c = c.isAlpha := by
  simp [isLetter, h]

end Case

namespace Text

/-- whether the next character that counts is cased -/
def meetsCased (t : Text) : Bool :=
  (t.dropWhile Case.isIgnorable).head?.any Case.isCased

/-- lower case of `t` after the characters of `before`, the nearest first -/
def toLowerAfter (before : Text) : Text → Text
  | [] => []
  | c :: t =>
    (if c = 'Σ' then [if meetsCased before && !meetsCased t then 'ς' else 'σ'] else Case.lower c) ++
      toLowerAfter (c :: before) t

/-- lower case of a text: a capital sigma that ends a word becomes the final form -/
def toLower (t : Text) : Text :=
  toLowerAfter [] t

end Text
end ProtoDocs
