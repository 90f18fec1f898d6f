import ProtoDocs.Grammar.Scan
import ProtoDocs.Grammar.Symbol

/-!
# Lexemes

The pieces of a schema file that have no blanks or comments skipped inside them: names, words,
numbers, string literals, comments, and the raw text of option values and ranges.

* `comment`                       a line comment up to its line end, or a block comment;
* `ident`, `fullIdent`, `typeRef`, `optionName`   names;
* `stringLit`                     a string literal, quotes included;
* `intLit`, `floatLit`            numbers without sign;
* `aggregate`, `listValue`        bracketed text, with strings and comments in it left alone;
* `constant`                      the value of an option;
* `rangeBody`                     the text of a `reserved` or `extensions` statement.

Brackets may nest. The nesting of a text is no deeper than the text is long, so the recognisers of
nested brackets are defined by the depth to which they look.
-/

namespace ProtoDocs.Lexeme

open Scan

/-! ## classes of characters -/

/-- what is skipped between tokens, apart from comments; the byte order mark is one of them -/
def isSpace (c : Char) : Bool :=
  c == ' ' || c == '\t' || c == '\r' || c == '\n' || c == '\uFEFF'

def pastSpace (t : Text) : Text := t.dropWhile isSpace

def isLineEnd (c : Char) : Bool := c == '\n' || c == '\r'

def isIdentStart (c : Char) : Bool := c.isAlpha || c == '_'

def isIdentChar (c : Char) : Bool := c.isAlphanum || c == '_'

def isHexDigit (c : Char) : Bool :=
  c.isDigit || ('a' ≤ c && c ≤ 'f') || ('A' ≤ c && c ≤ 'F')

def isQuote (c : Char) : Bool := c == '"' || c == '\x27'

/-! ## comments and strings -/

/-- what follows the first end of a block comment -/
def pastBlockEnd : Scan
  | '*' :: '/' :: t => some t
  | _ :: t => pastBlockEnd t
  | [] => none

/-- a comment: two slashes and the rest of the line, or a block -/
def comment : Scan
  | '/' :: '/' :: t => some (t.dropWhile fun c => !isLineEnd c)
  | '/' :: '*' :: t => pastBlockEnd t
  | _ => none

/-- what follows the closing quote `q`: a backslash takes the next character with it, whatever it is,
and other line ends are not allowed -/
def pastQuote (q : Char) : Scan
  | [] => none
  | '\\' :: _ :: t => pastQuote q t
  | c :: t => if c = q then some t else if c = '\\' || isLineEnd c then none else pastQuote q t

def stringLit : Scan
  | [] => none
  | q :: t => if isQuote q then pastQuote q t else none

/-! ## names -/

def ident : Scan := (char isIdentStart).seq (run isIdentChar)

def fullIdent : Scan := ident.seq (many ((char (· == '.')).seq ident))

/-- a dotted name, perhaps with a dot in front -/
def typeRef : Scan := (opt (char (· == '.'))).seq fullIdent

/-- a part of the name of an option: a name in parentheses or an identifier -/
def optionNamePart : Scan :=
  ((char (· == '(')).seq ((opt (char (· == '.'))).seq (fullIdent.seq (char (· == ')'))))).or ident

def optionName : Scan := optionNamePart.seq (many ((char (· == '.')).seq optionNamePart))

/-- the word `w`, unless it goes on as an identifier -/
def wholeWord (w : Text) : Scan := (word w).seq (butNot (char isIdentChar) some)

def keyword (k : Keyword) : Scan := wholeWord k.word

def label : Scan :=
  (wholeWord "optional".toList).or ((wholeWord "required".toList).or (wholeWord "repeated".toList))

def stream : Scan := wholeWord "stream".toList

def importModifier : Scan := (wholeWord "weak".toList).or (wholeWord "public".toList)

/-! ## numbers -/

/-- hexadecimal digits after `0x` or `0X`, or decimal digits -/
def intLit : Scan :=
  (((word "0x".toList).or (word "0X".toList)).seq (run1 isHexDigit)).or (run1 Char.isDigit)

def isSign (c : Char) : Bool := c == '+' || c == '-'

def exponent : Scan :=
  (char fun c => c == 'e' || c == 'E').seq ((opt (char isSign)).seq (run1 Char.isDigit))

/-- digits on the right of the point, or on its left, or an exponent instead of a point -/
def floatLit : Scan :=
  ((run Char.isDigit).seq ((char (· == '.')).seq ((run1 Char.isDigit).seq (opt exponent)))).or
    (((run1 Char.isDigit).seq ((char (· == '.')).seq (opt exponent))).or
      ((run1 Char.isDigit).seq exponent))

def fieldNumber : Scan := intLit

def enumNumber : Scan := (opt (char (· == '-'))).seq intLit

/-! ## bracketed text -/

/-- braces around strings, comments, further braces and other text, to the given depth -/
def aggregateAt : Nat → Scan
  | 0 => fun _ => none
  | depth + 1 =>
    (char (· == '{')).seq
      ((many (stringLit.or (comment.or ((aggregateAt depth).or (char (· != '}')))))).seq
        (char (· == '}')))

/-- square brackets around the same, and around further square brackets -/
def listValueAt : Nat → Scan
  | 0 => fun _ => none
  | depth + 1 =>
    (char (· == '[')).seq
      ((many (stringLit.or (comment.or
          ((aggregateAt depth).or ((listValueAt depth).or (char (· != ']'))))))).seq
        (char (· == ']')))

def aggregate : Scan := fun t => aggregateAt t.length t

def listValue : Scan := fun t => listValueAt t.length t

/-! ## raw text -/

/-- the value of an option: bracketed text, adjacent strings, a number or a name -/
def constant : Scan :=
  aggregate.or (listValue.or
    ((stringLit.seq (many ((run isSpace).seq stringLit))).or
      (((opt (char isSign)).seq (floatLit.or intLit)).or
        ((opt (char isSign)).seq fullIdent))))

/-- text up to a semicolon that is not in a string -/
def rangeBody : Scan :=
  let item := stringLit.or (char (· != ';'))
  item.seq (many item)

/-! ## what comments leave -/

theorem pastBlockEnd_suffix {t r : Text} (h : pastBlockEnd t = some r) : r <:+ t := by
  induction t using pastBlockEnd.induct with
  | case1 t =>
    cases h
    exact ⟨['*', '/'], rfl⟩
  | case2 c t _ ih =>
    rw [pastBlockEnd] at h
    · exact (ih h).trans (List.suffix_cons c t)
    · assumption
  | case3 => simp [pastBlockEnd] at h

theorem consumes_comment : comment.Consumes := by
  intro t r h
  unfold comment at h
  split at h
  · rename_i u
    cases h
    have hs : u.dropWhile (fun c => !isLineEnd c) <:+ u := List.dropWhile_suffix _
    exact ⟨hs.trans ⟨['/', '/'], rfl⟩, by have := hs.length_le; simp; omega⟩
  · rename_i u
    have hs : r <:+ u := pastBlockEnd_suffix h
    exact ⟨hs.trans ⟨['/', '*'], rfl⟩, by have := hs.length_le; simp; omega⟩
  · simp at h

end ProtoDocs.Lexeme
