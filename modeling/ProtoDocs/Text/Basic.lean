/-!
# Texts

A text is a list of characters. This module holds the operations on texts that the rest of the
library is written in.

* `Text`              a list of characters (Unicode scalar values);
* `Text.upTo`         the part of a text in front of one of its suffixes;
* `Text.lines`        the lines, each without its line end;
* `Text.join`         pieces with a separator between them;
* `Text.dropPrefix`, `Text.dropSuffix`   one marker less, if the text has it;
* `Text.trimBy`       both ends without the characters of a class.

`Text.upTo_append` says that `upTo` cuts where it should.
-/

namespace ProtoDocs

abbrev Text := List Char

namespace Text

/-- a property of all characters of a text is decided one by one, not for all characters there are -/
instance (priority := 2000) decidableForall (p : Char → Prop) [DecidablePred p] (t : Text) :
    Decidable (∀ c ∈ t, p c) := List.decidableBAll p t

instance (priority := 2000) decidableExists (p : Char → Prop) [DecidablePred p] (t : Text) :
    Decidable (∃ c ∈ t, p c) := List.decidableBEx p t

/-! ## parts -/

/-- what stands in `t` before its suffix `rest` -/
def upTo (t rest : Text) : Text :=
  t.take (t.length - rest.length)

@[simp] theorem upTo_append (s rest : Text) : upTo (s ++ rest) rest = s := by
  simp [upTo]

/-- the marker `mark` removed from the front, once, if it is there -/
def dropPrefix (mark t : Text) : Text :=
  (mark.isPrefixOf? t).getD t

/-- the marker `mark` removed from the end, once, if it is there -/
def dropSuffix (mark t : Text) : Text :=
  (mark.isSuffixOf? t).getD t

/-- both ends without characters of the class -/
def trimBy (drop : Char → Bool) (t : Text) : Text :=
  ((t.dropWhile drop).reverse.dropWhile drop).reverse

def holds (part : Text) : Text → Bool
  | [] => part.isEmpty
  | c :: t => part.isPrefixOf (c :: t) || holds part t

/-! ## pieces -/

def join (sep : Text) (pieces : List Text) : Text :=
  sep.intercalate pieces

/-- the lines of a text: a line ends at a line feed, which may have one carriage return before it,
and a text that ends in a line feed has no further empty line -/
def lines (t : Text) : List Text :=
  let pieces := t.splitOn '\n'
  let last := pieces.getLastD []
  pieces.dropLast.map (dropSuffix ['\r']) ++ (if last.isEmpty then [] else [last])

end Text
end ProtoDocs
