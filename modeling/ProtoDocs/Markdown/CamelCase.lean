import ProtoDocs.Text.Case

/-!
# Camel case

A name with underscores becomes one in camel case: the first part stays as it is, and each later part
begins its words with a capital. A word begins at the first letter of a part and after a character
that is no letter.

* `titleCase`    a part with capitals at the beginnings of words;
* `camelCase`    a whole name.
-/

namespace ProtoDocs

/-- a part in title case, where `inWord` says whether a letter stands in front of it -/
def titleCaseFrom : Bool → Text → Text
  | _, [] => []
  | inWord, c :: t =>
    (if inWord then Case.lower c else Case.upper c) ++ titleCaseFrom (Case.isLetter c) t

def titleCase (t : Text) : Text := titleCaseFrom false t

def camelCase (name : Text) : Text :=
  match name.splitOn '_' with
  | [] => []
  | first :: parts => first ++ (parts.map titleCase).flatten

end ProtoDocs
