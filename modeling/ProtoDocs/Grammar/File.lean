import ProtoDocs.Grammar.Block
import ProtoDocs.Grammar.SyntaxError

/-!
# Reading files

A schema file is a row of items up to its end.

* `Reader.file`     the reader of a whole file;
* `parse`           its elements, nothing attached, or where and why it is no schema file.
-/

namespace ProtoDocs

/-- a whole file; message bodies nest no deeper than the file is long -/
def Reader.file : Reader (List Element) := fun t =>
  named .file (do
    let es ← items (fileItem (messageBody t.length))
    endOfInput
    return es) t

/-- the elements of a schema file -/
def parse (source : Text) : Except SyntaxError (List Element) :=
  let o := Reader.file source
  match o.result with
  | some (es, _) => .ok es
  | none =>
    let before := source.length - o.attempts.left
    .error ⟨source.take before, source.drop before, o.attempts.tried⟩

end ProtoDocs
