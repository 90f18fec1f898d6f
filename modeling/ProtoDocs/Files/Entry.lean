import ProtoDocs.Files.Path

/-!
# What is found at a path

* `Entry`        what a path leads to;
* `FileError`    why a path cannot be read as a text, with its message;
* `Entry.text`   the text of a file;
* `Files`        all that is known of a file system: the entry at each path.
-/

namespace ProtoDocs

inductive Entry
  | missing
  /-- a component that is not the last is a file -/
  | beyondFile
  | directory
  | file (content : ByteArray)
  /-- there is something, but it cannot be opened -/
  | closed (reason : Text)

/-- why a path cannot be read as a text -/
inductive FileError
  | notFound
  | notDirectory
  | isDirectory
  | notUtf8
  | other (reason : Text)
  deriving DecidableEq, Repr

def FileError.message : FileError → Text
  | notFound => "No such file or directory (os error 2)".toList
  | notDirectory => "Not a directory (os error 20)".toList
  | isDirectory => "Is a directory (os error 21)".toList
  | notUtf8 => "stream did not contain valid UTF-8".toList
  | other reason => reason

def Entry.isThere : Entry → Bool
  | missing | beyondFile => false
  | directory | file _ | closed _ => true

/-- the text of a file, which must be UTF-8 -/
def Entry.text : Entry → Except FileError Text
  | missing => .error .notFound
  | beyondFile => .error .notDirectory
  | directory => .error .isDirectory
  | closed reason => .error (.other reason)
  | file content => match String.fromUTF8? content with
    | some s => .ok s.toList
    | none => .error .notUtf8

/-- a file system as seen from a working directory -/
abbrev Files := Path → Entry

end ProtoDocs
