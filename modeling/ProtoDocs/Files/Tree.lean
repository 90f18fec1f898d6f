import ProtoDocs.Files.Entry

/-!
# File trees

A file system in memory: directories and files below a top directory, seen from a working directory
in it. Of what lies outside the top nothing is known but that it has directories.

* `FileTree`            the tree;
* `FileTree.entry`      what a path leads to;
* `FileTree.write`, `FileTree.makeDirectory`, `FileTree.remove`   changes.
-/

namespace ProtoDocs

/-- a path from the top, component by component -/
abbrev Location := List Text

/-- the directories on the way to a location, the top first -/
def Location.above (l : Location) : List Location :=
  (List.range l.length).map (l.take ·)

/-- files with their content, and directories without, each with all directories above it -/
structure FileTree where
  entries : List (Location × Option ByteArray)
  workingDirectory : Location

namespace FileTree

def empty (workingDirectory : Location) : FileTree :=
  ⟨(workingDirectory :: workingDirectory.above).map (·, none), workingDirectory⟩

def entryAt (t : FileTree) (l : Location) : Entry :=
  match t.entries.lookup l with
  | none => .missing
  | some none => .directory
  | some (some content) => .file content

/-- the entry that the components lead to from a location, which is above the top if there is none -/
def walk (t : FileTree) : Option Location → List Text → Entry
  | none, [] => .directory
  | some l, [] => t.entryAt l
  | none, c :: cs => if c = "..".toList then walk t none cs else .missing
  | some l, c :: cs =>
    match t.entryAt l with
    | .directory =>
      if c = "..".toList then walk t (if l.isEmpty then none else some l.dropLast) cs
      else walk t (some (l ++ [c])) cs
    | .missing => .missing
    | _ => .beyondFile

/-- what a path leads to; behind a slash at its end it must be a directory -/
def entry (t : FileTree) (p : Path) : Entry :=
  if p.isEmpty then .missing
  else
    let e := t.walk (if p.isAbsolute then none else some t.workingDirectory) p.components
    match e with
    | .file _ =>
      if p.getLast? == some '/' || Path.lastPart p == ['.'] then .beyondFile else e
    | _ => e

/-- the location of a path in the tree, dot components and repeated slashes left out -/
def locate (t : FileTree) (p : Path) : Location :=
  p.components.foldl (fun l c => if c = "..".toList then l.dropLast else l ++ [c]) t.workingDirectory

/-- the tree with `content` at a location, and directories above it -/
def put (t : FileTree) (l : Location) (content : Option ByteArray) : FileTree :=
  let others := t.entries.filter fun e => e.1 != l
  let above := (l.above.filter fun d => (others.lookup d).isNone).map (·, none)
  { t with entries := (l, content) :: above ++ others }

def write (t : FileTree) (p : Path) (content : ByteArray) : FileTree :=
  t.put (t.locate p) (some content)

def makeDirectory (t : FileTree) (p : Path) : FileTree :=
  t.put (t.locate p) none

/-- the tree without what is at the path and below it -/
def remove (t : FileTree) (p : Path) : FileTree :=
  { t with entries := t.entries.filter fun e => !(t.locate p).isPrefixOf e.1 }

end FileTree
end ProtoDocs
