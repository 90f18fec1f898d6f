import ProtoDocs.Files.Entry
import ProtoDocs.Site.SettingsFile

/-!
# Documentation sites

A site has a directory of documents; the schema files lie beside that directory.

* `Site`              the documents directory and the schema file that is used if none is given;
* `Site.resolve`      the path of a schema file;
* `Site.load`         the site that a settings file describes.
-/

namespace ProtoDocs

structure Site where
  docsDir : Path
  defaultFile : Path
  deriving DecidableEq, Repr

namespace Site

/-- where the documents are if nothing says otherwise -/
def usualDocsDir : Path := "docs".toList

/-- the schema file that is used if none is given -/
def usualFile : Path := "specification/a2a.proto".toList

def ofDocsDir (docsDir : Path) : Site := ⟨docsDir, usualFile⟩

def usual : Site := ofDocsDir usualDocsDir

/-- the path of a schema file: they are named from the parent of the documents directory -/
def resolve (s : Site) (file : Path) : Path :=
  s.docsDir.parent.join file

/-- why the settings of a site cannot be had -/
inductive Error
  | unreadable (path : Path) (e : FileError)
  | invalid (path : Path) (e : SettingsError)
  deriving DecidableEq, Repr

namespace Error

def cause : Error → Text
  | unreadable _ e => e.message
  | invalid _ e => e.message

def message : Error → Text
  | unreadable path e => "Failed to read config ".toList ++ path ++ ": ".toList ++ e.message
  | invalid path e => "Invalid config ".toList ++ path ++ ": ".toList ++ e.message

end Error

/-- the site that the settings file at a path describes; its documents directory is relative to the
directory of that file -/
def load (files : Files) (path : Path) : Except Error Site :=
  match (files path).text with
  | .error e => .error (.unreadable path e)
  | .ok text => match SettingsFile.docsDir? text with
    | .error e => .error (.invalid path e)
    | .ok docsDir => .ok (ofDocsDir (path.parent.join (docsDir.getD usualDocsDir)))

end Site
end ProtoDocs
