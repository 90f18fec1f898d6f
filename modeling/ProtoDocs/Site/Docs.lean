import ProtoDocs.Element.Attach
import ProtoDocs.Grammar.File
import ProtoDocs.Markdown.Page
import ProtoDocs.Site.Basic

/-!
# The pages of a site

What a page of a site asks for: the table of a type in one of the schema files of the site. Files are
read anew each time. A missing file is shown in the text; a file that cannot be read or is no schema
file is an error of the message table, and is shown in the text of the other two.

* `FileFault`            why a file has no elements;
* `LoadError`            the same for a file of a site, which may be missing;
* `readSchema`           the elements of a file, nothing attached;
* `Site.elements`        the elements of a schema file of a site, comments attached;
* `Site.messageTable`, `Site.enumTable`, `Site.serviceTable`   the tables.
-/

namespace ProtoDocs

inductive FileFault
  | file (e : FileError)
  | grammar (e : SyntaxError)
  deriving DecidableEq, Repr

namespace FileFault

def cause : FileFault → Text
  | file e => e.message
  | grammar e => e.message

def message : FileFault → Text
  | file e => "IO error: ".toList ++ e.message
  | grammar e => "Parse error: ".toList ++ e.message

end FileFault

/-- the elements of a file, nothing attached -/
def readSchema (files : Files) (path : Path) : Except FileFault (List Element) :=
  match (files path).text with
  | .error e => .error (.file e)
  | .ok text => match parse text with
    | .error e => .error (.grammar e)
    | .ok es => .ok es

inductive LoadError
  /-- there is no such file, which is named as it was asked for -/
  | notThere (file : Path)
  | fault (f : FileFault)
  deriving DecidableEq, Repr

def LoadError.message : LoadError → Text
  | notThere file => "Proto not found: ".toList ++ file
  | fault f => f.message

namespace Site

variable (s : Site) (files : Files)

/-- the elements of a schema file with their comments -/
def elements (file : Path) : Except LoadError (List Element) :=
  if !(files (s.resolve file)).isThere then .error (.notThere file)
  else match readSchema files (s.resolve file) with
    | .error f => .error (.fault f)
    | .ok es => .ok (attach es)

/-- the file that is meant: the one given, or else that of the site -/
def chosen (file : Option Path) : Path := file.getD s.defaultFile

def messageTable (name : Text) (file : Option Path) : Except FileFault Text :=
  match s.elements files (s.chosen file) with
  | .ok es => .ok (Page.messageTable es name)
  | .error (.notThere f) => .ok (Page.failure (LoadError.notThere f).message)
  | .error (.fault f) => .error f

def enumTable (name : Text) (file : Option Path) : Text :=
  match s.elements files (s.chosen file) with
  | .ok es => Page.enumTable es name
  | .error e => Page.failure e.message

def serviceTable (name : Text) (file : Option Path) : Text :=
  match s.elements files (s.chosen file) with
  | .ok es => Page.serviceTable es name
  | .error e => Page.failure e.message

end Site
end ProtoDocs
