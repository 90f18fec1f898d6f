import ProtoDocs.Yaml.Document
import ProtoDocs.Yaml.Value

/-!
# The settings file of a site

The settings of a documentation site are a YAML mapping. Only the documents directory matters here,
`docs_dir`; whatever else the mapping holds is passed over.

* `SettingsError`           why a text is no settings file, with its message;
* `SettingsFile.docsDir?`   the documents directory that a settings file names, if it does.
-/

namespace ProtoDocs

open Yaml

inductive Mismatch
  /-- a value of another kind -/
  | kind (found expected : Text)
  /-- a text that is not what its tag says -/
  | text (found expected : Text)
  | duplicateKey (key : Text)
  deriving DecidableEq, Repr

def Mismatch.phrase : Mismatch → Text
  | kind found expected => "invalid type: ".toList ++ found ++ ", expected ".toList ++ expected
  | text found expected =>
    "invalid value: string ".toList ++ found.quote ++ ", expected ".toList ++ expected
  | duplicateKey key => "duplicate field `".toList ++ key ++ "`".toList

inductive SettingsError
  | malformed (f : DocumentFault)
  /-- the value of a key, or the whole mapping if there is none -/
  | mismatch (key : Option Text) (m : Mismatch) (place : Mark)
  | incomplete
  | severalDocuments
  deriving DecidableEq, Repr

namespace SettingsError

def message : SettingsError → Text
  | malformed (.fault f) => f.message
  | malformed (.unknownAnchor m) => "unknown anchor".toList ++ m.phrase
  | mismatch key m place =>
    (match key with
      | some k => k ++ ": ".toList
      | none => []) ++ m.phrase ++ place.phrase
  | incomplete => "EOF while parsing a value".toList
  | severalDocuments =>
    "deserializing from YAML containing more than one document is not supported".toList

end SettingsError

namespace SettingsFile

def key : Text := "docs_dir".toList

/-- the end of a document's items: what is wrong there -/
def missing (d : Document) : SettingsError :=
  match d.fault with
  | some f => .malformed f
  | none => .incomplete

def nullTag : Text := "tag:yaml.org,2002:null".toList
def boolTag : Text := "tag:yaml.org,2002:bool".toList
def intTag : Text := "tag:yaml.org,2002:int".toList
def floatTag : Text := "tag:yaml.org,2002:float".toList

def scalarMismatch (tag : Option Text) (text : Text) (style : Style) (expected : Text) : Mismatch :=
  let plain := Value.ofPlain text
  let asText := Mismatch.kind (Value.text text).phrase expected
  match tag with
  | none => if style = .plain then .kind plain.phrase expected else asText
  | some t =>
    if t = boolTag then match Value.bool? text with
      | some b => .kind (Value.bool b).phrase expected
      | none => .text text "a boolean".toList
    else if t = intTag then match (Value.unsignedInt? text).or (Value.negativeInt? text) with
      | some n => .kind (Value.int n).phrase expected
      | none => .text text "an integer".toList
    else if t = floatTag then match Value.float? text with
      | some f => .kind (Value.float f).phrase expected
      | none => .text text "a float".toList
    else if t = nullTag then
      if Value.isNull text then .kind Value.unit.phrase expected else .text text "null".toList
    else if t.head? = some '!' ∧ style = .plain then .kind plain.phrase expected
    else asText

def sequencePhrase : Text := "sequence".toList
def mappingPhrase : Text := "map".toList

/-! ## keys -/

/-- the text of a key; an alias is the scalar that it stands for -/
def keyText (d : Document) (i : Item × Mark) : Except SettingsError Text :=
  let direct : Item × Mark → Except SettingsError Text
    | (.scalar _ text _, _) => .ok text
    | (.sequenceStart, m) =>
      .error (.mismatch none (.kind sequencePhrase "field identifier".toList) m)
    | (_, m) => .error (.mismatch none (.kind mappingPhrase "field identifier".toList) m)
  match i.1 with
  | .alias anchor => direct ((d.target? anchor).getD i)
  | _ => direct i

/-- the key in the path of an error: the key of an alias is not known there -/
def shownKey : Item → Text
  | .scalar _ text _ => text
  | _ => ['?']

/-! ## the directory -/

/-- the directory that a node names, or none if the node is null -/
def directory? (d : Document) (shown : Text) (root : Mark) (i : Item × Mark) :
    Except SettingsError (Option Text) :=
  let direct : Item × Mark → Except SettingsError (Option Text)
    | (.scalar tag text style, _) =>
      if style ≠ .plain then .ok (some text)
      else match tag with
        | some t =>
          if t ≠ nullTag then .ok (some text)
          else if Value.isNull text then .ok none
          else .error (.mismatch none (.text text "null".toList) root)
        | none => .ok (if text.isEmpty || Value.isNull text then none else some text)
    | (.sequenceStart, m) =>
      .error (.mismatch (some shown) (.kind sequencePhrase "path string".toList) m)
    | (_, m) => .error (.mismatch (some shown) (.kind mappingPhrase "path string".toList) m)
  match i.1 with
  | .alias anchor => direct ((d.target? anchor).getD i)
  | _ => direct i

/-! ## the mapping -/

/-- reads the rest of a mapping that began at `root`, of at most `n` keys, where `found` is what the
key of the directory said so far -/
def entries (d : Document) (root : Mark) (found : Option (Option Text)) :
    Nat → List (Item × Mark) → Except SettingsError (Option Text)
  | 0, _ => .ok (found.getD none)
  | _ + 1, [] => .error (missing d)
  | _ + 1, (.mappingEnd, _) :: _ => .ok (found.getD none)
  | n + 1, i :: rest => do
    let text ← keyText d i
    if text ≠ key then
      match Document.skipNode? 0 rest with
      | none => .error (missing d)
      | some rest => entries d root found n rest
    else if found.isSome then .error (.mismatch none (.duplicateKey key) root)
    else match rest with
      | [] => .error (missing d)
      | v :: rest =>
        let value ← directory? d (shownKey i.1) root v
        entries d root (some value) n rest

/-- the directory that the items of a document name -/
def ofItems (d : Document) : Except SettingsError (Option Text) :=
  let expected := "struct MkDocsFile".toList
  match d.items with
  | [] => .error (missing d)
  | (.mappingStart, m) :: rest => entries d m none (rest.length + 1) rest
  | (.sequenceStart, m) :: _ => .error (.mismatch none (.kind sequencePhrase expected) m)
  | (.scalar tag text style, m) :: _ =>
    if text.isEmpty ∧ style = .plain then .ok none
    else .error (.mismatch none (scalarMismatch tag text style expected) m)
  | _ => .ok none

/-- the documents directory that a settings file names, if it names one -/
def docsDir? (t : Text) : Except SettingsError (Option Text) := do
  let d := Document.ofText t
  let found ← ofItems d
  match d.fault with
  | some f => .error (.malformed f)
  | none => if d.followed then .error .severalDocuments else return found

end SettingsFile
end ProtoDocs
