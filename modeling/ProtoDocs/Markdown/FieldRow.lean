import ProtoDocs.Element.Basic
import ProtoDocs.Markdown.CamelCase
import ProtoDocs.Markdown.Description
import ProtoDocs.Markdown.TypeCell

/-!
# Rows of fields

A field is shown under the name that it has in JSON, with its type, whether it must be set, and its
description.

* `Member`              a plain field or a map field;
* `Member.jsonName`     its name in JSON;
* `Requirement`         whether a field must be set;
* `FieldRow`            the row;
* `Member.row`          the row of a member.
-/

namespace ProtoDocs

inductive Member
  | plain (f : Field)
  | map (m : MapField)

def Statement.member? : Statement → Option Member
  | .field f => some (.plain f)
  | .mapField m => some (.map m)
  | _ => none

namespace Member

def name : Member → Text
  | plain f => f.name
  | map m => m.name

def options : Member → List MemberOption
  | plain f => f.options
  | map m => m.options

def label : Member → Option Label
  | plain f => f.label
  | map _ => none

def type : Member → Text
  | plain f => typeCell f.type.name (f.label == some .repeated) none
  | map m => typeCell m.value.name false (some m.key.name)

/-- the name that the `json_name` option gives, double quotes removed, unless that is empty -/
def givenJsonName? (m : Member) : Option Text :=
  (m.options.find? fun o => o.name == "json_name".toList).bind fun o =>
    let name := o.value.trimBy (· == '"')
    if name.isEmpty then none else some name

/-- the name in JSON: the one given, or else the declared one in camel case -/
def jsonName (m : Member) : Text :=
  m.givenJsonName?.getD (camelCase m.name)

/-- whether a field behaviour option says that the field is required -/
def hasRequiredBehavior (m : Member) : Bool :=
  m.options.any fun o => Text.holds "field_behavior".toList o.name && Text.holds "REQUIRED".toList o.value

end Member

inductive Requirement
  | yes | no
  /-- one field of several -/
  | oneof
  deriving DecidableEq, Repr

def Requirement.text : Requirement → Text
  | yes => "Yes".toList
  | no => "No".toList
  | oneof => "Optional (OneOf)".toList

/-- a member of a oneof is never required by itself -/
def Member.requirement (m : Member) (inOneof : Bool) : Requirement :=
  if inOneof then .oneof
  else if m.label = some .required || m.hasRequiredBehavior then .yes
  else .no

/-- a row of a field table; name and type are in Markdown -/
structure FieldRow where
  name : Text
  type : Text
  requirement : Requirement
  description : Text
  deriving DecidableEq, Repr

def FieldRow.cells (r : FieldRow) : List Text :=
  [r.name, r.type, r.requirement.text, r.description]

def Member.row (m : Member) (comments : List Text) (inOneof : Bool) : FieldRow where
  name := inCode m.jsonName
  type := m.type
  requirement := m.requirement inOneof
  description := describe comments

end ProtoDocs
