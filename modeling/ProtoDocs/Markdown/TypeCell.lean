import ProtoDocs.Text.Case

/-!
# Types in tables

A type is shown by its simple name in code style, linked to the heading of that name. Some well-known
types have a fixed name and no link.

* `TypeCell.fixedName?`   the fixed name of a well-known type;
* `TypeCell.simpleName`   a name without its package;
* `TypeCell.label`        a type on its own;
* `typeCell`              a type as a map value, as an array, or on its own.
-/

namespace ProtoDocs

def inCode (t : Text) : Text := "`".toList ++ t ++ "`".toList

namespace TypeCell

/-- the types that have a fixed name, and that name -/
def fixedNames : List (Text × Text) :=
  [("string".toList, "string".toList),
    ("int32".toList, "integer".toList),
    ("int64".toList, "integer".toList),
    ("bool".toList, "boolean".toList),
    ("bytes".toList, "bytes".toList),
    ("double".toList, "float".toList),
    ("float".toList, "float".toList),
    ("google.protobuf.Struct".toList, "object".toList),
    ("google.protobuf.Timestamp".toList, "timestamp".toList),
    ("google.protobuf.Value".toList, "any".toList),
    ("google.protobuf.Empty".toList, "empty".toList)]

def fixedName? (type : Text) : Option Text :=
  fixedNames.lookup type

/-- the part of a name after its last dot -/
def simpleName (type : Text) : Text :=
  (type.splitOn '.').getLastD []

/-- whether a type without fixed name is shown without a link all the same -/
def isWellKnown (type : Text) : Bool :=
  "google.protobuf".toList.isPrefixOf type

/-- a name in code style, linked to its heading -/
def linked (name : Text) : Text :=
  ['['] ++ inCode name ++ "](#".toList ++ name.toLower ++ [')']

/-- a type on its own -/
def label (type : Text) : Text :=
  match fixedName? type with
  | some name => inCode name
  | none => if isWellKnown type then inCode (simpleName type) else linked (simpleName type)

end TypeCell

/-- a type as it stands in a table: the values of a map if there is a key, or an array -/
def typeCell (type : Text) (repeated : Bool) (mapKey : Option Text) : Text :=
  match mapKey with
  | some key =>
    "map of ".toList ++ (TypeCell.fixedName? key).getD key ++ " to ".toList ++ TypeCell.label type
  | none =>
    if repeated then "array of ".toList ++ TypeCell.label type else TypeCell.label type

end ProtoDocs
