import ProtoDocs.Text.Basic

/-!
# Scalar types

The fifteen value types that a schema need not declare.

* `Scalar.name`      the name a schema writes;
* `Scalar.ofName?`   the scalar of a name, if it has one.

`Scalar.ofName?_name` and `Scalar.name_of_ofName?` say that the two are inverse to each other.
-/

namespace ProtoDocs

inductive Scalar
  | double | float
  | int32 | int64 | uint32 | uint64 | sint32 | sint64
  | fixed32 | fixed64 | sfixed32 | sfixed64
  | bool | string | bytes
  deriving DecidableEq, Repr

namespace Scalar

def name : Scalar → Text
  | double => "double".toList
  | float => "float".toList
  | int32 => "int32".toList
  | int64 => "int64".toList
  | uint32 => "uint32".toList
  | uint64 => "uint64".toList
  | sint32 => "sint32".toList
  | sint64 => "sint64".toList
  | fixed32 => "fixed32".toList
  | fixed64 => "fixed64".toList
  | sfixed32 => "sfixed32".toList
  | sfixed64 => "sfixed64".toList
  | bool => "bool".toList
  | string => "string".toList
  | bytes => "bytes".toList

def all : List Scalar :=
  [double, float, int32, int64, uint32, uint64, sint32, sint64, fixed32, fixed64, sfixed32,
    sfixed64, bool, string, bytes]

def ofName? (t : Text) : Option Scalar :=
  all.find? fun s => s.name == t

theorem ofName?_name (s : Scalar) : ofName? s.name = some s := by
  cases s <;> decide

theorem name_of_ofName? {t : Text} {s : Scalar} (h : ofName? t = some s) : s.name = t := by
  simpa using List.find?_some h

end Scalar
end ProtoDocs
