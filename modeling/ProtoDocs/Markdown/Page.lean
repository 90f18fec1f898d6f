import ProtoDocs.Element.Find
import ProtoDocs.Markdown.FieldRow
import ProtoDocs.Markdown.Table

/-!
# Types as Markdown

What a page shows of a message, an enum or a service: its description and a table of its fields,
values or methods. A type that is not there is reported in the text itself.

* `Page.messageTable`    the fields of a message, and a note on each oneof with several of them;
* `Page.enumTable`       the values of an enum;
* `Page.serviceTable`    the methods of a service.
-/

namespace ProtoDocs.Page

/-- what stands for a table without rows -/
def nothing : Text := "None".toList

def failure (reason : Text) : Text := "**Error:** ".toList ++ reason

def notFound (kind : Kind) (name : Text) : Text :=
  failure (kind.name ++ " ".toList ++ inCode name ++ " not found.".toList)

/-! ## messages -/

def oneofRow? (oneof : Text) : Element → Option (Option Text × FieldRow)
  | .statement comments (.field f) => some (some oneof, (Member.plain f).row comments true)
  | _ => none

/-- the rows that an element of a message adds to its table, each with the oneof that it is in -/
def rowsOf : Element → List (Option Text × FieldRow)
  | .statement comments s => s.member?.toList.map fun m => (none, m.row comments false)
  | .block _ (.oneof name) body => body.filterMap (oneofRow? name)
  | _ => []

def bareName (r : FieldRow) : Text :=
  r.name.trimBy (· == '\x60')

/-- one more field of a oneof: it goes behind the others of this oneof, or begins its group -/
def enter (oneof field : Text) : List (Text × List Text) → List (Text × List Text)
  | [] => [(oneof, [field])]
  | (name, fields) :: groups =>
    if name = oneof then (name, fields ++ [field]) :: groups
    else (name, fields) :: enter oneof field groups

/-- the groups with a row entered, if it is in a oneof -/
def enterRow (groups : List (Text × List Text)) : Option Text × FieldRow → List (Text × List Text)
  | (some oneof, r) => enter oneof (bareName r) groups
  | (none, _) => groups

/-- the fields of each oneof that has any, under its name; oneofs of one name count as one -/
def oneofs (rows : List (Option Text × FieldRow)) : List (Text × List Text) :=
  rows.foldl enterRow []

/-- what a oneof with several fields demands -/
def oneofNote (message : Text) (fields : List Text) : Text :=
  "**Note:** A ".toList ++ inCode message ++ " MUST contain exactly one of the following: ".toList ++
    Text.join ", ".toList (fields.map inCode)

def messageTable (es : List Element) (name : Text) : Text :=
  match find? .message name es with
  | none => notFound .message name
  | some e =>
    let rows := e.body.flatMap rowsOf
    if rows.isEmpty then nothing
    else
      let description := describe e.comments
      let table : Table :=
        ⟨["Field".toList, "Type".toList, "Required".toList, "Description".toList],
          rows.map fun r => r.2.cells⟩
      let groups := oneofs rows
      let notes := (groups.filter fun g => 1 < g.2.length).map fun g => oneofNote name g.2
      Text.join ['\n'] <|
        (if description.isEmpty then [] else [description, []]) ++ [table.render] ++
          (if groups.isEmpty then [] else [] :: notes)

/-! ## enums -/

def enumRow? : Element → Option (List Text)
  | .statement comments (.enumValue v) => some [inCode v.name, describe comments]
  | _ => none

/-- the values of an enum; the description has its place even if there is none -/
def enumTable (es : List Element) (name : Text) : Text :=
  match find? .enum name es with
  | none => notFound .enum name
  | some e =>
    let table : Table := ⟨["Value".toList, "Description".toList], e.body.filterMap enumRow?⟩
    describe e.comments ++ "\n\n".toList ++ table.render

/-! ## services -/

def sideCell (s : Side) : Text :=
  (if s.stream then "stream ".toList else []) ++ typeCell s.type false none

def methodRow? : Element → Option (List Text)
  | .block comments (.method name input output) _ =>
    some [inCode name, sideCell input, sideCell output, describe comments]
  | _ => none

def serviceTable (es : List Element) (name : Text) : Text :=
  match find? .service name es with
  | none => notFound .service name
  | some e =>
    let rows := e.body.filterMap methodRow?
    if rows.isEmpty then nothing
    else
      let table : Table :=
        ⟨["Method".toList, "Request".toList, "Response".toList, "Description".toList], rows⟩
      table.render

end ProtoDocs.Page
