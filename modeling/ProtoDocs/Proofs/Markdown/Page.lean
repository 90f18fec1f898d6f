import Mathlib.Data.List.Forall2
import ProtoDocs.Proofs.Markdown.Cells
import ProtoDocs.Proofs.Markdown.Description

/-!
# Tables on pages

The table of a type has a row for each field, value or method that it lists.  The only texts in it
that the author of the schema file is free in are the descriptions and the names in JSON that fields
are given: the row of an element is a good line exactly if these fit, and all the rest always is.

* `Page.ofType`       the page of a type;
* `Page.table`        the table on it, under `Page.headers`;
* `Page.listed`       the elements that have a row in it, in order;
* `Element.Fits`      the free texts of an element can stand in cells;
* `Page.ofType_of_rows`   what a page consists of;
* `Page.shows_listed` the rows, one by one;
* `Page.showsTable_of_parse`   which tables are well-formed.
-/

namespace ProtoDocs

/-- the name in JSON that the element gives itself -/
def Element.givenJsonName? : Element → Option Text
  | .statement _ s => s.member?.bind Member.givenJsonName?
  | _ => none

/-- no bar without a backslash in front and no lone carriage return comes from the comments of the
element, and neither of these nor a line feed from the name in JSON that it gives itself -/
def Element.Fits (e : Element) : Prop :=
  (bars false (describe e.comments) = 0 ∧ '\r' ∉ describe e.comments) ∧
    ∀ name ∈ e.givenJsonName?, ProtoDocs.Fits name

namespace Page

/-! ## the table of a type -/

def ofType (kind : Kind) (es : List Element) (name : Text) : Text :=
  match kind with
  | .message => messageTable es name
  | .enum => enumTable es name
  | .service => serviceTable es name

def columns : Kind → Nat
  | .message => 4
  | .enum => 2
  | .service => 4

def headers : Kind → List Text
  | .message => ["Field".toList, "Type".toList, "Required".toList, "Description".toList]
  | .enum => ["Value".toList, "Description".toList]
  | .service => ["Method".toList, "Request".toList, "Response".toList, "Description".toList]

/-- a field of a oneof; maps and groups in a oneof have no row -/
def isPlainField : Element → Bool
  | .statement _ (.field _) => true
  | _ => false

def listedIn : Kind → Element → List Element
  | .message, .statement cs s => if s.member?.isSome then [.statement cs s] else []
  | .message, .block _ (.oneof _) body => body.filter isPlainField
  | .enum, .statement cs (.enumValue v) => [.statement cs (.enumValue v)]
  | .service, .block cs (.method name input output) body =>
    [.block cs (.method name input output) body]
  | _, _ => []

def listed (kind : Kind) (e : Element) : List Element := e.body.flatMap (listedIn kind)

def rowsIn : Kind → Element → List (List Text)
  | .message, e => (rowsOf e).map fun r => r.2.cells
  | .enum, e => (enumRow? e).toList
  | .service, e => (methodRow? e).toList

def table (kind : Kind) (e : Element) : Table := ⟨headers kind, e.body.flatMap (rowsIn kind)⟩

theorem length_headers (kind : Kind) : (headers kind).length = columns kind := by
  cases kind <;> rfl

theorem headers_ne_nil (kind : Kind) : headers kind ≠ [] := by
  cases kind <;> simp [headers]

theorem headers_fit (kind : Kind) : ∀ c ∈ headers kind, Fits c := by
  have hplain : ∀ c ∈ headers kind, Plain c := by
    cases kind with
    | message => decide
    | enum => decide
    | service => decide
  exact fun c hc => (hplain c hc).fits

/-! ## pages -/

theorem rows_message (e : Element) :
    (table .message e).rows = (e.body.flatMap rowsOf).map fun r => r.2.cells := by
  rw [List.map_flatMap]
  rfl

theorem rows_enum (e : Element) : (table .enum e).rows = e.body.filterMap enumRow? := by
  rw [List.filterMap_eq_flatMap_toList]
  rfl

theorem rows_service (e : Element) : (table .service e).rows = e.body.filterMap methodRow? := by
  rw [List.filterMap_eq_flatMap_toList]
  rfl

variable {kind : Kind} {es : List Element} {name : Text} {e : Element}

/-- Without rows there is no table, except that of an enum. -/
theorem ofType_of_rows_nil (h : find? kind name es = some e) (hkind : kind ≠ .enum)
    (hrows : (table kind e).rows = []) : ofType kind es name = nothing := by
  cases kind with
  | message =>
    rw [rows_message, List.map_eq_nil_iff] at hrows
    simp only [ofType, messageTable, h, hrows, List.isEmpty_nil, if_true]
  | enum => exact absurd rfl hkind
  | service =>
    rw [rows_service] at hrows
    simp only [ofType, serviceTable, h, hrows, List.isEmpty_nil, if_true]

/-- With rows the table stands on the page, with lines above and below it. -/
theorem ofType_of_rows (h : find? kind name es = some e)
    (hrows : kind = .enum ∨ (table kind e).rows ≠ []) :
    ∃ above below : List Text,
      ofType kind es name = Text.join ['\n'] (above ++ [(table kind e).render] ++ below) := by
  have htable : table kind e = ⟨headers kind, (table kind e).rows⟩ := rfl
  cases kind with
  | message =>
    have hrows : (table .message e).rows ≠ [] := hrows.resolve_left (by decide)
    rw [rows_message, ne_eq, List.map_eq_nil_iff] at hrows
    rw [htable, rows_message]
    simp only [ofType, messageTable, h, List.isEmpty_iff, hrows, if_false]
    exact ⟨_, _, rfl⟩
  | enum =>
    rw [htable, rows_enum]
    refine ⟨[describe e.comments, []], [], ?_⟩
    simp only [ofType, enumTable, h]
    simp [Text.join, List.intercalate, headers]
  | service =>
    have hrows : (table .service e).rows ≠ [] := hrows.resolve_left (by decide)
    rw [rows_service] at hrows
    rw [htable, rows_service]
    refine ⟨[], [], ?_⟩
    simp only [ofType, serviceTable, h, List.isEmpty_iff, hrows, if_false]
    simp [headers]

theorem splitOn_ofType (h : find? kind name es = some e)
    (hrows : kind = .enum ∨ (table kind e).rows ≠ []) :
    ∃ above below : List Text, (ofType kind es name).splitOn '\n' =
      above ++ (table kind e).render.splitOn '\n' ++ below := by
  obtain ⟨above, below, hpage⟩ := ofType_of_rows h hrows
  refine ⟨above.flatMap (List.splitOn '\n'), below.flatMap (List.splitOn '\n'), ?_⟩
  rw [hpage, Text.splitOn_join '\n' (by simp), List.flatMap_append, List.flatMap_append,
    List.flatMap_singleton]

/-! ## rows -/

/-- the row shows the element: it has a cell in each column, and they fit exactly if the free texts
of the element do -/
def Shows (kind : Kind) (e : Element) (row : List Text) : Prop :=
  row.length = columns kind ∧ ((∀ c ∈ row, Fits c.trim) ↔ e.Fits)

theorem fits_inCode_trim_iff (t : Text) : Fits (inCode t).trim ↔ Fits t := by
  rw [(inCode_tight t).trim_eq, fits_inCode_iff]

theorem fits_describe_trim_iff (comments : List Text) : Fits (describe comments).trim ↔
    bars false (describe comments) = 0 ∧ '\r' ∉ describe comments := by
  rw [(describe_tight comments).trim_eq, fits_describe_iff]

/-- The name of a field in JSON fits if it is not given, and else if the one given fits. -/
theorem fits_jsonName_iff {m : Member} (h : IsIdent m.name) :
    Fits m.jsonName ↔ ∀ name ∈ m.givenJsonName?, Fits name := by
  rw [Member.jsonName]
  cases hgiven : m.givenJsonName? with
  | none =>
    have hfits : Fits (camelCase m.name) := h.plain.camelCase.fits
    simpa using hfits
  | some given => simp

theorem member_named {s : Statement} {m : Member} (hm : s.member? = some m) (hs : s.Named) :
    IsIdent m.name ∧ Plain m.type := by
  cases s with
  | field f =>
    cases hm
    refine ⟨hs.1, ?_⟩
    rw [Member.type]
    exact hs.2.plain.typeCell _ (by simp)
  | mapField f =>
    cases hm
    refine ⟨hs.1, ?_⟩
    rw [Member.type]
    refine hs.2.2.plain.typeCell _ fun k hk => ?_
    cases hk
    exact hs.2.1.plain
  | _ => simp [Statement.member?] at hm

theorem shows_member {cs : List Text} {s : Statement} {m : Member} (hm : s.member? = some m)
    (hs : s.Named) (inOneof : Bool) :
    Shows .message (.statement cs s) (m.row cs inOneof).cells := by
  obtain ⟨hname, htype⟩ := member_named hm hs
  have hgiven : (Element.statement cs s).givenJsonName? = m.givenJsonName? := by
    rw [Element.givenJsonName?, hm, Option.bind_some]
  have hrequirement : Fits (m.requirement inOneof).text.trim := (Requirement.plain _).trim.fits
  refine ⟨rfl, ?_⟩
  rw [FieldRow.cells, Member.row, Element.Fits, hgiven]
  simp only [List.forall_mem_cons, fits_inCode_trim_iff, fits_jsonName_iff hname, htype.trim.fits,
    hrequirement, fits_describe_trim_iff, Element.comments]
  simp [and_comm]

theorem shows_value {cs : List Text} {v : EnumValue} (hv : IsIdent v.name) :
    Shows .enum (.statement cs (.enumValue v)) [inCode v.name, describe cs] := by
  refine ⟨rfl, ?_⟩
  simp [Element.Fits, Element.givenJsonName?, Statement.member?, Element.comments,
    fits_inCode_trim_iff, hv.plain.fits, fits_describe_trim_iff]

theorem shows_method {cs : List Text} {method : Text} {input output : Side} {body : List Element}
    (h : (Heading.method method input output).Named) :
    Shows .service (.block cs (.method method input output) body)
      [inCode method, sideCell input, sideCell output, describe cs] := by
  obtain ⟨hmethod, hinput, houtput⟩ := h
  refine ⟨rfl, ?_⟩
  simp [Element.Fits, Element.givenJsonName?, Element.comments, fits_inCode_trim_iff,
    hmethod.plain.fits, hinput.plain.sideCell.trim.fits, houtput.plain.sideCell.trim.fits,
    fits_describe_trim_iff]

theorem forall₂_flatMap {α β γ : Type} {R : β → γ → Prop} {f : α → List β} {g : α → List γ}
    {l : List α} (h : ∀ a ∈ l, List.Forall₂ R (f a) (g a)) :
    List.Forall₂ R (l.flatMap f) (l.flatMap g) := by
  induction l with
  | nil => exact .nil
  | cons a l ih =>
    rw [List.forall_mem_cons] at h
    rw [List.flatMap_cons, List.flatMap_cons]
    exact List.rel_append h.1 (ih h.2)

/-- A oneof has a row for each of its fields. -/
theorem shows_oneof {oneof : Text} {body : List Element}
    (h : Everywhere Statement.Named Heading.Named body) :
    List.Forall₂ (Shows .message) (body.filter isPlainField)
      ((body.filterMap (oneofRow? oneof)).map fun r => r.2.cells) := by
  induction h with
  | nil => exact .nil
  | comment _ ih => exact ih
  | block _ _ _ _ ih => exact ih
  | @statement cs s es hs _ ih =>
    cases s with
    | field f => exact .cons (shows_member rfl hs true) ih
    | _ => exact ih

theorem shows_listedIn (h : Everywhere Statement.Named Heading.Named [e]) :
    List.Forall₂ (Shows kind) (listedIn kind e) (rowsIn kind e) := by
  cases kind with
  | message =>
    cases h with
    | comment => exact .nil
    | @statement cs s _ hs =>
      rw [listedIn, rowsIn, rowsOf]
      cases hm : s.member? with
      | none => exact .nil
      | some m => exact .cons (shows_member hm hs false) .nil
    | @block cs heading body _ _ hbody =>
      cases heading with
      | oneof oneof => exact shows_oneof hbody
      | _ => exact .nil
  | enum =>
    cases h with
    | comment => exact .nil
    | @statement cs s _ hs =>
      cases s with
      | enumValue v => exact .cons (shows_value hs) .nil
      | _ => exact .nil
    | block => exact .nil
  | service =>
    cases h with
    | comment => exact .nil
    | statement => exact .nil
    | @block cs heading body _ hh =>
      cases heading with
      | method method input output => exact .cons (shows_method hh) .nil
      | _ => exact .nil

theorem shows_listed (h : Everywhere Statement.Named Heading.Named [e]) :
    List.Forall₂ (Shows kind) (listed kind e) (table kind e).rows :=
  forall₂_flatMap fun _ hx => shows_listedIn (h.body.of_mem hx)

/-! ## lines -/

theorem forall₂_forall_iff {α β : Type} {P : α → Prop} {Q : β → Prop} {l : List α} {u : List β}
    (h : List.Forall₂ (fun a b => Q b ↔ P a) l u) : (∀ b ∈ u, Q b) ↔ ∀ a ∈ l, P a := by
  induction h with
  | nil => simp
  | cons hab _ ih => rw [List.forall_mem_cons, List.forall_mem_cons, hab, ih]

/-- The line of a row is good exactly if the free texts of the element that it shows fit. -/
theorem Shows.fitsLine_iff {item : Element} {row : List Text} (h : Shows kind item row) :
    Table.FitsLine (columns kind)
      (Table.line (table kind e).widths ((table kind e).shownCells row)) ↔ item.Fits := by
  have hlen : (table kind e).headers.length = columns kind := length_headers kind
  rw [← hlen, Table.fitsLine_row_iff _ (headers_ne_nil kind),
    Table.shownCells_of_length _ (h.1.trans hlen.symm), List.forall_mem_map]
  exact h.2

/-- What a page shows of a table: all its lines in a row.  These are a header and a ruler, which are
good, and a line for each element that is listed, which is good exactly if the free texts of the
element fit; and the table is well-formed exactly if those of all elements do. -/
structure ShowsTable (page : Text) (kind : Kind) (e : Element) : Prop where
  onPage : ∃ above below : List Text,
    page.splitOn '\n' = above ++ (table kind e).render.splitOn '\n' ++ below
  lines : ∃ header ruler rows, (table kind e).lines = header :: ruler :: rows ∧
    Table.FitsLine (columns kind) header ∧ Table.FitsLine (columns kind) ruler ∧
    List.Forall₂ (fun item row => Table.FitsLine (columns kind) row ↔ item.Fits)
      (listed kind e) rows
  wellFormed_iff : (table kind e).WellFormed ↔ ∀ item ∈ listed kind e, item.Fits

/-- **Which tables are well-formed.**  Where the page of a type in a parsed file shows a table, it
is well-formed up to the descriptions and the names in JSON that fields are given: each line is good
unless one of these breaks it. -/
theorem showsTable_of_parse {source : Text} (hparse : parse source = .ok es)
    (hfound : find? kind name (attach es) = some e) (hrows : kind = .enum ∨ listed kind e ≠ []) :
    ShowsTable (ofType kind (attach es) name) kind e := by
  have hnamed : Everywhere Statement.Named Heading.Named [e] :=
    (parse_named hparse).attach.find? hfound
  have hshows : List.Forall₂ (Shows kind) (listed kind e) (table kind e).rows := shows_listed hnamed
  have hlen : (table kind e).headers.length = columns kind := length_headers kind
  have hlines : List.Forall₂ (fun item row => Table.FitsLine (columns kind) row ↔ item.Fits)
      (listed kind e) ((table kind e).rows.map fun row =>
        Table.line (table kind e).widths ((table kind e).shownCells row)) :=
    List.forall₂_map_right_iff.2 (hshows.imp fun _ _ h => h.fitsLine_iff)
  have hrows' : kind = .enum ∨ (table kind e).rows ≠ [] := by
    refine hrows.imp_right fun hlisted hnil => hlisted ?_
    rwa [hnil, List.forall₂_nil_right_iff] at hshows
  have hheader :
      Table.FitsLine (columns kind) (Table.line (table kind e).widths (headers kind)) := by
    rw [← hlen]
    exact Table.fitsLine_headers _ (headers_ne_nil kind) (headers_fit kind)
  have hruler : Table.FitsLine (columns kind) (Table.ruler (table kind e).widths) := by
    rw [← hlen]
    exact Table.fitsLine_rulerLine _ (headers_ne_nil kind)
  refine ⟨splitOn_ofType hfound hrows', ⟨_, _, _, rfl, hheader, hruler, hlines⟩, ?_⟩
  rw [Table.wellFormed_iff_rows _ (headers_ne_nil kind) (headers_fit kind), hlen]
  exact forall₂_forall_iff hlines

/-! ## a bar in a comment -/

def barField : Field := ⟨"x".toList, 1, .scalar .string, none, []⟩

def barFile : List Element :=
  [.block [] (.message "M".toList) [.comment "// a|b".toList, .statement [] (.field barField)]]

def barText : Text := "message M\x7b// a|b\nstring x=1;\x7d".toList

def barMessage : Element :=
  .block [] (.message "M".toList)
    [.comment "// a|b".toList, .statement ["// a|b".toList] (.field barField)]

theorem barFile_wellFormed : WellFormed .file barFile := by
  refine .block rfl ⟨'M', [], rfl, by decide, by decide⟩ (.comment ?_ ?_) (.nil _)
  · exact .inl ⟨" a|b".toList, rfl, by decide⟩
  · refine .statement rfl ⟨⟨'x', [], rfl, by decide, by decide⟩, by decide, trivial, ?_⟩ (.nil _)
    intro s hs
    simp [barField] at hs

theorem barFile_written : Written barFile barText [] := by
  have hfield : (Statement.field barField).Written "string x=1;\x7d".toList ['}'] := by
    have hnumber : SpellsNatural 1 "1".toList := ⟨.inl ⟨by decide, by decide⟩, by decide⟩
    refine .tokens (.field (f := barField) rfl hnumber) ?_
    exact ⟨" x=1;\x7d".toList, rfl, by decide,
      .cons (g := [' ']) (u := "x".toList) (t := "=1;\x7d".toList) (.space rfl .nil) (by decide)
        (.cons (u := ['=']) (t := "1;\x7d".toList) .nil (by decide)
          (.cons (u := "1".toList) (t := ";\x7d".toList) .nil (by decide)
            (.cons (u := [';']) (t := ['}']) .nil (by decide) .nil)))⟩
  have hmessage : Begins "// a|b\nstring x=1;\x7d".toList ["message".toList, "M".toList, ['{']]
      barText :=
    ⟨" M\x7b// a|b\nstring x=1;\x7d".toList, rfl, by decide,
      .cons (g := [' ']) (u := "M".toList) (t := "\x7b// a|b\nstring x=1;\x7d".toList)
        (.space rfl .nil) (by decide)
        (.cons (u := ['{']) (t := "// a|b\nstring x=1;\x7d".toList) .nil (by decide) .nil)⟩
  refine .block (.message "M".toList) hmessage ?_ .nil
  exact .comment (c := "// a|b".toList) (t := "\nstring x=1;\x7d".toList)
    (.inl ⟨⟨" a|b".toList, rfl, by decide⟩, fun _ => rfl⟩)
    (.filler rfl (.statement hfield .nil))

theorem parse_barText : parse barText = .ok barFile :=
  parse_eq_ok.2 (items_written barFile_written barFile_wellFormed (.inl rfl))

theorem find?_barFile : find? .message "M".toList (attach barFile) = some barMessage := rfl

theorem showsTable_barText :
    parse barText = .ok barFile ∧ find? .message "M".toList (attach barFile) = some barMessage ∧
      listed .message barMessage ≠ [] ∧
      ShowsTable (ofType .message (attach barFile) "M".toList) .message barMessage :=
  have hlisted : listed .message barMessage ≠ [] := by decide
  ⟨parse_barText, find?_barFile, hlisted,
    showsTable_of_parse parse_barText find?_barFile (.inr hlisted)⟩

/-- Not every table is well-formed: a bar in a comment cuts the line of its field once more. -/
theorem not_forall_wellFormed :
    ¬ ∀ (source : Text) (es : List Element) (kind : Kind) (name : Text) (e : Element),
      parse source = .ok es → find? kind name (attach es) = some e →
        (kind = .enum ∨ listed kind e ≠ []) → (table kind e).WellFormed := by
  intro hall
  have hwf := hall _ _ _ _ _ parse_barText find?_barFile (.inr (by decide))
  have hline := hwf.fits ((table .message barMessage).lines.getLast (by decide))
    (List.getLast_mem _)
  exact absurd hline.1 (by decide)

end Page
end ProtoDocs
