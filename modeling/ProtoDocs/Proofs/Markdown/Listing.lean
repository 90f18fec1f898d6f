import Mathlib.Data.List.Basic
import Mathlib.Data.List.Induction
import ProtoDocs.Markdown.Page

/-!
# What the page of a message lists

A page lists the fields and map fields of a message and the fields of its oneofs, in the order of
the text, and nothing else.  The fields of a oneof are collected one by one while the message is
read; after all of them the groups are those of the oneofs by name, and the notes follow from them.

* `Listing`             a field on the page;
* `Listing.inMessage`   the fields that the body of a message gives, in order;
* `Listing.groups`      the names of the fields of each oneof, said of all fields at once;
* `Listing.page`        the page of a message with these fields;
* `Page.groups_concat`  what entering one more field does to the groups;
* `Page.oneofs_listing` entering all fields one by one gives their groups;
* `Page.messageTable_listing`   the page of a message is the one of the fields it lists.
-/

namespace ProtoDocs

/-- a field on the page of a message: the oneof that it is in, if it is in one, and its comments -/
structure Listing where
  oneof : Option Text
  comments : List Text
  member : Member

namespace Listing

/-! ## fields -/

def inOneof (oneof : Text) : List Element → List Listing
  | [] => []
  | .statement cs (.field f) :: es => ⟨some oneof, cs, .plain f⟩ :: inOneof oneof es
  | _ :: es => inOneof oneof es

def memberOf? (oneof : Text) : Element → Option Listing
  | .statement cs (.field f) => some ⟨some oneof, cs, .plain f⟩
  | _ => none

theorem memberOf?_eq_some {oneof : Text} {e : Element} {f : Listing} :
    memberOf? oneof e = some f ↔
      ∃ ms g, e = .statement ms (.field g) ∧ f = ⟨some oneof, ms, .plain g⟩ := by
  constructor
  · intro h
    unfold memberOf? at h
    split at h
    · exact ⟨_, _, rfl, (Option.some.inj h).symm⟩
    · cases h
  · rintro ⟨ms, g, rfl, rfl⟩
    rfl

/-- A oneof is listed element by element. -/
theorem inOneof_eq_filterMap (oneof : Text) (body : List Element) :
    inOneof oneof body = body.filterMap (memberOf? oneof) := by
  fun_induction inOneof oneof body with
  | case1 => rfl
  | case2 cs f es ih => exact congrArg (_ :: ·) ih
  | case3 e es he ih =>
    rw [List.filterMap_cons, memberOf?]
    · exact ih
    · exact he

/-- the fields of a message, those of its oneofs where the oneof stands -/
def inMessage : List Element → List Listing
  | [] => []
  | .statement cs (.field f) :: es => ⟨none, cs, .plain f⟩ :: inMessage es
  | .statement cs (.mapField m) :: es => ⟨none, cs, .map m⟩ :: inMessage es
  | .block _ (.oneof name) body :: es => inOneof name body ++ inMessage es
  | _ :: es => inMessage es

def row (f : Listing) : FieldRow := f.member.row f.comments f.oneof.isSome

def bareName (f : Listing) : Text := f.member.jsonName.trimBy (· == '\x60')

/-! ## oneofs -/

/-- the names of the oneofs that the fields are in, each once, in the order of their first fields -/
def oneofNames (fs : List Listing) : List Text := (fs.filterMap Listing.oneof).eraseDups

def fieldsOf (fs : List Listing) (name : Text) : List Listing :=
  fs.filter fun f => f.oneof == some name

def groups (fs : List Listing) : List (Text × List Text) :=
  (oneofNames fs).map fun name => (name, (fieldsOf fs name).map bareName)

def notes (message : Text) (fs : List Listing) : List Text :=
  ((oneofNames fs).filter fun name => 2 ≤ (fieldsOf fs name).length).map fun name =>
    Page.oneofNote message ((fieldsOf fs name).map bareName)

/-! ## the page -/

def table (fs : List Listing) : Table where
  headers := ["Field".toList, "Type".toList, "Required".toList, "Description".toList]
  rows := fs.map fun f => f.row.cells

/-- the page of a message with this description and these fields: the description and an empty line,
unless there is no description, then the table, and after an empty line the notes, unless no field
is in a oneof -/
def page (message description : Text) (fs : List Listing) : Text :=
  if fs = [] then Page.nothing
  else Text.join ['\n'] <|
    (if description = [] then [] else [description, []]) ++ [(table fs).render] ++
      (if ∃ f ∈ fs, f.oneof.isSome then [] :: notes message fs else [])

end Listing

namespace Page

open Listing

/-! ## rows -/

theorem filterMap_oneofRow? (oneof : Text) (body : List Element) :
    body.filterMap (oneofRow? oneof) = (inOneof oneof body).map fun f => (f.oneof, f.row) := by
  rw [inOneof_eq_filterMap, List.map_filterMap]
  refine List.filterMap_congr fun e _ => ?_
  cases e with
  | statement cs s => cases s <;> rfl
  | _ => rfl

/-- The rows of a message are those of the fields that it lists. -/
theorem flatMap_rowsOf (body : List Element) :
    body.flatMap rowsOf = (inMessage body).map fun f => (f.oneof, f.row) := by
  induction body with
  | nil => rfl
  | cons e es ih =>
    rw [List.flatMap_cons, ih]
    cases e with
    | comment c => rfl
    | statement cs s => cases s <;> rfl
    | block cs h body =>
      cases h with
      | oneof name =>
        rw [inMessage, List.map_append, ← filterMap_oneofRow?]
        rfl
      | _ => rfl

theorem trimBy_inCode (t : Text) :
    (inCode t).trimBy (· == '\x60') = t.trimBy (· == '\x60') := by
  have hfront : (inCode t).dropWhile (· == '\x60') =
      (t ++ ['\x60']).dropWhile (· == '\x60') := rfl
  rw [Text.trimBy, Text.trimBy, hfront, List.dropWhile_append]
  split
  · rename_i hempty
    rw [List.isEmpty_iff] at hempty
    rw [hempty]
    rfl
  · rw [List.reverse_append]
    rfl

theorem bareName_row (f : Listing) : Page.bareName f.row = f.bareName := trimBy_inCode _

/-! ## groups -/

theorem enter_of_mem {names : List Text} (h : names.Nodup) {oneof : Text} (hmem : oneof ∈ names)
    {field : Text} {fields fields' : Text → List Text}
    (hsame : fields' oneof = fields oneof ++ [field])
    (hothers : ∀ name, name ≠ oneof → fields' name = fields name) :
    enter oneof field (names.map fun name => (name, fields name)) =
      names.map fun name => (name, fields' name) := by
  induction names with
  | nil => simp at hmem
  | cons name names ih =>
    obtain ⟨hname, hnames⟩ := List.nodup_cons.1 h
    rw [List.map_cons, List.map_cons, enter]
    by_cases heq : name = oneof
    · subst heq
      have hrest : names.map (fun n => (n, fields n)) = names.map fun n => (n, fields' n) :=
        List.map_congr_left fun n hn => by rw [hothers n fun hne => hname (hne ▸ hn)]
      rw [if_pos rfl, hsame, hrest]
    · have hmem' : oneof ∈ names := (List.mem_cons.1 hmem).resolve_left (Ne.symm heq)
      rw [if_neg heq, hothers name heq, ih hnames hmem']

theorem enter_of_notMem {groups : List (Text × List Text)} {oneof : Text}
    (h : ∀ g ∈ groups, g.1 ≠ oneof) (field : Text) :
    enter oneof field groups = groups ++ [(oneof, [field])] := by
  induction groups with
  | nil => rfl
  | cons g groups ih =>
    rw [List.forall_mem_cons] at h
    rw [enter, if_neg h.1, ih h.2, List.cons_append]

theorem eraseDups_concat (l : List Text) (a : Text) :
    (l ++ [a]).eraseDups = if a ∈ l then l.eraseDups else l.eraseDups ++ [a] := by
  rw [List.eraseDups_append]
  by_cases h : a ∈ l <;> simp [List.removeAll, h, List.eraseDups_cons]

theorem nodup_eraseDups (l : List Text) : l.eraseDups.Nodup := by
  induction l using List.reverseRecOn with
  | nil => simp
  | append_singleton l a ih =>
    rw [eraseDups_concat]
    split
    · exact ih
    · rename_i ha
      rw [List.nodup_append]
      refine ⟨ih, by simp, fun b hb c hc => ?_⟩
      obtain rfl := List.mem_singleton.1 hc
      rintro rfl
      exact ha (List.mem_eraseDups.1 hb)

theorem oneofNames_concat_of_none (fs : List Listing) {f : Listing} (h : f.oneof = none) :
    oneofNames (fs ++ [f]) = oneofNames fs := by
  rw [oneofNames, List.filterMap_append]
  simp [h, oneofNames]

theorem oneofNames_concat_of_some (fs : List Listing) {f : Listing} {name : Text}
    (h : f.oneof = some name) : oneofNames (fs ++ [f]) =
      if name ∈ fs.filterMap Listing.oneof then oneofNames fs else oneofNames fs ++ [name] := by
  have hlast : [f].filterMap Listing.oneof = [name] := by simp [h]
  rw [oneofNames, List.filterMap_append, hlast, eraseDups_concat]
  rfl

theorem fieldsOf_concat (fs : List Listing) (f : Listing) (name : Text) :
    fieldsOf (fs ++ [f]) name = fieldsOf fs name ++ if f.oneof = some name then [f] else [] := by
  rw [fieldsOf, List.filter_append]
  by_cases h : f.oneof = some name <;> simp [h, fieldsOf]

theorem mem_oneofNames {fs : List Listing} {name : Text} :
    name ∈ oneofNames fs ↔ ∃ f ∈ fs, f.oneof = some name := by
  rw [oneofNames, List.mem_eraseDups, List.mem_filterMap]

theorem fieldsOf_eq_nil {fs : List Listing} {name : Text}
    (h : name ∉ fs.filterMap Listing.oneof) : fieldsOf fs name = [] := by
  rw [fieldsOf, List.filter_eq_nil_iff]
  intro f hf hname
  exact h (List.mem_filterMap.2 ⟨f, hf, by simpa using hname⟩)

theorem groups_concat (fs : List Listing) (f : Listing) :
    groups (fs ++ [f]) = enterRow (groups fs) (f.oneof, f.row) := by
  cases hf : f.oneof with
  | none =>
    have hfields : fieldsOf (fs ++ [f]) = fieldsOf fs := by
      funext name
      rw [fieldsOf_concat, hf, if_neg (by simp), List.append_nil]
    rw [groups, oneofNames_concat_of_none fs hf, hfields]
    rfl
  | some oneof =>
    have hsame : (fieldsOf (fs ++ [f]) oneof).map Listing.bareName =
        (fieldsOf fs oneof).map Listing.bareName ++ [f.bareName] := by
      rw [fieldsOf_concat, if_pos hf, List.map_append, List.map_singleton]
    have hothers (name : Text) (hne : name ≠ oneof) :
        (fieldsOf (fs ++ [f]) name).map Listing.bareName =
          (fieldsOf fs name).map Listing.bareName := by
      rw [fieldsOf_concat, hf, if_neg (fun h => hne (Option.some.inj h).symm), List.append_nil]
    rw [enterRow, bareName_row, groups, oneofNames_concat_of_some fs hf]
    by_cases hmem : oneof ∈ fs.filterMap Listing.oneof
    · rw [if_pos hmem]
      exact (enter_of_mem (nodup_eraseDups _) (List.mem_eraseDups.2 hmem) hsame hothers).symm
    · -- the first field of its oneof, whose group comes behind the others
      have hnew : ∀ g ∈ groups fs, g.1 ≠ oneof := by
        intro g hg hne
        obtain ⟨name, hname, rfl⟩ := List.mem_map.1 hg
        exact hmem (hne ▸ List.mem_eraseDups.1 hname)
      have hnames : (oneofNames fs).map (fun name => (name, (fieldsOf (fs ++ [f]) name).map
          Listing.bareName)) = groups fs := by
        refine List.map_congr_left fun name hname => ?_
        rw [hothers name fun h => hmem (h ▸ List.mem_eraseDups.1 hname)]
      rw [if_neg hmem, enter_of_notMem hnew, List.map_append, List.map_singleton, hnames, hsame,
        fieldsOf_eq_nil hmem]
      rfl

/-- Fields that are entered one by one make up the groups of all. -/
theorem oneofs_listing (fs : List Listing) :
    oneofs (fs.map fun f => (f.oneof, f.row)) = groups fs := by
  induction fs using List.reverseRecOn with
  | nil => rfl
  | append_singleton fs f ih =>
    rw [groups_concat, ← ih, oneofs, List.map_append, List.foldl_append]
    rfl

/-! ## pages -/

theorem notes_eq (message : Text) (fs : List Listing) :
    notes message fs =
      ((groups fs).filter fun g => 1 < g.2.length).map fun g => oneofNote message g.2 := by
  rw [groups, List.filter_map, List.map_map, notes]
  simp only [Function.comp_def, List.length_map]
  rfl

theorem groups_eq_nil_iff (fs : List Listing) : groups fs = [] ↔ ¬ ∃ f ∈ fs, f.oneof.isSome := by
  rw [groups, List.map_eq_nil_iff, List.eq_nil_iff_forall_not_mem]
  constructor
  · rintro h ⟨f, hf, hsome⟩
    obtain ⟨name, hname⟩ := Option.isSome_iff_exists.1 hsome
    exact h name (mem_oneofNames.2 ⟨f, hf, hname⟩)
  · intro h name hname
    obtain ⟨f, hf, heq⟩ := mem_oneofNames.1 hname
    exact h ⟨f, hf, by rw [heq]; rfl⟩

theorem messageTable_eq_page {es : List Element} {name : Text} {e : Element}
    (h : find? .message name es = some e) :
    messageTable es name = page name (describe e.comments) (inMessage e.body) := by
  rw [messageTable, h]
  simp only [flatMap_rowsOf, oneofs_listing, List.isEmpty_iff, List.map_eq_nil_iff, List.map_map,
    groups_eq_nil_iff, ← notes_eq, page, ite_not]
  rfl

end Page
end ProtoDocs
