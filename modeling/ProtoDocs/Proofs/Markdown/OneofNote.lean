import ProtoDocs.Proofs.Grammar.Shape
import ProtoDocs.Proofs.Markdown.Listing
import ProtoDocs.Proofs.Markdown.Page

/-!
# Oneofs on the page of a message

In a parsed file the members of a oneof are plain fields and groups.  The page of its message has a
row for each plain field, and a note that lists all members if there are at least two and no group is
among them.  Groups have no rows, neither here nor directly in a message: the page is the same
without them.

* `Stands`         a line is a line of a page;
* `HasRow`         a row is one of the table on a page;
* `FieldOf`        a field of a message or of one of its oneofs;
* `ShowsOneof`     what the page of a message shows of a oneof;
* `showsOneof_of_parse`   it does so in every parsed file;
* `not_forall_members_listed`   groups are not listed.
-/

namespace ProtoDocs

def Element.isSetting : Element → Bool
  | .statement _ (.setting _) => true
  | _ => false

def Element.isGroup : Element → Bool
  | .block _ (.group ..) _ => true
  | _ => false

/-- a member of a oneof, which is one of the alternatives -/
def Element.isMember (e : Element) : Bool := Page.isPlainField e || e.isGroup

namespace Page

open Listing

/-! ## lines of pages -/

/-- the text is a line of the page, or several in a row -/
def Stands (line page : Text) : Prop :=
  ∃ above below : List Text, page = Text.join ['\n'] (above ++ [line] ++ below)

def HasRow (page : Text) (r : FieldRow) : Prop :=
  ∃ widths, Stands (Table.line widths (r.cells.map Text.trim)) page

theorem stands_of_mem {line : Text} {lines : List Text} (h : line ∈ lines) :
    Stands line (Text.join ['\n'] lines) := by
  obtain ⟨above, below, rfl⟩ := List.append_of_mem h
  exact ⟨above, below, by rw [List.append_assoc, List.singleton_append]⟩

theorem Stands.trans {line part page : Text} (h : Stands line part) (hpart : Stands part page) :
    Stands line page := by
  obtain ⟨above, below, rfl⟩ := h
  obtain ⟨above', below', rfl⟩ := hpart
  refine ⟨above' ++ above, below ++ below', ?_⟩
  rw [Text.join_join _ _ (by simp)]
  simp only [List.append_assoc]

variable (message description : Text) {fs : List Listing}

theorem stands_table (h : fs ≠ []) :
    Stands (Listing.table fs).render (page message description fs) := by
  rw [page, if_neg h]
  exact ⟨_, _, rfl⟩

theorem hasRow_of_mem {f : Listing} (h : f ∈ fs) : HasRow (page message description fs) f.row := by
  have htable := stands_table message description (List.ne_nil_of_mem h)
  have hcells : (Listing.table fs).shownCells f.row.cells = f.row.cells.map Text.trim :=
    Table.shownCells_of_length _ rfl
  refine ⟨(Listing.table fs).widths, Stands.trans (stands_of_mem ?_) htable⟩
  rw [← hcells]
  refine List.mem_cons_of_mem _ (List.mem_cons_of_mem _ (List.mem_map_of_mem ?_))
  exact List.mem_map_of_mem h

theorem stands_note {oneof : Text} (h : 2 ≤ (fieldsOf fs oneof).length) :
    Stands (oneofNote message ((fieldsOf fs oneof).map Listing.bareName))
      (page message description fs) := by
  obtain ⟨f, hf⟩ := List.exists_mem_of_length_pos (Nat.lt_of_lt_of_le Nat.zero_lt_two h)
  obtain ⟨hmem, hname⟩ := List.mem_filter.1 hf
  have hname : f.oneof = some oneof := by simpa using hname
  have honeof : ∃ f ∈ fs, f.oneof.isSome := ⟨f, hmem, by rw [hname]; rfl⟩
  have hnote : oneofNote message ((fieldsOf fs oneof).map Listing.bareName) ∈ notes message fs := by
    refine List.mem_map.2 ⟨oneof, List.mem_filter.2 ⟨?_, by simpa using h⟩, rfl⟩
    exact List.mem_eraseDups.2 (List.mem_filterMap.2 ⟨f, hmem, hname⟩)
  rw [page, if_neg (List.ne_nil_of_mem hmem), if_pos honeof]
  exact stands_of_mem (List.mem_append_right _ (List.mem_cons_of_mem _ hnote))

/-! ## oneofs among the fields -/

theorem inMessage_append (as bs : List Element) :
    inMessage (as ++ bs) = inMessage as ++ inMessage bs := by
  induction as with
  | nil => rfl
  | cons e as ih =>
    cases e with
    | comment c => exact ih
    | statement cs s =>
      cases s with
      | field f => exact congrArg (_ :: ·) ih
      | mapField m => exact congrArg (_ :: ·) ih
      | _ => exact ih
    | block cs h body =>
      cases h with
      | oneof name =>
        rw [List.cons_append, inMessage, inMessage, ih, List.append_assoc]
      | _ => exact ih

theorem inMessage_oneof (before after body : List Element) (cs : List Text) (oneof : Text) :
    inMessage (before ++ .block cs (.oneof oneof) body :: after) =
      inMessage before ++ inOneof oneof body ++ inMessage after := by
  rw [inMessage_append, inMessage, List.append_assoc]

def memberRow? : Element → Option FieldRow
  | .statement ms (.field f) => some ((Member.plain f).row ms true)
  | _ => none

theorem map_row_memberOf? (oneof : Text) (e : Element) :
    (memberOf? oneof e).map Listing.row = memberRow? e := by
  cases e with
  | statement cs s => cases s <;> rfl
  | _ => rfl

theorem isSome_memberOf? (oneof : Text) (e : Element) :
    (memberOf? oneof e).isSome = isPlainField e := by
  cases e with
  | statement cs s => cases s <;> rfl
  | _ => rfl

theorem map_row_inOneof (oneof : Text) (body : List Element) :
    (inOneof oneof body).map Listing.row = body.filterMap memberRow? := by
  rw [inOneof_eq_filterMap, List.map_filterMap]
  exact List.filterMap_congr fun e _ => map_row_memberOf? oneof e

/-- Only the plain fields of a oneof count. -/
theorem inOneof_filter (oneof : Text) (body : List Element) :
    inOneof oneof (body.filter isPlainField) = inOneof oneof body := by
  rw [inOneof_eq_filterMap, inOneof_eq_filterMap, List.filterMap_filter]
  refine List.filterMap_congr fun e _ => ?_
  rw [← isSome_memberOf? oneof e]
  cases memberOf? oneof e <;> rfl

theorem length_inOneof (oneof : Text) (body : List Element) :
    (inOneof oneof body).length = (body.filter isPlainField).length := by
  simp only [inOneof_eq_filterMap, List.length_filterMap_eq_countP, isSome_memberOf?,
    List.countP_eq_length_filter]

theorem mem_inOneof_iff {oneof : Text} {body : List Element} {f : Listing} :
    f ∈ inOneof oneof body ↔
      ∃ ms g, .statement ms (.field g) ∈ body ∧ f = ⟨some oneof, ms, .plain g⟩ := by
  simp only [inOneof_eq_filterMap, List.mem_filterMap, memberOf?_eq_some]
  constructor
  · rintro ⟨_, hmem, ms, g, rfl, rfl⟩
    exact ⟨ms, g, hmem, rfl⟩
  · rintro ⟨ms, g, hmem, rfl⟩
    exact ⟨_, hmem, ms, g, rfl, rfl⟩

theorem oneof_of_mem_inOneof {oneof : Text} {body : List Element} :
    ∀ f ∈ inOneof oneof body, f.oneof = some oneof := by
  intro f hf
  obtain ⟨ms, g, -, rfl⟩ := mem_inOneof_iff.1 hf
  rfl

/-- The field is one of a message with these elements: it stands among them, or in a oneof that
does. -/
inductive FieldOf (es : List Element) : Listing → Prop
  | direct {cs : List Text} {s : Statement} {m : Member} :
      .statement cs s ∈ es → s.member? = some m → FieldOf es ⟨none, cs, m⟩
  | inOneof {cs ms : List Text} {oneof : Text} {body : List Element} {f : Field} :
      .block cs (.oneof oneof) body ∈ es → .statement ms (.field f) ∈ body →
        FieldOf es ⟨some oneof, ms, .plain f⟩

theorem FieldOf.cons {es : List Element} {f : Listing} (h : FieldOf es f) (e : Element) :
    FieldOf (e :: es) f := by
  cases h with
  | direct hs hm => exact .direct (List.mem_cons_of_mem e hs) hm
  | inOneof hb hf => exact .inOneof (List.mem_cons_of_mem e hb) hf

/-- What a message lists are its fields: no row comes from anything else. -/
theorem mem_inMessage_iff {es : List Element} {f : Listing} : f ∈ inMessage es ↔ FieldOf es f := by
  constructor
  · intro h
    fun_induction inMessage es with
    | case1 => cases h
    | case2 cs g es ih =>
      rcases List.mem_cons.1 h with rfl | h
      · exact .direct List.mem_cons_self rfl
      · exact (ih h).cons _
    | case3 cs m es ih =>
      rcases List.mem_cons.1 h with rfl | h
      · exact .direct List.mem_cons_self rfl
      · exact (ih h).cons _
    | case4 cs name body es ih =>
      rcases List.mem_append.1 h with h | h
      · obtain ⟨ms, g, hg, rfl⟩ := mem_inOneof_iff.1 h
        exact .inOneof List.mem_cons_self hg
      · exact (ih h).cons _
    | case5 e es _ _ _ ih => exact (ih h).cons _
  · rintro (@⟨cs, s, m, hs, hm⟩ | @⟨cs, ms, oneof, body, g, hb, hg⟩)
    · obtain ⟨before, after, rfl⟩ := List.append_of_mem hs
      rw [inMessage_append, List.mem_append]
      cases s with
      | field g =>
        cases hm
        exact .inr List.mem_cons_self
      | mapField g =>
        cases hm
        exact .inr List.mem_cons_self
      | _ => cases hm
    · obtain ⟨before, after, rfl⟩ := List.append_of_mem hb
      rw [inMessage_oneof, List.mem_append, List.mem_append]
      exact .inl (.inr (mem_inOneof_iff.2 ⟨ms, g, hg, rfl⟩))

/-- Where no oneof of this name stands, none of its fields does. -/
theorem fieldsOf_inMessage_eq_nil {oneof : Text} {es : List Element}
    (h : ∀ cs body, .block cs (.oneof oneof) body ∉ es) : fieldsOf (inMessage es) oneof = [] := by
  rw [fieldsOf, List.filter_eq_nil_iff]
  intro f hf hname
  cases mem_inMessage_iff.1 hf with
  | direct hs hm => simp at hname
  | inOneof hb hg =>
    obtain rfl : _ = oneof := by simpa using hname
    exact h _ _ hb

/-- A oneof whose name no other has in the message has its own fields only. -/
theorem fieldsOf_inMessage {before after : List Element} (body : List Element) (cs : List Text)
    {oneof : Text}
    (h : ∀ cs' body', .block cs' (.oneof oneof) body' ∉ before ++ after) :
    fieldsOf (inMessage (before ++ .block cs (.oneof oneof) body :: after)) oneof =
      inOneof oneof body := by
  have hbefore : fieldsOf (inMessage before) oneof = [] :=
    fieldsOf_inMessage_eq_nil fun cs body hmem => h cs body (List.mem_append_left _ hmem)
  have hafter : fieldsOf (inMessage after) oneof = [] :=
    fieldsOf_inMessage_eq_nil fun cs body hmem => h cs body (List.mem_append_right _ hmem)
  have hown : fieldsOf (inOneof oneof body) oneof = inOneof oneof body := by
    rw [fieldsOf, List.filter_eq_self]
    intro f hf
    rw [oneof_of_mem_inOneof f hf, beq_self_eq_true]
  rw [fieldsOf] at hbefore hafter hown ⊢
  rw [inMessage_oneof, List.filter_append, List.filter_append, hbefore, hown, hafter,
    List.nil_append, List.append_nil]

/-! ## parsed files -/

/-- What may stand in a oneof. -/
theorem kinds_of_shaped {e : Element} (h : Shaped .oneof [e.bare]) :
    e.isComment ∨ e.isSetting ∨ e.isMember := by
  cases e with
  | comment c => exact .inl rfl
  | statement cs s =>
    cases h with
    | statement hp _ _ _ =>
      cases s with
      | setting s => exact .inr (.inl rfl)
      | field f => exact .inr (.inr rfl)
      | _ => simp [Place.admits] at hp
  | block cs hd body =>
    cases h with
    | block hp _ _ _ _ =>
      cases hd with
      | group => exact .inr (.inr rfl)
      | _ => simp [Place.admitsBlock] at hp

/-- What the page shows of the oneof `oneof` of a message, which has `body` in it and stands between
`before` and `after`. -/
structure ShowsOneof (page message description : Text) (before : List Element) (oneof : Text)
    (body after : List Element) : Prop where
  /-- its members are plain fields and groups -/
  members : ∀ e ∈ body, e.isComment ∨ e.isSetting ∨ e.isMember
  /-- the page is made of the fields of the message, and whatever else is in the oneof makes no
  difference to it -/
  page_eq : ∀ (cs' : List Text) (body' : List Element),
    body'.filter isPlainField = body.filter isPlainField →
      page = Listing.page message description
        (inMessage (before ++ .block cs' (.oneof oneof) body' :: after))
  /-- the rows of its table are those of what stands around the oneof, and between them one for each
  plain field in it -/
  rows : (Listing.table (inMessage (before ++ .block [] (.oneof oneof) body :: after))).rows =
    (Listing.table (inMessage before)).rows ++ (body.filterMap memberRow?).map FieldRow.cells ++
      (Listing.table (inMessage after)).rows
  /-- no row stands for anything but a field -/
  fields : ∀ f ∈ inMessage (before ++ .block [] (.oneof oneof) body :: after),
    FieldOf (before ++ .block [] (.oneof oneof) body :: after) f
  /-- each plain field has a row, where it is marked -/
  row : ∀ ms f, .statement ms (.field f) ∈ body →
    HasRow page ((Member.plain f).row ms true) ∧
      ((Member.plain f).row ms true).requirement.text = "Optional (OneOf)".toList
  /-- a note lists all members if there are several, none of them a group -/
  note : (∀ cs' body', .block cs' (.oneof oneof) body' ∉ before ++ after) →
    (∀ e ∈ body, e.isGroup = false) → 2 ≤ (body.filter Element.isMember).length →
      Stands (oneofNote message ((inOneof oneof body).map Listing.bareName)) page

/-- **What pages show of oneofs.**  In every parsed file, the page of a message has a row for each
plain field of a oneof and none for its groups, and a note that lists all members of a oneof if its
name is its own, there are at least two of them, and none is a group. -/
theorem showsOneof_of_parse {source name oneof : Text} {es before body after : List Element}
    {e : Element} {cs : List Text} (hparse : parse source = .ok es)
    (hfound : find? .message name (attach es) = some e)
    (hbody : e.body = before ++ .block cs (.oneof oneof) body :: after) :
    ShowsOneof (messageTable (attach es) name) name (describe e.comments) before oneof body
      after := by
  have hpage := messageTable_eq_page hfound
  rw [hbody] at hpage
  constructor
  case members =>
    obtain ⟨p, he⟩ := (parse_reading hparse).shaped.find?_attach hfound
    obtain ⟨q, hmessage⟩ := he.body_bare
    have hmem : .block [] (.oneof oneof) (bare body) ∈ bare e.body := by
      rw [hbody, bare_eq_map, List.map_append, List.map_cons]
      exact List.mem_append_right _ List.mem_cons_self
    have honeof : Shaped .oneof (bare body) := (hmessage.of_mem hmem).of_block
    intro m hm
    refine kinds_of_shaped (honeof.of_mem ?_)
    rw [bare_eq_map]
    exact List.mem_map_of_mem hm
  case page_eq =>
    intro cs' body' hsame
    have hown : inOneof oneof body' = inOneof oneof body := by
      rw [← inOneof_filter, hsame, inOneof_filter]
    rw [hpage, inMessage_oneof, inMessage_oneof, hown]
  case rows =>
    rw [← map_row_inOneof oneof, List.map_map]
    simp only [Listing.table, inMessage_oneof, List.map_append]
    rfl
  case fields => exact fun f hf => mem_inMessage_iff.1 hf
  case row =>
    intro ms f hf
    have hfield : FieldOf (before ++ .block cs (.oneof oneof) body :: after)
        ⟨some oneof, ms, .plain f⟩ :=
      .inOneof (List.mem_append_right before List.mem_cons_self) hf
    rw [hpage]
    refine ⟨?_, rfl⟩
    show HasRow _ (Listing.row ⟨some oneof, ms, .plain f⟩)
    exact hasRow_of_mem name (describe e.comments) (mem_inMessage_iff.2 hfield)
  case note =>
    intro hunique hgroup hlen
    have hown := fieldsOf_inMessage body cs hunique
    have hplain : body.filter Element.isMember = body.filter isPlainField := by
      refine List.filter_congr fun m hm => ?_
      rw [Element.isMember, hgroup m hm, Bool.or_false]
    rw [hplain, ← length_inOneof oneof] at hlen
    rw [hpage, ← hown]
    exact stands_note name (describe e.comments) (by rw [hown]; exact hlen)

/-! ## fields and a group -/

def stringField (name : Text) (number : Nat) : Element :=
  .statement [] (.field ⟨name, number, .scalar .string, none, []⟩)

def fieldX : Element := stringField "x".toList 1

def groupG : Element := .block [] (.group "G".toList 2 none []) []

def choiceOf (members : List Element) : Element :=
  .block [] (.message "M".toList) [.block [] (.oneof "o".toList) members]

/-- a message with two oneofs, the first of them with a group -/
def twoChoices : Element :=
  .block [] (.message "M".toList) [.block [] (.oneof "o".toList) [fieldX, groupG],
    .block [] (.oneof "p".toList) [stringField "y".toList 3, stringField "z".toList 4]]

def choiceText : Text :=
  "message M\x7boneof o\x7bstring x=1;group G=2\x7b\x7d\x7d".toList ++
    "oneof p\x7bstring y=3;string z=4;\x7d\x7d".toList

theorem parse_choiceText : parse choiceText = .ok [twoChoices] :=
  parse_eq_ok.2 (by decide +kernel)

theorem showsOneof_choiceText :
    parse choiceText = .ok [twoChoices] ∧
      find? .message "M".toList (attach [twoChoices]) = some twoChoices ∧
      messageTable (attach [twoChoices]) "M".toList =
        Listing.page "M".toList [] (inMessage [.block [] (.oneof "o".toList) [fieldX],
          .block [] (.oneof "p".toList) [stringField "y".toList 3, stringField "z".toList 4]]) ∧
      HasRow (messageTable (attach [twoChoices]) "M".toList)
        ⟨"\x60x\x60".toList, "\x60string\x60".toList, .oneof, []⟩ ∧
      Stands "**Note:** A `M` MUST contain exactly one of the following: `y`, `z`".toList
        (messageTable (attach [twoChoices]) "M".toList) := by
  have hfound : find? .message "M".toList (attach [twoChoices]) = some twoChoices := by
    decide +kernel
  -- once for each of the two oneofs
  have ho := showsOneof_of_parse parse_choiceText hfound
    (show twoChoices.body = [] ++ .block [] (.oneof "o".toList) [fieldX, groupG] :: _ from rfl)
  have hp := showsOneof_of_parse parse_choiceText hfound
    (show twoChoices.body = [_] ++ .block [] (.oneof "p".toList) _ :: [] from rfl)
  exact ⟨parse_choiceText, hfound, ho.page_eq [] [fieldX] rfl,
    (ho.row [] ⟨"x".toList, 1, .scalar .string, none, []⟩ (by decide)).1,
    hp.note (by simp [Element.block.injEq]) (by decide) (by decide)⟩

def groupText : Text := "message M\x7boneof o\x7bstring x=1;group G=2\x7b\x7d\x7d\x7d".toList

theorem parse_groupText : parse groupText = .ok [choiceOf [fieldX, groupG]] :=
  parse_eq_ok.2 (by decide +kernel)

/-- Not all members of oneofs are listed: a group has no row, and beside a field there is no note. -/
theorem not_forall_members_listed :
    (¬ ∀ (source : Text) (es : List Element) (name : Text) (e : Element) (cs : List Text)
        (oneof : Text) (body : List Element), parse source = .ok es →
        find? .message name (attach es) = some e → .block cs (.oneof oneof) body ∈ e.body →
          (body.filter Element.isMember).length ≤ (table .message e).rows.length) ∧
      ¬ ∀ (source : Text) (es : List Element) (name : Text) (e : Element) (cs : List Text)
        (oneof : Text) (before body after : List Element), parse source = .ok es →
        find? .message name (attach es) = some e →
        e.body = before ++ .block cs (.oneof oneof) body :: after →
        (∀ cs' body', .block cs' (.oneof oneof) body' ∉ before ++ after) →
        2 ≤ (body.filter Element.isMember).length →
          Text.holds "MUST contain exactly one of the following".toList
            (messageTable (attach es) name) := by
  have hfound : find? .message "M".toList (attach [choiceOf [fieldX, groupG]]) =
      some (choiceOf [fieldX, groupG]) := by decide +kernel
  constructor
  · intro hall
    have hrows := hall _ _ _ _ [] "o".toList [fieldX, groupG] parse_groupText hfound (by decide)
    exact absurd hrows (by decide)
  · intro hall
    have hnote := hall _ _ _ _ [] "o".toList [] [fieldX, groupG] [] parse_groupText hfound rfl
      (by simp) (by decide)
    exact absurd hnote (by decide +kernel)

end Page
end ProtoDocs
