import ProtoDocs.Proofs.Grammar.Numeral
import ProtoDocs.Proofs.Grammar.Origin

/-!
# The numbers of members

The number behind the equals sign of a field, a map field, a group or an enum value is the integer
that is written there, or zero if that integer is out of range or if the text denotes none.

* `Slot.of_lexeme`       what is read in a slot is an integer text;
* `Element.numbered?`    what stands in front of the number of a member, and the number;
* `Numbered.Stands`      where the number of a member is read, and `itemAt_stands` that it is;
* `numbers_exact`        the numbers of a file are exact or zero.
-/

namespace ProtoDocs

open Reader
open Lexeme (isIdentChar)
open Number

/-! ## texts of numbers -/

namespace Number.Slot

variable {s : Slot} {t u r : Text}

/-- What is read in a slot is an integer text; there is no minus in front of a field number. -/
theorem of_lexeme (h : s.lexeme (u ++ r) = some r) : IsInteger u := by
  cases s with
  | field =>
    obtain ⟨n, hn, he⟩ := intLit_eq_some h
    obtain rfl : u = n := List.append_cancel_right he
    exact .inl hn
  | enumValue =>
    obtain ⟨n, hn, he⟩ := enumNumber_eq_some h
    obtain rfl : u = n := List.append_cancel_right he
    exact hn

/-- What can be held can be read in each of its spellings. -/
theorem lexeme_of_mem {v : Int} (hv : s.Holds v) (hu : u ∈ spellings v)
    (hr : r.starts isIdentChar = false) : s.lexeme (u ++ r) = some r := by
  cases s with
  | field =>
    rw [spellings, if_pos hv.1] at hu
    exact intLit_append (natural?_of_mem hu).1 hr
  | enumValue => exact enumNumber_append (value?_of_mem hu).1 hr

theorem number_of_mem {v : Int} (hv : s.Holds v) (hu : u ∈ spellings v) : s.number u = v := by
  obtain ⟨hinteger, hvalue⟩ := value?_of_mem hu
  rw [s.number_eq hinteger, hvalue, exactOrZero_some, if_pos hv]

end Number.Slot

/-! ## numbers in files -/

/-- the readers of what stands in front of a number, equals sign included -/
def Reader.frontOfField : Reader Unit := do
  let _ ← optional label
  let _ ← next typeRef
  let _ ← next ident
  next (mark '=')

def Reader.frontOfMapField : Reader Unit := do
  keyword .map
  next (mark '<')
  let _ ← next typeRef
  next (mark ',')
  let _ ← next typeRef
  next (mark '>')
  let _ ← next ident
  next (mark '=')

def Reader.frontOfEnumValue : Reader Unit := do
  let _ ← ident
  next (mark '=')

def Reader.frontOfGroup : Reader Unit := do
  let _ ← optional label
  next (keyword .group)
  let _ ← next ident
  next (mark '=')

/-- a number in an element: what is read in front of it, its slot, and the number -/
structure Numbered where
  front : Reader Unit
  slot : Slot
  number : Int

def Element.numbered? : Element → Option Numbered
  | .statement _ (.field f) => some ⟨frontOfField, .field, f.number⟩
  | .statement _ (.mapField m) => some ⟨frontOfMapField, .field, m.number⟩
  | .statement _ (.enumValue v) => some ⟨frontOfEnumValue, .enumValue, v.number⟩
  | .block _ (.group _ number _ _) _ => some ⟨frontOfGroup, .field, number⟩
  | _ => none

/-- The text begins with what stands in front of the number and with the number, written as `u`. -/
def Numbered.Stands (n : Numbered) (t u : Text) : Prop :=
  ∃ y z, (n.front t).result = some ((), y) ∧ (skip y).2 = u ++ z ∧ n.slot.lexeme (u ++ z) = some z ∧
    n.number = n.slot.number u

namespace Reader

variable {t r y z : Text}

theorem stands_of_token {front : Reader Unit} {s : Slot} {symbol : Symbol} (hs : s.lexeme.Leaves)
    {u : Text} (hfront : (front t).result = some ((), y))
    (h : (token symbol s.lexeme (skip y).2).result = some (u, z)) :
    (⟨front, s, s.number u⟩ : Numbered).Stands t u := by
  obtain ⟨ht, hread⟩ := (token_eq_some hs).1 h
  exact ⟨y, z, hfront, ht, hread, rfl⟩

theorem fieldNumber_stands {front : Reader Unit} {n : Nat} (hfront : (front t).result = some ((), y))
    (h : (next fieldNumber y).result = some (n, z)) :
    ∃ u, (⟨front, .field, n⟩ : Numbered).Stands t u := by
  rw [result_next] at h
  obtain ⟨u, w, hu, h⟩ := bind_eq_some.1 h
  cases h
  exact ⟨u, stands_of_token (s := .field) Lexeme.consumes_intLit.leaves hfront hu⟩

theorem enumNumber_stands {front : Reader Unit} {n : Int} (hfront : (front t).result = some ((), y))
    (h : (next enumNumber y).result = some (n, z)) :
    ∃ u, (⟨front, .enumValue, n⟩ : Numbered).Stands t u := by
  rw [result_next] at h
  obtain ⟨u, w, hu, h⟩ := bind_eq_some.1 h
  cases h
  exact ⟨u, stands_of_token (s := .enumValue) Lexeme.consumes_enumNumber.leaves hfront hu⟩

theorem field_stands {f : Field} (h : (field t).result = some (.field f, r)) :
    ∃ u, (⟨frontOfField, .field, f.number⟩ : Numbered).Stands t u := by
  rw [field, result_named] at h
  obtain ⟨label, t₁, h₁, h⟩ := bind_eq_some.1 h
  obtain ⟨type, t₂, h₂, h⟩ := bind_eq_some.1 h
  obtain ⟨name, t₃, h₃, h⟩ := bind_eq_some.1 h
  obtain ⟨_, t₄, h₄, h⟩ := bind_eq_some.1 h
  obtain ⟨number, t₅, h₅, h⟩ := bind_eq_some.1 h
  obtain ⟨options, t₆, -, h⟩ := bind_eq_some.1 h
  obtain ⟨_, t₇, -, h⟩ := bind_eq_some.1 h
  cases h
  refine fieldNumber_stands ?_ h₅
  exact bind_eq_some.2 ⟨_, t₁, h₁, bind_eq_some.2 ⟨_, t₂, h₂, bind_eq_some.2 ⟨_, t₃, h₃, h₄⟩⟩⟩

theorem mapField_stands {m : MapField} (h : (mapField t).result = some (.mapField m, r)) :
    ∃ u, (⟨frontOfMapField, .field, m.number⟩ : Numbered).Stands t u := by
  rw [mapField, result_named] at h
  obtain ⟨_, t₁, h₁, h⟩ := bind_eq_some.1 h
  obtain ⟨_, t₂, h₂, h⟩ := bind_eq_some.1 h
  obtain ⟨key, t₃, h₃, h⟩ := bind_eq_some.1 h
  obtain ⟨_, t₄, h₄, h⟩ := bind_eq_some.1 h
  obtain ⟨value, t₅, h₅, h⟩ := bind_eq_some.1 h
  obtain ⟨_, t₆, h₆, h⟩ := bind_eq_some.1 h
  obtain ⟨name, t₇, h₇, h⟩ := bind_eq_some.1 h
  obtain ⟨_, t₈, h₈, h⟩ := bind_eq_some.1 h
  obtain ⟨number, t₉, h₉, h⟩ := bind_eq_some.1 h
  obtain ⟨options, u, -, h⟩ := bind_eq_some.1 h
  obtain ⟨_, v, -, h⟩ := bind_eq_some.1 h
  cases h
  refine fieldNumber_stands ?_ h₉
  exact bind_eq_some.2 ⟨_, t₁, h₁, bind_eq_some.2 ⟨_, t₂, h₂, bind_eq_some.2 ⟨_, t₃, h₃,
    bind_eq_some.2 ⟨_, t₄, h₄, bind_eq_some.2 ⟨_, t₅, h₅, bind_eq_some.2 ⟨_, t₆, h₆,
      bind_eq_some.2 ⟨_, t₇, h₇, h₈⟩⟩⟩⟩⟩⟩⟩

theorem enumValue_stands {v : EnumValue} (h : (enumValue t).result = some (.enumValue v, r)) :
    ∃ u, (⟨frontOfEnumValue, .enumValue, v.number⟩ : Numbered).Stands t u := by
  rw [enumValue, result_named] at h
  obtain ⟨name, t₁, h₁, h⟩ := bind_eq_some.1 h
  obtain ⟨_, t₂, h₂, h⟩ := bind_eq_some.1 h
  obtain ⟨number, t₃, h₃, h⟩ := bind_eq_some.1 h
  obtain ⟨options, t₄, -, h⟩ := bind_eq_some.1 h
  obtain ⟨_, t₅, -, h⟩ := bind_eq_some.1 h
  cases h
  exact enumNumber_stands (bind_eq_some.2 ⟨_, t₁, h₁, h₂⟩) h₃

theorem group_stands {name : Text} {number : Nat} {l : Option Label} {options : List MemberOption}
    (h : (headingLike (.group name number l options) t).result =
      some (.group name number l options, r)) :
    ∃ u, (⟨frontOfGroup, .field, number⟩ : Numbered).Stands t u := by
  obtain ⟨l, t₁, h₁, h⟩ := bind_eq_some.1 h
  obtain ⟨_, t₂, h₂, h⟩ := bind_eq_some.1 h
  obtain ⟨name, t₃, h₃, h⟩ := bind_eq_some.1 h
  obtain ⟨_, t₄, h₄, h⟩ := bind_eq_some.1 h
  obtain ⟨number, t₅, h₅, h⟩ := bind_eq_some.1 h
  obtain ⟨options, t₆, -, h⟩ := bind_eq_some.1 h
  cases h
  refine fieldNumber_stands ?_ h₅
  exact bind_eq_some.2 ⟨_, t₁, h₁, bind_eq_some.2 ⟨_, t₂, h₂, bind_eq_some.2 ⟨_, t₃, h₃, h₄⟩⟩⟩

/-- Where a member is read, its number is. -/
theorem itemAt_stands {q : Place} {e : Element} {n : Numbered}
    (h : (itemAt q t).result = some (some e, r)) (hn : e.numbered? = some n) :
    ∃ u, n.Stands t u := by
  cases itemAt_readsItems q t (some e) r h with
  | @statement s _ hs =>
    cases s with
    | field f =>
      cases hn
      exact field_stands hs
    | mapField m =>
      cases hn
      exact mapField_stands hs
    | enumValue v =>
      cases hn
      exact enumValue_stands hs
    | _ => cases hn
  | @block hd body _ hb =>
    obtain ⟨-, w, hheading, -⟩ := items_inside (p := q) h
    cases hd with
    | group name number l options =>
      cases hn
      exact group_stands hheading
    | _ => cases hn

end Reader

/-! ## all files -/

/-- **Numbers are exact or zero.**  Let `v` be the integer that a number text denotes, if there is
one: octal texts have no digits past 7.  The word of the text is `v` if the magnitude of `v` is at
most `2^63 - 1`, and zero otherwise, and its minus never leaves the words.  The number of a field,
a map field or a group is read off a text behind its name, and so is that of an enum value; it is
`v` if 32 bits hold it, without sign or with it, and zero otherwise.  A number that they hold is
read back from each of its spellings, in decimal, hexadecimal and octal. -/
theorem numbers_exact :
    (∀ (s : Slot) (u r : Text), s.lexeme (u ++ r) = some r →
      (integer u).toInt = exactOrZero FitsWord (value? u) ∧
        (∀ v, u = '-' :: v → (-magnitude v).toInt = -(magnitude v).toInt) ∧
        s.number u = exactOrZero s.Holds (value? u)) ∧
    (∀ (source : Text) (es : List Element), parse source = .ok es →
      ∀ (e : Element) (n : Numbered), Within e es → e.numbered? = some n →
        ∃ q t u, Origin e q t .file source ∧ n.Stands t u ∧
          n.number = exactOrZero n.slot.Holds (value? u)) ∧
    (∀ (s : Slot) (v : Int), s.Holds v → ∀ u ∈ spellings v,
      (∀ r : Text, r.starts isIdentChar = false → s.lexeme (u ++ r) = some r) ∧
        s.number u = v) := by
  refine ⟨?_, ?_, ?_⟩
  · intro s u r h
    have hu := Slot.of_lexeme h
    refine ⟨toInt_integer hu, ?_, s.number_eq hu⟩
    rintro v rfl
    rcases hu with hu | ⟨w, hw, hnatural⟩
    · cases hu.starts
    · cases hw
      exact toInt_neg_magnitude hnatural
  · intro source es h e n hwithin hn
    have he : e.isComment = false := by
      cases e with
      | comment c => cases hn
      | _ => rfl
    obtain ⟨q, t, ho⟩ := (within_iff_origin h he).1 hwithin
    obtain ⟨r, hitem⟩ := ho.item
    obtain ⟨u, hu⟩ := itemAt_stands hitem hn
    obtain ⟨y, z, -, -, hread, hnumber⟩ := id hu
    exact ⟨q, t, u, ho, hu, hnumber.trans (n.slot.number_eq (Slot.of_lexeme hread))⟩
  · intro s v hv u hu
    exact ⟨fun r => Slot.lexeme_of_mem hv hu, Slot.number_of_mem hv hu⟩

def octalText : Text := "enum E{A=-017;}".toList

def octalValue : Element := .statement [] (.enumValue ⟨"A".toList, -15, []⟩)

def octalFile : List Element := [.block [] (.enum "E".toList) [octalValue]]

theorem numbers_exact_octalText :
    parse octalText = .ok octalFile ∧
      (∃ q t u, Origin octalValue q t .file octalText ∧
        (⟨frontOfEnumValue, .enumValue, -15⟩ : Numbered).Stands t u ∧
        -15 = exactOrZero Slot.enumValue.Holds (value? u)) ∧
      (integer "-017".toList).toInt = -15 ∧ Slot.enumValue.number "-017".toList = -15 := by
  have hparse : parse octalText = .ok octalFile := parse_eq_ok.2 (by decide +kernel)
  have hwithin : Within octalValue octalFile :=
    .inside List.mem_cons_self (.here List.mem_cons_self)
  obtain ⟨hwords, hfiles, hspellings⟩ := numbers_exact
  refine ⟨hparse, hfiles _ _ hparse _ _ hwithin rfl, ?_, ?_⟩
  · rw [(hwords .enumValue "-017".toList ";".toList (by decide)).1]
    decide
  · exact (hspellings .enumValue (-15) (by decide) _ (by decide)).2

end ProtoDocs
