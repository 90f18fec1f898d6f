import ProtoDocs.Proofs.Markdown.Cells
import ProtoDocs.Proofs.Text.Case

/-!
# Links of types

By rule, a type is shown by the last segment of its name and linked to the heading of that segment,
unless the type has a fixed name or lies in the package of the well-known types.  The cells keep to
this rule but for the types whose names only begin like that package: these are not linked either.

* `LastSegment t s`        the dotted name `t` ends with the segment `s`;
* `InPackage`, `Resembles` a name in a package, and one that only begins like it;
* `ruledLabel`, `wrapped`  what the rule says of a type in itself, and what a cell puts around it;
* `label_of_resembles`, `label_of_not_resembles`   what is shown of a type in itself;
* `typeCell_eq_ruled_iff`  when a cell keeps to the rule.
-/

namespace ProtoDocs

theorem IsIdent.dot_notMem {s : Text} (h : IsIdent s) : '.' ∉ s := fun hdot =>
  absurd (h.all '.' hdot) (by decide)

namespace TypeCell

/-! ## segments and packages -/

/-- The segment `s` is all of `t` behind its last dot. -/
def LastSegment (t s : Text) : Prop := '.' ∉ s ∧ (t = s ∨ ∃ p, t = p ++ '.' :: s)

def InPackage (package t : Text) : Prop := package ++ ['.'] <+: t

/-- The name `t` begins like the package and goes on in another way than with a dot. -/
def Resembles (package t : Text) : Prop := package <+: t ∧ ¬InPackage package t

instance (package t : Text) : Decidable (InPackage package t) :=
  inferInstanceAs (Decidable (_ <+: _))

instance (package t : Text) : Decidable (Resembles package t) :=
  inferInstanceAs (Decidable (_ ∧ _))

def wellKnown : Text := "google.protobuf".toList

theorem exists_lastSegment {t : Text} (h : IsFullIdent t) : ∃ s, IsIdent s ∧ LastSegment t s := by
  induction h with
  | @one u hu => exact ⟨u, hu, hu.dot_notMem, .inl rfl⟩
  | @dot u v _ _ ih =>
    obtain ⟨s, hs, hdot, rfl | ⟨p, rfl⟩⟩ := ih
    · exact ⟨v, hs, hdot, .inr ⟨u, rfl⟩⟩
    · exact ⟨s, hs, hdot, .inr ⟨u ++ '.' :: p, by rw [List.append_assoc, List.cons_append]⟩⟩

theorem simpleName_of_lastSegment {t s : Text} (h : LastSegment t s) : simpleName t = s := by
  obtain ⟨hdot, rfl | ⟨p, rfl⟩⟩ := h
  · rw [simpleName, List.splitOn_eq_singleton hdot]
    rfl
  · rw [simpleName, List.splitOn_append_cons_self, List.splitOn_eq_singleton hdot,
      List.getLastD_concat]

theorem isWellKnown_iff (t : Text) :
    isWellKnown t = true ↔ InPackage wellKnown t ∨ Resembles wellKnown t := by
  rw [isWellKnown, List.isPrefixOf_iff_prefix]
  constructor
  · intro h
    by_cases hin : InPackage wellKnown t
    · exact .inl hin
    · exact .inr ⟨h, hin⟩
  · rintro (hin | h)
    · exact (List.prefix_append wellKnown ['.']).trans hin
    · exact h.1

theorem fixedName?_of_resembles {t : Text} (h : Resembles wellKnown t) : fixedName? t = none := by
  have hall : ∀ p ∈ fixedNames, ¬Resembles wellKnown p.1 := by decide
  rw [fixedName?, List.lookup_eq_none_iff]
  intro p hp
  rw [bne_iff_ne]
  rintro rfl
  exact hall p hp h

/-! ## the rule -/

/-- what is shown by rule of the type `t` with the last segment `s` -/
def ruledLabel (t s : Text) : Text :=
  match fixedName? t with
  | some name => inCode name
  | none =>
    if InPackage wellKnown t then inCode s
    else ['['] ++ inCode s ++ "](#".toList ++ s.map Char.toLower ++ [')']

/-- a type in its cell: the values of a map if there is a key, else the items of an array if it is
repeated, else on its own; the key is shown by its fixed name or as it is, and never linked -/
def wrapped (repeated : Bool) (mapKey : Option Text) (l : Text) : Text :=
  match mapKey with
  | some key => "map of ".toList ++ (fixedName? key).getD key ++ " to ".toList ++ l
  | none => if repeated then "array of ".toList ++ l else l

theorem wrapped_inj {repeated : Bool} {key : Option Text} {l l' : Text} :
    wrapped repeated key l = wrapped repeated key l' ↔ l = l' := by
  cases key with
  | some key => exact List.append_right_inj _
  | none =>
    cases repeated with
    | true => exact List.append_right_inj _
    | false => exact Iff.rfl

theorem typeCell_eq_wrapped (t : Text) (repeated : Bool) (key : Option Text) :
    typeCell t repeated key = wrapped repeated key (label t) := rfl

variable {t s : Text}

theorem label_of_resembles (hs : LastSegment t s) (h : Resembles wellKnown t) :
    label t = inCode s := by
  rw [label, fixedName?_of_resembles h]
  simp only [(isWellKnown_iff t).2 (.inr h), if_true, simpleName_of_lastSegment hs]

theorem label_of_not_resembles (hascii : ∀ c ∈ s, c.toNat < 0x80) (hs : LastSegment t s)
    (h : ¬Resembles wellKnown t) : label t = ruledLabel t s := by
  rw [label, ruledLabel]
  cases fixedName? t with
  | some name => rfl
  | none =>
    by_cases hin : InPackage wellKnown t
    · simp only [(isWellKnown_iff t).2 (.inl hin), if_true, if_pos hin,
        simpleName_of_lastSegment hs]
    · have hnot : isWellKnown t = false :=
        Bool.eq_false_iff.2 fun hwell => ((isWellKnown_iff t).1 hwell).elim hin h
      simp only [hnot, Bool.false_eq_true, if_false, if_neg hin, simpleName_of_lastSegment hs,
        linked, Text.toLower_eq_map hascii]

/-- By rule, a type whose name only begins like the package is linked. -/
theorem ruledLabel_ne_of_resembles (h : Resembles wellKnown t) : ruledLabel t s ≠ inCode s := by
  simp only [ruledLabel, fixedName?_of_resembles h, if_neg h.2, List.append_assoc,
    List.singleton_append]
  intro heq
  exact absurd (List.cons.inj heq).1 (by decide)

end TypeCell

open TypeCell

/-- **Types are linked by rule, but for names that only begin like the package of the well-known
types.**  A cell puts one thing at most around the type.  It shows the type by its fixed name, by
its last segment without a link if it lies in the package, and else by the last segment linked to
that segment in lower case, which has no dot; this is so exactly if the name of the type does not go
on in another way than with a dot behind the words of the package.  If it does, there is no link. -/
theorem typeCell_eq_ruled_iff {t : Text} (ht : IsFullIdent t) :
    ∃ s, IsIdent s ∧ LastSegment t s ∧ '.' ∉ s.map Char.toLower ∧
      ∀ (repeated : Bool) (key : Option Text),
        (typeCell t repeated key = wrapped repeated key (ruledLabel t s) ↔
          ¬Resembles wellKnown t) ∧
        (Resembles wellKnown t → typeCell t repeated key = wrapped repeated key (inCode s)) := by
  obtain ⟨s, hs, hlast⟩ := exists_lastSegment ht
  have hascii : ∀ c ∈ s, c.toNat < 0x80 := fun c hc => (hs.plain c hc).1
  have hdot : '.' ∉ s.map Char.toLower := by
    rw [List.mem_map]
    rintro ⟨c, hc, hlower⟩
    exact hlast.1 (eq_of_toLower_eq (by decide) hlower ▸ hc)
  refine ⟨s, hs, hlast, hdot, fun repeated key => ⟨?_, fun h => ?_⟩⟩
  · rw [typeCell_eq_wrapped, wrapped_inj]
    constructor
    · intro heq h
      rw [label_of_resembles hlast h] at heq
      exact ruledLabel_ne_of_resembles h heq.symm
    · exact label_of_not_resembles hascii hlast
  · rw [typeCell_eq_wrapped, label_of_resembles hlast h]

def extraType : Text := "google.protobufx.Foo".toList

theorem extraType_isFullIdent : IsFullIdent extraType := by
  refine .dot (u := "google".toList) ⟨'g', "oogle".toList, rfl, by decide, by decide⟩ ?_
  refine .dot (u := "protobufx".toList) ⟨'p', "rotobufx".toList, rfl, by decide, by decide⟩ ?_
  exact .one ⟨'F', "oo".toList, rfl, by decide, by decide⟩

theorem typeCell_eq_ruled_iff_extraType :
    IsFullIdent extraType ∧ Resembles wellKnown extraType ∧
      typeCell extraType true (some "int32".toList) = "map of integer to `Foo`".toList := by
  have h : Resembles wellKnown extraType := by decide
  obtain ⟨s, -, hs, -, hcell⟩ := typeCell_eq_ruled_iff extraType_isFullIdent
  have hfoo : s = "Foo".toList := by
    rw [← simpleName_of_lastSegment hs]
    decide
  refine ⟨extraType_isFullIdent, h, ((hcell true (some "int32".toList)).2 h).trans ?_⟩
  rw [hfoo]
  decide

/-- Not every type outside the package of the well-known ones is linked. -/
theorem not_forall_typeCell_eq_ruled :
    ¬∀ t s : Text, IsFullIdent t → LastSegment t s → ∀ (repeated : Bool) (key : Option Text),
      typeCell t repeated key = wrapped repeated key (ruledLabel t s) := by
  intro hall
  have hfoo : LastSegment extraType "Foo".toList :=
    ⟨by decide, .inr ⟨"google.protobufx".toList, by decide⟩⟩
  exact absurd (hall extraType _ extraType_isFullIdent hfoo false none) (by decide)

end ProtoDocs
