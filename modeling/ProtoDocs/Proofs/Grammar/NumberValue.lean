import ProtoDocs.Proofs.Grammar.Written

/-!
# Numbers as values of options

The value of an option is looked for in an order: bracketed text, strings, the forms of numbers with
a point or an exponent, hexadecimal and decimal digits, and names.  Several of them begin with
digits, and no choice is undone.  Still, a number is read to its end, since every form in front of
its own fails on it.

* `IsNumber`                    a number in any form, perhaps with a sign;
* `firstOf`, `valueForms`       the forms of values in their order;
* `constant_eq_firstOf`         a value has the first form that is found;
* `number_whole`                a number is read as a whole, by its own form, also in an option.
-/

namespace ProtoDocs

open Lexeme Scan

/-- a number in any form, perhaps with a sign -/
def IsNumber (n : Text) : Prop := ∃ s v, n = s ++ v ∧ IsSignText s ∧ (IsFloat v ∨ IsNatural v)

theorem IsNumber.constant_append {n r : Text} (hn : IsNumber n)
    (hr : r.starts isNumberChar = false) : constant (n ++ r) = some r := by
  obtain ⟨s, v, rfl, hs, hv⟩ := hn
  rw [List.append_assoc]
  exact constant_append_plain hs (.inl hv) hr

theorem IsNumber.isConstant {n : Text} (hn : IsNumber n) : IsConstant n := by
  obtain ⟨s, v, rfl, hs, hv⟩ := hn
  exact .inr ⟨s, v, rfl, hs, .inl hv⟩

/-! ## the order of forms -/

namespace Scan

def firstOf (ps : List Scan) : Scan := ps.foldr or fun _ => none

theorem firstOf_nil (t : Text) : firstOf [] t = none := rfl

theorem firstOf_cons (p : Scan) (ps : List Scan) : firstOf (p :: ps) = p.or (firstOf ps) := rfl

theorem firstOf_eq_some_iff {ps : List Scan} {t r : Text} :
    firstOf ps t = some r ↔
      ∃ before p after, ps = before ++ p :: after ∧ (∀ q ∈ before, q t = none) ∧ p t = some r := by
  induction ps with
  | nil => simp [firstOf_nil]
  | cons p ps ih =>
    rw [firstOf_cons, Scan.or, Option.or_eq_some_iff, ih]
    constructor
    · rintro (hp | ⟨hp, before, q, after, rfl, hbefore, hq⟩)
      · exact ⟨[], p, ps, rfl, by simp, hp⟩
      · exact ⟨p :: before, q, after, rfl, List.forall_mem_cons.2 ⟨hp, hbefore⟩, hq⟩
    · rintro ⟨before, q, after, heq, hbefore, hq⟩
      cases before with
      | nil =>
        cases heq
        exact .inl hq
      | cons b before =>
        cases heq
        rw [List.forall_mem_cons] at hbefore
        exact .inr ⟨hbefore.1, before, q, after, rfl, hbefore.2, hq⟩

end Scan

def signed (p : Scan) : Scan := (opt (char isSign)).seq p

theorem signed_or (p q : Scan) : signed (p.or q) = (signed p).or (signed q) := rfl

/-- the forms of numbers in the order in which they are looked for: digits on the right of a point,
digits on its left only, digits with an exponent, hexadecimal digits, and decimal digits -/
def numberForms : List Scan :=
  [(run Char.isDigit).seq ((char (· == '.')).seq ((run1 Char.isDigit).seq (opt exponent))),
    (run1 Char.isDigit).seq ((char (· == '.')).seq (opt exponent)),
    (run1 Char.isDigit).seq exponent,
    ((word "0x".toList).or (word "0X".toList)).seq (run1 isHexDigit),
    run1 Char.isDigit]

/-- the forms of values in the order in which they are looked for -/
def valueForms : List Scan :=
  [aggregate, listValue, stringLit.seq (many ((run isSpace).seq stringLit))] ++
    numberForms.map signed ++ [signed fullIdent]

/-- A value has the first form that is found. -/
theorem constant_eq_firstOf : constant = firstOf valueForms := by
  have hnil (p : Scan) : p.or (firstOf []) = p := funext fun _ => Option.or_none
  have hconstant : constant = aggregate.or (listValue.or
      ((stringLit.seq (many ((run isSpace).seq stringLit))).or
        ((signed (floatLit.or intLit)).or (signed fullIdent)))) := rfl
  simp only [hconstant, floatLit, intLit, signed_or, Scan.or_assoc, valueForms, numberForms,
    List.map_cons, List.map_nil, List.cons_append, List.nil_append, firstOf_cons, hnil]

/-! ## numbers in options -/

def messageWith (message : Text) (f : Field) (o : MemberOption) : Element :=
  .block [] (.message message) [.statement [] (.field { f with options := [o] })]

/-- **Numbers are read whole.**  As the value of an option, a number in front of anything that it
could not go on with is read to its end.  Of all forms that a value can have, the first one that is
found takes the whole number, and every form in front of it finds nothing.  So an option with a
number is read with just this number, as a statement and between the brackets of a member, in any
layout, and a file with it is accepted. -/
theorem number_whole {n name : Text} (hn : IsNumber n) (hname : IsOptionName name) :
    (∀ r : Text, r.starts isNumberChar = false →
      constant (n ++ r) = some r ∧
        ∃ before p after, valueForms = before ++ p :: after ∧
          (∀ q ∈ before, q (n ++ r) = none) ∧ p (n ++ r) = some r) ∧
      (∀ t rest : Text, (Statement.setting ⟨name, n⟩).Written t rest →
        (Reader.setting t).result = some (.setting ⟨name, n⟩, rest)) ∧
      (∀ (t rest : Text) (us : List Text),
        Begins rest (optionTokens [⟨⟨name, n⟩, []⟩] ++ us) t →
        ∃ r, (Reader.fieldOptions t).result = some ([⟨⟨name, n⟩, []⟩], r) ∧ Ahead rest us r) ∧
      (∀ source : Text, Written [.statement [] (.setting ⟨name, n⟩)] source [] →
        parse source = .ok [.statement [] (.setting ⟨name, n⟩)]) ∧
      (∀ (message : Text) (f : Field) (source : Text),
        IsIdent message → (Statement.field f).WellFormed →
        Written [messageWith message f ⟨⟨name, n⟩, []⟩] source [] →
        parse source = .ok [messageWith message f ⟨⟨name, n⟩, []⟩]) := by
  have hsetting : Setting.WellFormed ⟨name, n⟩ := ⟨hname, hn.isConstant⟩
  have hoptions : ∀ o ∈ [(⟨⟨name, n⟩, []⟩ : MemberOption)], o.WellFormed := by
    rintro o ho
    rw [List.mem_singleton.1 ho]
    exact ⟨hsetting, rfl⟩
  have hparse {es : List Element} {source : Text} (hes : WellFormed .file es)
      (h : Written es source []) : parse source = .ok es :=
    parse_eq_ok.2 (items_written h hes (.inl rfl))
  refine ⟨fun r hr => ?_, fun t rest h => statementLike_written h hsetting,
    fun t rest us h => Begins.fieldOptions h hoptions,
    fun source h => hparse (.statement rfl hsetting (.nil _)) h, fun m f source hm hf h => ?_⟩
  · have hconstant := hn.constant_append hr
    refine ⟨hconstant, firstOf_eq_some_iff.1 ?_⟩
    rwa [← constant_eq_firstOf]
  · obtain ⟨hfield, hnumber, htype, -⟩ := hf
    exact hparse (.block rfl hm (.statement rfl ⟨hfield, hnumber, htype, hoptions⟩ (.nil _))
      (.nil _)) h

/-- A number with all its parts is read whole, and so is an option with it. -/
theorem number_whole_exponent :
    IsNumber "-.5E+07".toList ∧ IsOptionName "a".toList ∧
      constant "-.5E+07]".toList = some "]".toList ∧
      parse "option a=-.5E+07;".toList =
        .ok [.statement [] (.setting ⟨"a".toList, "-.5E+07".toList⟩)] := by
  have hexponent : IsExponent "E+07".toList :=
    ⟨'E', ['+'], "07".toList, rfl, by decide, .inr ⟨'+', rfl, by decide⟩, by decide, by decide⟩
  have hnumber : IsNumber "-.5E+07".toList :=
    ⟨['-'], ".5E+07".toList, rfl, .inr ⟨'-', rfl, by decide⟩,
      .inl (.inl ⟨[], ['5'], "E+07".toList, rfl, by decide, ⟨by decide, by decide⟩,
        .inr hexponent⟩)⟩
  have hname : IsOptionName "a".toList := .one (.inl ⟨'a', [], rfl, by decide, by decide⟩)
  have hwritten : Written [.statement [] (.setting ⟨"a".toList, "-.5E+07".toList⟩)]
      "option a=-.5E+07;".toList [] := by
    refine .statement (.tokens (.setting ⟨"a".toList, "-.5E+07".toList⟩) ?_) .nil
    exact ⟨" a=-.5E+07;".toList, rfl, by decide,
      .cons (g := [' ']) (u := ['a']) (t := "=-.5E+07;".toList) (.space rfl .nil) (by decide)
        (.cons (u := ['=']) (t := "-.5E+07;".toList) .nil (by decide)
          (.cons (u := "-.5E+07".toList) (t := [';']) .nil (by decide)
            (.cons (u := [';']) (t := []) .nil (by decide) .nil)))⟩
  obtain ⟨hconstant, -, -, hparse, -⟩ := number_whole hnumber hname
  exact ⟨hnumber, hname, (hconstant "]".toList (by decide)).1, hparse _ hwritten⟩

end ProtoDocs
