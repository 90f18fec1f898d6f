import ProtoDocs.Markdown.Page
import ProtoDocs.Proofs.Grammar.Names
import ProtoDocs.Proofs.Markdown.Table
import ProtoDocs.Proofs.Text.Trim

/-!
# Cells that always fit

Names and types are ASCII without bars and line breaks, and stay so in camel case, in lower case, in
code style and as links.  A text that is put into code style fits exactly if it does without.

* `Plain t`           the text `t` is ASCII without bars and line breaks;
* `Plain.fits`        it can stand in a cell;
* `IsIdent.plain`, `IsFullIdent.plain`   names are such;
* `Plain.camelCase`, `Plain.toLower`, `Plain.typeCell`   what the tables make of them is, too;
* `fits_inCode_iff`   a text in code style.
-/

namespace ProtoDocs

def Plain (t : Text) : Prop := ∀ c ∈ t, c.toNat < 0x80 ∧ c ≠ '|' ∧ c ≠ '\n' ∧ c ≠ '\r'

instance (t : Text) : Decidable (Plain t) := inferInstanceAs (Decidable (∀ c ∈ t, _))

theorem bars_of_notMem {t : Text} (h : '|' ∉ t) (escaped : Bool) : bars escaped t = 0 := by
  induction t generalizing escaped with
  | nil => rfl
  | cons c t ih =>
    rw [List.mem_cons, not_or] at h
    rw [bars, ih h.2, if_neg fun hc => h.1 hc.1.symm]

/-- Only characters that are no bars follow. -/
theorem bars_append_of_notMem {t : Text} (h : '|' ∉ t) (escaped : Bool) (s : Text) :
    bars escaped (s ++ t) = bars escaped s := by
  induction s generalizing escaped with
  | nil => rw [List.nil_append, bars_of_notMem h, bars]
  | cons c s ih => rw [List.cons_append, bars, ih, bars]

theorem inCode_tight (t : Text) : Text.Tight (inCode t) := by
  constructor
  · intro c hc
    obtain rfl : '`' = c := by simpa [inCode] using hc
    decide
  · intro c hc
    rw [inCode, List.getLast?_append] at hc
    obtain rfl : '`' = c := by simpa using hc
    decide

theorem fits_inCode_iff (t : Text) : Fits (inCode t) ↔ Fits t := by
  have hbars : bars false (inCode t) = bars false t := by
    rw [inCode, List.append_assoc]
    show bars false ('`' :: (t ++ ['`'])) = bars false t
    rw [bars, bars_append_of_notMem (by decide)]
    exact Nat.zero_add _
  have hmem {c : Char} (hc : c ≠ '`') : c ∈ inCode t ↔ c ∈ t := by simp [inCode, hc]
  rw [Fits, Fits, hbars, hmem (by decide), hmem (by decide)]

namespace Plain

variable {s t : Text}

theorem fits (h : Plain t) : Fits t :=
  ⟨bars_of_notMem (fun hc => (h _ hc).2.1 rfl) false, fun hc => (h _ hc).2.2.1 rfl,
    fun hc => (h _ hc).2.2.2 rfl⟩

theorem subset (h : Plain t) (hst : ∀ c ∈ s, c ∈ t) : Plain s := fun c hc => h c (hst c hc)

theorem append (hs : Plain s) (ht : Plain t) : Plain (s ++ t) := by
  intro c hc
  rcases List.mem_append.1 hc with hc | hc
  · exact hs c hc
  · exact ht c hc

theorem trim (h : Plain t) : Plain t.trim := h.subset fun _ => Text.mem_of_mem_trimBy

theorem inCode (h : Plain t) : Plain (inCode t) := append (append (by decide) h) (by decide)

/-! ## letter case -/

theorem of_case {c : Char} (h : Plain [c]) : Plain (Case.upper c) ∧ Plain (Case.lower c) := by
  have hascii : c.toNat < 0x80 := (h c List.mem_cons_self).1
  rw [Case.upper_ascii hascii, Case.lower_ascii hascii]
  have hall : ∀ n < 0x80, Plain [Char.ofNat n] →
      Plain [(Char.ofNat n).toUpper] ∧ Plain [(Char.ofNat n).toLower] := by decide +kernel
  exact forall_ascii (P := fun c => Plain [c] → Plain [c.toUpper] ∧ Plain [c.toLower]) hall hascii h

theorem toLowerAfter (h : Plain t) (before : Text) : Plain (Text.toLowerAfter before t) := by
  induction t generalizing before with
  | nil => exact h
  | cons c t ih =>
    have hc : Plain [c] := h.subset fun d hd => by simp_all
    have hsigma : c ≠ 'Σ' := by
      rintro rfl
      exact absurd hc (by decide)
    rw [Text.toLowerAfter, if_neg hsigma]
    exact hc.of_case.2.append (ih (h.subset fun d hd => List.mem_cons_of_mem c hd) _)

theorem toLower (h : Plain t) : Plain t.toLower := h.toLowerAfter []

theorem titleCaseFrom (h : Plain t) (inWord : Bool) : Plain (titleCaseFrom inWord t) := by
  induction t generalizing inWord with
  | nil => exact h
  | cons c t ih =>
    have hc : Plain [c] := h.subset fun d hd => by simp_all
    rw [ProtoDocs.titleCaseFrom]
    refine append ?_ (ih (h.subset fun d hd => List.mem_cons_of_mem c hd) _)
    cases inWord with
    | true => exact hc.of_case.2
    | false => exact hc.of_case.1

theorem piece (h : Plain t) {sep : Char} {p : Text} (hp : p ∈ t.splitOn sep) : Plain p :=
  h.subset fun _ => Text.mem_of_mem_splitOn hp

theorem camelCase (h : Plain t) : Plain (camelCase t) := by
  have hpieces : ∀ p ∈ t.splitOn '_', Plain p := fun p hp => h.piece hp
  rw [ProtoDocs.camelCase]
  split
  · exact fun c hc => absurd hc List.not_mem_nil
  · rename_i first parts heq
    rw [heq, List.forall_mem_cons] at hpieces
    refine hpieces.1.append fun c hc => ?_
    obtain ⟨part, hpart, hc⟩ := List.mem_flatten.1 hc
    obtain ⟨p, hp, rfl⟩ := List.mem_map.1 hpart
    exact (hpieces.2 p hp).titleCaseFrom false c hc

/-! ## types -/

theorem simpleName (h : Plain t) : Plain (TypeCell.simpleName t) := by
  rw [TypeCell.simpleName, List.getLastD_eq_getLast?,
    List.getLast?_eq_some_getLast (List.splitOn_ne_nil '.' t)]
  exact h.piece (List.getLast_mem _)

theorem fixedName {name : Text} (h : TypeCell.fixedName? t = some name) : Plain name := by
  have hall : ∀ p ∈ TypeCell.fixedNames, Plain p.2 := by decide
  rw [TypeCell.fixedName?, List.lookup_eq_some_iff] at h
  obtain ⟨l₁, l₂, heq, _⟩ := h
  exact hall (t, name) (by rw [heq]; simp)

theorem label (h : Plain t) : Plain (TypeCell.label t) := by
  rw [TypeCell.label]
  split
  · rename_i name hname
    exact (fixedName hname).inCode
  · split
    · exact h.simpleName.inCode
    · exact append (append (append (append (by decide) h.simpleName.inCode) (by decide))
        h.simpleName.toLower) (by decide)

theorem typeCell (h : Plain t) (repeated : Bool) {key : Option Text} (hkey : ∀ k ∈ key, Plain k) :
    Plain (typeCell t repeated key) := by
  cases key with
  | some k =>
    have hname : Plain ((TypeCell.fixedName? k).getD k) := by
      cases hfixed : TypeCell.fixedName? k with
      | none => exact hkey k rfl
      | some name => exact fixedName hfixed
    have hfront : Plain "map of ".toList := by decide
    have hto : Plain " to ".toList := by decide
    exact ((hfront.append hname).append hto).append h.label
  | none =>
    cases repeated with
    | true =>
      have hfront : Plain "array of ".toList := by decide
      exact hfront.append h.label
    | false => exact h.label

theorem sideCell {s : Side} (h : Plain s.type) : Plain (Page.sideCell s) := by
  rw [Page.sideCell]
  refine append ?_ (h.typeCell false (by simp))
  split
  · decide
  · decide

end Plain

/-! ## names -/

open Lexeme in
theorem plain_of_isIdentChar {c : Char} (h : isIdentChar c = true) : Plain [c] := by
  have hall : ∀ n < 0x80, isIdentChar (Char.ofNat n) = true → Plain [Char.ofNat n] := by
    decide +kernel
  exact forall_ascii (P := fun c => isIdentChar c = true → Plain [c]) hall (isIdentChar_ascii h) h

theorem IsIdent.plain {t : Text} (h : IsIdent t) : Plain t := fun c hc =>
  plain_of_isIdentChar (h.all c hc) c List.mem_cons_self

theorem IsFullIdent.plain {t : Text} (h : IsFullIdent t) : Plain t := by
  induction h with
  | one hu => exact hu.plain
  | dot hu _ ih => exact hu.plain.append (Plain.append (s := ['.']) (by decide) ih)

theorem Requirement.plain (r : Requirement) : Plain r.text := by
  cases r with
  | yes => decide
  | no => decide
  | oneof => decide

end ProtoDocs
