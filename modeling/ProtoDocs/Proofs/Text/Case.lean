import Mathlib
import ProtoDocs.Text.Case

/-!
# Letter case in ASCII

On ASCII the case mappings are core's: letters become letters, and nothing else changes.

* `eq_of_toLower_eq`, `eq_of_toUpper_eq`   no letter becomes a character that is none;
* `Text.toLower_eq_map`   lower case of a text goes character by character.
-/

namespace ProtoDocs

theorem eq_of_toLower_eq {c d : Char} (hd : d.isAlpha = false) (h : c.toLower = d) : c = d := by
  have hc : c.isAlpha = false := by rw [← c.isAlpha_toLower_eq_isAlpha, h, hd]
  rw [Char.isAlpha, Bool.or_eq_false_iff] at hc
  rwa [Char.toLower_eq_of_not_isUpper (Bool.eq_false_iff.1 hc.1)] at h

theorem eq_of_toUpper_eq {c d : Char} (hd : d.isAlpha = false) (h : c.toUpper = d) : c = d := by
  have hc : c.isAlpha = false := by rw [← c.isAlpha_toUpper_eq_isAlpha, h, hd]
  rw [Char.isAlpha, Bool.or_eq_false_iff] at hc
  rwa [Char.toUpper_eq_of_not_isLower (Bool.eq_false_iff.1 hc.2)] at h

/-- There is no sigma in ASCII, so that what stands around a character does not matter. -/
theorem Text.toLowerAfter_eq_map {t : Text} (ht : ∀ c ∈ t, c.toNat < 0x80) (before : Text) :
    toLowerAfter before t = t.map Char.toLower := by
  induction t generalizing before with
  | nil => rfl
  | cons c t ih =>
    rw [List.forall_mem_cons] at ht
    have hsigma : c ≠ 'Σ' := by
      rintro rfl
      exact absurd ht.1 (by decide)
    rw [toLowerAfter, if_neg hsigma, Case.lower_ascii ht.1, ih ht.2, List.map_cons,
      List.singleton_append]

theorem Text.toLower_eq_map {t : Text} (ht : ∀ c ∈ t, c.toNat < 0x80) :
    t.toLower = t.map Char.toLower := toLowerAfter_eq_map ht []

end ProtoDocs
