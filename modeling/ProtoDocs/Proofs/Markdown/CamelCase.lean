import ProtoDocs.Markdown.CamelCase
import ProtoDocs.Proofs.Grammar.Word
import ProtoDocs.Proofs.Text.Case

/-!
# Names in camel case

Camel case drops the underscores of a name and changes nothing but the case of letters.  Since an
underscore is no letter, a word begins behind each of them, so that a name can be put into title
case as a whole, underscores included, before they are dropped.

* `dropUnderscores`                              a name without its underscores;
* `titleCaseFrom_cons`, `titleCaseFrom_append`   title case goes letter by letter;
* `camelCase_append`                             camel case, from an underscore on;
* `map_toLower_camelCase`                        only the case of letters changes;
* `camelCase_spec`                               what camel case makes of each character of a name.
-/

namespace ProtoDocs

open Lexeme

def dropUnderscores (t : Text) : Text := t.filter (· != '_')

theorem dropUnderscores_cons_of_eq {c : Char} (h : c = '_') (t : Text) :
    dropUnderscores (c :: t) = dropUnderscores t := by
  rw [dropUnderscores, List.filter_cons_of_neg (by simp [h]), dropUnderscores]

theorem dropUnderscores_cons_of_ne {c : Char} (h : c ≠ '_') (t : Text) :
    dropUnderscores (c :: t) = c :: dropUnderscores t := by
  rw [dropUnderscores, List.filter_cons_of_pos (by simp [h]), dropUnderscores]

theorem dropUnderscores_append (s t : Text) :
    dropUnderscores (s ++ t) = dropUnderscores s ++ dropUnderscores t :=
  List.filter_append s t

theorem underscore_notMem_dropUnderscores (t : Text) : '_' ∉ dropUnderscores t := by
  rw [dropUnderscores, List.mem_filter]
  exact fun h => absurd h.2 (by decide)

theorem dropUnderscores_of_notMem {t : Text} (h : '_' ∉ t) : dropUnderscores t = t := by
  rw [dropUnderscores, List.filter_eq_self]
  intro c hc
  rw [bne_iff_ne]
  rintro rfl
  exact h hc

/-! ## title case -/

/-- a letter that begins a word, or stands within one -/
def casedAs (inWord : Bool) (c : Char) : Char := if inWord then c.toLower else c.toUpper

theorem toLower_casedAs (inWord : Bool) (c : Char) : (casedAs inWord c).toLower = c.toLower := by
  cases inWord <;> simp [casedAs]

theorem casedAs_eq_underscore {inWord : Bool} {c : Char} : casedAs inWord c = '_' ↔ c = '_' := by
  constructor
  · intro h
    cases inWord with
    | true => exact eq_of_toLower_eq (by decide) h
    | false => exact eq_of_toUpper_eq (by decide) h
  · rintro rfl
    cases inWord <;> decide

theorem titleCaseFrom_cons {c : Char} (hc : c.toNat < 0x80) (inWord : Bool) (t : Text) :
    titleCaseFrom inWord (c :: t) = casedAs inWord c :: titleCaseFrom c.isAlpha t := by
  rw [titleCaseFrom, Case.isLetter_ascii hc, Case.lower_ascii hc, Case.upper_ascii hc, casedAs]
  cases inWord <;> rfl

/-- Behind other text, only its last character decides. -/
theorem titleCaseFrom_append {s : Text} (hs : ∀ c ∈ s, c.toNat < 0x80) (t : Text) :
    titleCaseFrom false (s ++ t) =
      titleCaseFrom false s ++ titleCaseFrom (s.ends Char.isAlpha) t := by
  have hgeneral (inWord : Bool) (hne : s ≠ []) : titleCaseFrom inWord (s ++ t) =
      titleCaseFrom inWord s ++ titleCaseFrom (s.ends Char.isAlpha) t := by
    induction s generalizing inWord with
    | nil => exact absurd rfl hne
    | cons c s ih =>
      rw [List.forall_mem_cons] at hs
      rw [List.cons_append, titleCaseFrom_cons hs.1, titleCaseFrom_cons hs.1, List.cons_append]
      by_cases hnil : s = []
      · subst hnil
        rfl
      · rw [ih hs.2 _ hnil, show c :: s = [c] ++ s from rfl, Text.ends_append [c] hnil]
  by_cases hnil : s = []
  · subst hnil
    rfl
  · exact hgeneral false hnil

theorem map_toLower_titleCaseFrom {t : Text} (ht : ∀ c ∈ t, c.toNat < 0x80) (inWord : Bool) :
    (dropUnderscores (titleCaseFrom inWord t)).map Char.toLower =
      (dropUnderscores t).map Char.toLower := by
  induction t generalizing inWord with
  | nil => rfl
  | cons c t ih =>
    rw [List.forall_mem_cons] at ht
    rw [titleCaseFrom_cons ht.1]
    by_cases hc : c = '_'
    · rw [dropUnderscores_cons_of_eq hc,
        dropUnderscores_cons_of_eq (casedAs_eq_underscore.2 hc), ih ht.2]
    · rw [dropUnderscores_cons_of_ne hc,
        dropUnderscores_cons_of_ne (mt casedAs_eq_underscore.1 hc), List.map_cons, List.map_cons,
        ih ht.2, toLower_casedAs]

/-- Parts that are put into title case one by one are the text in title case without its
underscores. -/
theorem titleCase_pieces {t first : Text} {parts : List Text} (ht : ∀ c ∈ t, c.toNat < 0x80)
    (inWord : Bool) (h : t.splitOn '_' = first :: parts) :
    titleCaseFrom inWord first ++ (parts.map titleCase).flatten =
      dropUnderscores (titleCaseFrom inWord t) := by
  induction t generalizing inWord first parts with
  | nil =>
    cases h
    rfl
  | cons c t ih =>
    rw [List.forall_mem_cons] at ht
    obtain ⟨p, ps, hps⟩ := List.exists_cons_of_ne_nil (List.splitOn_ne_nil '_' t)
    rw [List.splitOn_cons_eq_if_modifyHead, hps] at h
    rw [titleCaseFrom_cons ht.1]
    by_cases hc : c = '_'
    · rw [if_pos (beq_iff_eq.2 hc)] at h
      cases h
      rw [dropUnderscores_cons_of_eq (casedAs_eq_underscore.2 hc), hc]
      exact ih ht.2 false hps
    · rw [if_neg (mt beq_iff_eq.1 hc), List.modifyHead_cons] at h
      cases h
      rw [dropUnderscores_cons_of_ne (mt casedAs_eq_underscore.1 hc), ← ih ht.2 c.isAlpha hps,
        titleCaseFrom_cons ht.1, List.cons_append]

/-! ## camel case -/

theorem camelCase_of_notMem {t : Text} (h : '_' ∉ t) : camelCase t = t := by
  rw [camelCase, List.splitOn_eq_singleton h]
  exact List.append_nil t

/-- Behind an underscore, the name is in title case. -/
theorem camelCase_append (s : Text) {t : Text} (ht : ∀ c ∈ t, c.toNat < 0x80) :
    camelCase (s ++ '_' :: t) = camelCase s ++ dropUnderscores (titleCaseFrom false t) := by
  obtain ⟨p, ps, hps⟩ := List.exists_cons_of_ne_nil (List.splitOn_ne_nil '_' s)
  obtain ⟨q, qs, hqs⟩ := List.exists_cons_of_ne_nil (List.splitOn_ne_nil '_' t)
  rw [camelCase, camelCase, List.splitOn_append_cons_self, hps, hqs,
    ← titleCase_pieces ht false hqs]
  simp only [List.cons_append, List.map_append, List.map_cons, List.flatten_append,
    List.flatten_cons, List.append_assoc, titleCase]

/-- A name has no underscores, or parts at its first one. -/
theorem underscore_cases (t : Text) :
    '_' ∉ t ∨ ∃ s r, t = s ++ '_' :: r ∧ '_' ∉ s := by
  by_cases h : '_' ∈ t
  · exact .inr (List.eq_append_cons_of_mem h)
  · exact .inl h

variable {t : Text}

theorem underscore_notMem_camelCase (ht : ∀ c ∈ t, c.toNat < 0x80) : '_' ∉ camelCase t := by
  rcases underscore_cases t with h | ⟨s, r, rfl, hs⟩
  · rwa [camelCase_of_notMem h]
  · rw [List.forall_mem_append, List.forall_mem_cons] at ht
    rw [camelCase_append s ht.2.2, camelCase_of_notMem hs, List.mem_append, not_or]
    exact ⟨hs, underscore_notMem_dropUnderscores _⟩

theorem map_toLower_camelCase (ht : ∀ c ∈ t, c.toNat < 0x80) :
    (camelCase t).map Char.toLower = (dropUnderscores t).map Char.toLower := by
  rcases underscore_cases t with h | ⟨s, r, rfl, hs⟩
  · rw [camelCase_of_notMem h, dropUnderscores_of_notMem h]
  · rw [List.forall_mem_append, List.forall_mem_cons] at ht
    rw [camelCase_append s ht.2.2, camelCase_of_notMem hs, dropUnderscores_append,
      dropUnderscores_of_notMem hs, dropUnderscores_cons_of_eq rfl, List.map_append,
      List.map_append, map_toLower_titleCaseFrom ht.2.2]

theorem length_camelCase (ht : ∀ c ∈ t, c.toNat < 0x80) :
    (camelCase t).length = (dropUnderscores t).length := by
  simpa only [List.length_map] using congrArg List.length (map_toLower_camelCase ht)

theorem takeWhile_prefix_camelCase (ht : ∀ c ∈ t, c.toNat < 0x80) :
    t.takeWhile (· != '_') <+: camelCase t := by
  have hwhole {s : Text} (hs : '_' ∉ s) : ∀ c ∈ s, (c != '_') = true := by
    intro c hc
    rw [bne_iff_ne]
    rintro rfl
    exact hs hc
  rcases underscore_cases t with h | ⟨s, r, rfl, hs⟩
  · rw [camelCase_of_notMem h]
    exact List.takeWhile_prefix _
  · rw [List.forall_mem_append, List.forall_mem_cons] at ht
    rw [camelCase_append s ht.2.2, camelCase_of_notMem hs,
      List.takeWhile_append_of_pos (hwhole hs), List.takeWhile_cons_of_neg (by decide),
      List.append_nil]
    exact List.prefix_append s _

/-- Where a character of a later part stands in camel case, and in which case. -/
theorem getElem?_camelCase {p q r : Text} {c : Char}
    (ht : ∀ d ∈ p ++ '_' :: (q ++ c :: r), d.toNat < 0x80) (hq : '_' ∉ q) (hc : c ≠ '_') :
    (camelCase (p ++ '_' :: (q ++ c :: r)))[(dropUnderscores p).length + q.length]? =
      some (casedAs (q.ends Char.isAlpha) c) := by
  rw [List.forall_mem_append, List.forall_mem_cons] at ht
  obtain ⟨hp, -, hrest⟩ := ht
  have hqr := hrest
  rw [List.forall_mem_append, List.forall_mem_cons] at hqr
  have hlength : (dropUnderscores (titleCaseFrom false q)).length = q.length := by
    have hmap := congrArg List.length (map_toLower_titleCaseFrom hqr.1 false)
    rwa [List.length_map, List.length_map, dropUnderscores_of_notMem hq] at hmap
  rw [camelCase_append p hrest, titleCaseFrom_append hqr.1, titleCaseFrom_cons hqr.2.1,
    dropUnderscores_append, dropUnderscores_cons_of_ne (mt casedAs_eq_underscore.1 hc),
    ← List.append_assoc,
    List.getElem?_append_right (by rw [List.length_append, length_camelCase hp, hlength]),
    List.length_append, length_camelCase hp, hlength, Nat.sub_self]
  rfl

/-- **Camel case keeps the letters.**  Of letters, digits and underscores, camel case drops the
underscores and changes nothing but case, and nothing at all in front of the first underscore.  In
each later part, the letters behind a letter of this part are in lower case and all others in upper
case.  A name in camel case stays as it is. -/
theorem camelCase_spec {s : Text} (hs : ∀ c ∈ s, isIdentChar c = true) :
    '_' ∉ camelCase s ∧
      (camelCase s).map Char.toLower = (dropUnderscores s).map Char.toLower ∧
      s.takeWhile (· != '_') <+: camelCase s ∧
      (∀ (p q r : Text) (c : Char), s = p ++ '_' :: (q ++ c :: r) → '_' ∉ q → c ≠ '_' →
        ∃ d, (camelCase s)[(dropUnderscores p).length + q.length]? = some d ∧
          d.toLower = c.toLower ∧ d.isUpper = (c.isAlpha && !q.ends Char.isAlpha) ∧
          d.isLower = (c.isAlpha && q.ends Char.isAlpha)) ∧
      camelCase (camelCase s) = camelCase s := by
  have hascii : ∀ c ∈ s, c.toNat < 0x80 := fun c hc => isIdentChar_ascii (hs c hc)
  refine ⟨underscore_notMem_camelCase hascii, map_toLower_camelCase hascii,
    takeWhile_prefix_camelCase hascii, ?_, camelCase_of_notMem (underscore_notMem_camelCase hascii)⟩
  rintro p q r c rfl hq hc
  refine ⟨_, getElem?_camelCase hascii hq hc, toLower_casedAs _ c, ?_⟩
  cases q.ends Char.isAlpha <;> simp [casedAs]

theorem camelCase_spec_digits :
    (∀ c ∈ "api__2FA_".toList, isIdentChar c = true) ∧
      '_' ∉ camelCase "api__2FA_".toList ∧
      ∃ d, (camelCase "api__2FA_".toList)[5]? = some d ∧ d.isLower = true := by
  have hs : ∀ c ∈ "api__2FA_".toList, isIdentChar c = true := by decide
  obtain ⟨hmem, -, -, hcase, -⟩ := camelCase_spec hs
  obtain ⟨d, hd, -, -, hlower⟩ := hcase "api_".toList "2F".toList "_".toList 'A' (by decide)
    (by decide) (by decide)
  exact ⟨hs, hmem, d, hd, hlower⟩

end ProtoDocs
