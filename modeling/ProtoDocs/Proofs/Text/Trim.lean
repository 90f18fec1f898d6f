import Mathlib.Data.List.Basic
import Mathlib.Data.List.DropRight
import Mathlib.Data.List.TakeWhile
import ProtoDocs.Proofs.Text.Join
import ProtoDocs.Text.Blank

/-!
# Trimmed texts

A trimmed text has no blanks at its ends, and trimming leaves such a text as it is.

* `Text.Tight`         neither end is a blank;
* `Text.trim_tight`    trimming makes a text so;
* `Text.join_tight`    so does joining such pieces, none of them empty;
* `Text.trim_append_left`, `Text.trim_append_right`   blanks around a text do not matter;
* `Text.trim_append_cons`, `Text.exists_of_mem_trim`   a blank between other characters stays;
* `Text.dropPrefix_append`, `Text.dropPrefix_of_not`   a marker is removed if it is there, and else
  nothing is.
-/

namespace ProtoDocs.Text

/-- neither the first nor the last character is a blank -/
def Tight (t : Text) : Prop :=
  (∀ c, t.head? = some c → isBlank c = false) ∧ ∀ c, t.getLast? = some c → isBlank c = false

theorem head?_dropWhile {p : Char → Bool} {t : Text} {c : Char}
    (h : (t.dropWhile p).head? = some c) : p c = false := by
  have hnot := List.head?_dropWhile_not p t
  rwa [h] at hnot

theorem mem_of_mem_trimBy {p : Char → Bool} {t : Text} {c : Char} (h : c ∈ trimBy p t) : c ∈ t := by
  rw [trimBy, List.mem_reverse] at h
  have hreverse := (List.dropWhile_suffix p).subset h
  rw [List.mem_reverse] at hreverse
  exact (List.dropWhile_suffix p).subset hreverse

/-! ## markers -/

theorem dropPrefix_append (mark t : Text) : dropPrefix mark (mark ++ t) = t := by
  rw [dropPrefix, List.isPrefixOf?_eq_some_iff_append_eq.2 rfl, Option.getD_some]

theorem dropPrefix_of_not {mark t : Text} (h : ¬mark <+: t) : dropPrefix mark t = t := by
  rw [dropPrefix]
  cases hr : mark.isPrefixOf? t with
  | none => rfl
  | some s => exact absurd ⟨s, List.append_eq_of_isPrefixOf?_eq_some hr⟩ h

theorem dropPrefix_isSuffix (mark t : Text) : dropPrefix mark t <:+ t := by
  by_cases h : mark <+: t
  · obtain ⟨s, rfl⟩ := h
    rw [dropPrefix_append]
    exact List.suffix_append mark s
  · exact ⟨[], dropPrefix_of_not h⟩

theorem mem_of_mem_dropPrefix {mark t : Text} {c : Char} (h : c ∈ dropPrefix mark t) : c ∈ t :=
  (dropPrefix_isSuffix mark t).subset h

theorem dropSuffix_append (mark t : Text) : dropSuffix mark (t ++ mark) = t := by
  rw [dropSuffix, List.isSuffixOf?_eq_some_iff_append_eq.2 rfl, Option.getD_some]

theorem dropSuffix_of_not {mark t : Text} (h : ¬mark <:+ t) : dropSuffix mark t = t := by
  rw [dropSuffix]
  cases hr : mark.isSuffixOf? t with
  | none => rfl
  | some s => exact absurd ⟨s, List.append_eq_of_isSuffixOf?_eq_some hr⟩ h

theorem dropSuffix_isPrefix (mark t : Text) : dropSuffix mark t <+: t := by
  by_cases h : mark <:+ t
  · obtain ⟨s, rfl⟩ := h
    rw [dropSuffix_append]
    exact List.prefix_append s mark
  · exact ⟨[], by rw [List.append_nil, dropSuffix_of_not h]⟩

theorem mem_of_mem_dropSuffix {mark t : Text} {c : Char} (h : c ∈ dropSuffix mark t) : c ∈ t :=
  (dropSuffix_isPrefix mark t).subset h

theorem not_prefix_of_notMem {c : Char} {d t : Text} (hd : d ≠ []) (hc : c ∉ d) (h : d <+: t) :
    ¬[c] <+: t := by
  rintro ⟨s, rfl⟩
  cases d with
  | nil => exact hd rfl
  | cons e d =>
    obtain ⟨u, hu⟩ := h
    exact hc ((List.cons.inj hu).1 ▸ List.mem_cons_self)

/-- A text without line feeds is one line, unless it is empty. -/
theorem lines_of_notMem {t : Text} (h : '\n' ∉ t) :
    t.lines = if t.isEmpty then [] else [t] := by
  rw [lines, List.splitOn_eq_singleton h]
  rfl

/-! ## ends -/

section
variable {p : Char → Bool} {c : Char}

/-- What begins with nothing to drop stays as it is behind a text. -/
theorem dropWhile_append_of_self {m : Text} (hm : m.dropWhile p = m) (t : Text) :
    (t ++ m).dropWhile p = t.dropWhile p ++ m := by
  rw [List.dropWhile_append, hm]
  split
  · rename_i hnil
    rw [List.isEmpty_iff.1 hnil]
    rfl
  · rfl

theorem rdropWhile_append_of_self {m : Text} (hm : m.rdropWhile p = m) (t : Text) :
    (m ++ t).rdropWhile p = m ++ t.rdropWhile p := by
  have hm' : m.reverse.dropWhile p = m.reverse := by
    rw [← List.reverse_inj, List.reverse_reverse]
    exact hm
  show ((m ++ t).reverse.dropWhile p).reverse = m ++ (t.reverse.dropWhile p).reverse
  rw [List.reverse_append, dropWhile_append_of_self hm', List.reverse_append, List.reverse_reverse]

theorem rdropWhile_cons_of_neg (hc : p c = false) (t : Text) :
    (c :: t).rdropWhile p = c :: t.rdropWhile p := by
  refine rdropWhile_append_of_self (m := [c]) ?_ t
  rw [List.rdropWhile_singleton, hc]
  rfl

theorem rdropWhile_cons_of_ne_nil {t : Text} (c : Char) (h : t.rdropWhile p ≠ []) :
    (c :: t).rdropWhile p = c :: t.rdropWhile p := by
  have hne : (t.reverse.dropWhile p).isEmpty = false := by
    simpa [List.rdropWhile] using h
  rw [List.rdropWhile, List.reverse_cons, List.dropWhile_append, hne, if_neg (by simp),
    List.reverse_append]
  rfl

theorem rdropWhile_append_of_ne_nil (s : Text) {t : Text} (h : t.rdropWhile p ≠ []) :
    (s ++ t).rdropWhile p = s ++ t.rdropWhile p := by
  induction s with
  | nil => rfl
  | cons c s ih =>
    rw [List.cons_append, rdropWhile_cons_of_ne_nil c, ih, List.cons_append]
    rw [ih]
    exact List.append_ne_nil_of_right_ne_nil s h

/-- It does not matter which end is dropped first. -/
theorem dropWhile_rdropWhile (t : Text) :
    (t.rdropWhile p).dropWhile p = (t.dropWhile p).rdropWhile p := by
  induction t with
  | nil => rfl
  | cons c t ih =>
    cases hc : p c with
    | false =>
      rw [rdropWhile_cons_of_neg hc, List.dropWhile_cons_of_neg (by simp [hc]),
        List.dropWhile_cons_of_neg (by simp [hc]), rdropWhile_cons_of_neg hc]
    | true =>
      rw [List.dropWhile_cons_of_pos hc, ← ih]
      by_cases h : t.rdropWhile p = []
      · have hall : ∀ d ∈ c :: t, p d = true :=
          List.forall_mem_cons.2 ⟨hc, List.rdropWhile_eq_nil_iff.1 h⟩
        rw [h, List.rdropWhile_eq_nil_iff.2 hall]
      · rw [rdropWhile_cons_of_ne_nil c h, List.dropWhile_cons_of_pos hc]

end

theorem trim_length_le (t : Text) : t.trim.length ≤ (t.dropWhile isBlank).length :=
  (List.rdropWhile_prefix isBlank (t.dropWhile isBlank)).length_le

/-- What is taken off the ends are blanks. -/
theorem exists_trim (t : Text) : ∃ l r, (∀ c ∈ l, isBlank c = true) ∧ (∀ c ∈ r, isBlank c = true) ∧
    t = l ++ (t.trim ++ r) := by
  refine ⟨t.takeWhile isBlank, ((t.dropWhile isBlank).reverse.takeWhile isBlank).reverse,
    fun _ hc => List.mem_takeWhile_imp hc,
    fun _ hc => List.mem_takeWhile_imp (List.mem_reverse.1 hc), ?_⟩
  rw [trim, trimBy, ← List.reverse_append, List.takeWhile_append_dropWhile, List.reverse_reverse,
    List.takeWhile_append_dropWhile]

theorem prefix_trim {m t : Text} (hm : ∀ c ∈ m, isBlank c = false) (hne : m ≠ []) (h : m <+: t) :
    m <+: t.trim := by
  obtain ⟨l, r, hl, hr, ht⟩ := exists_trim t
  obtain rfl : l = [] := by
    cases l with
    | nil => rfl
    | cons c l =>
      obtain ⟨d, m, rfl⟩ := List.exists_cons_of_ne_nil hne
      obtain ⟨u, hu⟩ := h
      rw [ht, List.cons_append, List.cons_append, List.cons.injEq] at hu
      have hc := hl c List.mem_cons_self
      rw [← hu.1, hm d List.mem_cons_self] at hc
      cases hc
  rcases List.prefix_or_prefix_of_prefix h ⟨r, ht.symm⟩ with h' | ⟨x, hx⟩
  · exact h'
  · have hxr : x <+: r := by
      have hall : t.trim ++ x <+: t.trim ++ r := by
        rw [hx]
        exact h.trans ⟨[], (List.append_nil t).trans ht⟩
      exact (List.prefix_append_right_inj _).1 hall
    obtain rfl : x = [] := by
      rw [List.eq_nil_iff_forall_not_mem]
      intro c hc
      have hblank := hr c (hxr.subset hc)
      rw [hm c (hx ▸ List.mem_append_right _ hc)] at hblank
      cases hblank
    rw [List.append_nil] at hx
    exact hx ▸ List.prefix_rfl

theorem trim_tight (t : Text) : Tight t.trim := by
  constructor
  · intro c hc
    rw [trim, trimBy] at hc
    obtain ⟨s, hs⟩ :
        ((t.dropWhile isBlank).reverse.dropWhile isBlank).reverse <+: t.dropWhile isBlank := by
      rw [← List.reverse_suffix, List.reverse_reverse]
      exact List.dropWhile_suffix _
    refine head?_dropWhile (t := t) ?_
    rw [← hs, List.head?_append, hc]
    rfl
  · intro c hc
    rw [trim, trimBy, List.getLast?_reverse] at hc
    exact head?_dropWhile hc

theorem trim_rdropWhile (t : Text) : Text.trim (t.rdropWhile isBlank) = t.trim := by
  show ((t.rdropWhile isBlank).dropWhile isBlank).rdropWhile isBlank = t.trim
  rw [dropWhile_rdropWhile]
  exact List.rdropWhile_idempotent _ _

/-- Blanks in front of a text do not matter. -/
theorem trim_append_left {l : Text} (hl : ∀ c ∈ l, isBlank c = true) (t : Text) :
    Text.trim (l ++ t) = t.trim := by
  rw [trim, trimBy, List.dropWhile_append_of_pos hl]
  rfl

theorem trim_append_right {r : Text} (hr : ∀ c ∈ r, isBlank c = true) (t : Text) :
    Text.trim (t ++ r) = t.trim := by
  have hend : (t ++ r).rdropWhile isBlank = t.rdropWhile isBlank := by
    rw [List.rdropWhile, List.reverse_append, List.dropWhile_append_of_pos (by simpa using hr)]
    rfl
  rw [← trim_rdropWhile, hend, trim_rdropWhile]

theorem trim_eq_nil_iff {t : Text} : t.trim = [] ↔ ∀ c ∈ t, isBlank c = true := by
  constructor
  · intro h
    obtain ⟨l, r, hl, hr, ht⟩ := exists_trim t
    rw [h, List.nil_append] at ht
    intro c hc
    rw [ht] at hc
    exact (List.mem_append.1 hc).elim (hl c) (hr c)
  · intro h
    have hblanks := trim_append_left h []
    rwa [List.append_nil] at hblanks

/-- With more than blanks on both sides, a character stays where it is. -/
theorem trim_append_cons {a b : Text} (x : Char) (ha : Text.trim a ≠ []) (hb : Text.trim b ≠ []) :
    Text.trim (a ++ x :: b) = a.dropWhile isBlank ++ x :: b.rdropWhile isBlank := by
  have hfront : a.dropWhile isBlank ≠ [] := by
    intro hnil
    exact ha (by rw [trim, trimBy, hnil]; rfl)
  have hback : b.rdropWhile isBlank ≠ [] := by
    intro hnil
    exact hb (by rw [← trim_rdropWhile, hnil]; rfl)
  show ((a ++ x :: b).dropWhile isBlank).rdropWhile isBlank = _
  rw [List.dropWhile_append, if_neg (by simpa using hfront), rdropWhile_append_of_ne_nil,
    rdropWhile_cons_of_ne_nil x hback]
  rw [rdropWhile_cons_of_ne_nil x hback]
  exact List.cons_ne_nil _ _

theorem exists_of_mem_trim {t : Text} {x : Char} (hx : isBlank x = true) (h : x ∈ t.trim) :
    ∃ a b, t = a ++ x :: b ∧ Text.trim a ≠ [] ∧ Text.trim b ≠ [] := by
  obtain ⟨l, r, -, -, ht⟩ := exists_trim t
  obtain ⟨hfirst, hlast⟩ := trim_tight t
  obtain ⟨u, v, huv⟩ := List.append_of_mem h
  rw [huv] at ht hfirst hlast
  refine ⟨l ++ u, v ++ r, by rw [ht]; simp, ?_, ?_⟩
  · cases u with
    | nil =>
      rw [hfirst x rfl] at hx
      exact absurd hx Bool.false_ne_true
    | cons c u =>
      rw [Ne, trim_eq_nil_iff]
      intro hall
      have hc := hall c (List.mem_append_right l List.mem_cons_self)
      rw [hfirst c rfl] at hc
      exact absurd hc Bool.false_ne_true
  · rcases List.eq_nil_or_concat v with rfl | ⟨v, c, rfl⟩
    · rw [hlast x (by simp)] at hx
      exact absurd hx Bool.false_ne_true
    · rw [Ne, trim_eq_nil_iff]
      intro hall
      have hc := hall c (by simp)
      have hend : (u ++ x :: v.concat c).getLast? = some c := by
        rw [List.concat_eq_append, ← List.cons_append, ← List.append_assoc, List.getLast?_concat]
      rw [hlast c hend] at hc
      exact absurd hc Bool.false_ne_true

theorem dropWhile_of_head? {p : Char → Bool} {t : Text} (h : ∀ c, t.head? = some c → p c = false) :
    t.dropWhile p = t := by
  cases t with
  | nil => rfl
  | cons c t => rw [List.dropWhile_cons_of_neg (by simp [h c rfl])]

namespace Tight

variable {s t : Text}

theorem trim_eq (h : Tight t) : t.trim = t := by
  have hreverse : t.reverse.dropWhile isBlank = t.reverse := by
    refine dropWhile_of_head? fun c hc => h.2 c ?_
    rwa [List.head?_reverse] at hc
  rw [trim, trimBy, dropWhile_of_head? h.1, hreverse, List.reverse_reverse]

theorem append (hs : Tight s) (ht : Tight t) (hs' : s ≠ []) (ht' : t ≠ []) (middle : Text) :
    Tight (s ++ (middle ++ t)) := by
  constructor
  · intro c hc
    rw [List.head?_append_of_ne_nil s hs'] at hc
    exact hs.1 c hc
  · intro c hc
    rw [← List.append_assoc, List.getLast?_append_of_ne_nil _ ht'] at hc
    exact ht.2 c hc

end Tight

theorem join_ne_nil {sep : Text} {ps : List Text} (hps : ps ≠ []) (h : ∀ p ∈ ps, p ≠ []) :
    join sep ps ≠ [] := by
  cases ps with
  | nil => exact absurd rfl hps
  | cons p ps =>
    have hp : p ≠ [] := h p List.mem_cons_self
    by_cases hnil : ps = []
    · subst hnil
      rwa [join_singleton]
    · rw [join_cons sep p hnil]
      exact List.append_ne_nil_of_left_ne_nil hp _

theorem join_tight {sep : Text} {ps : List Text} (h : ∀ p ∈ ps, p ≠ [] ∧ Tight p) :
    Tight (join sep ps) := by
  induction ps with
  | nil => exact ⟨by simp, by simp⟩
  | cons p ps ih =>
    rw [List.forall_mem_cons] at h
    by_cases hnil : ps = []
    · subst hnil
      rw [join_singleton]
      exact h.1.2
    · rw [join_cons sep p hnil]
      exact h.1.2.append (ih h.2) h.1.1 (join_ne_nil hnil fun q hq => (h.2 q hq).1) sep

end ProtoDocs.Text
