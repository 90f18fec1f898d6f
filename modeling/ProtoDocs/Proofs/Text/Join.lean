import ProtoDocs.Text.Basic

/-!
# Joined pieces

What a text that is joined from pieces consists of, and that cutting it at the separator gives the
pieces back, unless one of them holds the separator.

* `Text.join_cons`      joining goes piece by piece;
* `Text.join_join`      pieces that were joined already need not be taken apart;
* `Text.mem_join_iff`   a character other than those of the separator comes from a piece;
* `Text.splitOn_join`   cutting goes piece by piece;
* `Text.splitOn_join_iff`   when cutting undoes joining.
-/

namespace ProtoDocs.Text

@[simp] theorem join_nil (sep : Text) : join sep [] = [] := rfl

@[simp] theorem join_singleton (sep p : Text) : join sep [p] = p := List.intercalate_singleton

theorem join_cons (sep p : Text) {ps : List Text} (h : ps ≠ []) :
    join sep (p :: ps) = p ++ (sep ++ join sep ps) :=
  (List.intercalate_cons_of_ne_nil h).trans (List.append_assoc p sep _)

theorem join_append (sep : Text) {ps qs : List Text} (hp : ps ≠ []) (hq : qs ≠ []) :
    join sep (ps ++ qs) = join sep ps ++ (sep ++ join sep qs) := by
  induction ps with
  | nil => exact absurd rfl hp
  | cons p ps ih =>
    rw [List.cons_append, join_cons sep p (List.append_ne_nil_of_right_ne_nil ps hq)]
    by_cases hps : ps = []
    · rw [hps, List.nil_append, join_singleton]
    · rw [ih hps, join_cons sep p hps, List.append_assoc, List.append_assoc]

/-- Joined pieces are themselves a piece, or stand as they are among others. -/
theorem join_join (sep : Text) (above : List Text) {ps : List Text} (h : ps ≠ [])
    (below : List Text) :
    join sep (above ++ [join sep ps] ++ below) = join sep (above ++ ps ++ below) := by
  induction above with
  | nil =>
    rw [List.nil_append, List.nil_append, List.singleton_append]
    by_cases hbelow : below = []
    · rw [hbelow, join_singleton, List.append_nil]
    · rw [join_cons sep _ hbelow, join_append sep h hbelow]
  | cons p above ih =>
    rw [List.cons_append, List.cons_append, List.cons_append, List.cons_append,
      join_cons sep p (by simp), join_cons sep p (by simp [h]), ih]

theorem mem_join_of_mem {c : Char} {p : Text} {ps : List Text} (hp : p ∈ ps) (hc : c ∈ p)
    (sep : Text) : c ∈ join sep ps := by
  obtain ⟨above, below, rfl⟩ := List.append_of_mem hp
  have hbelow : c ∈ join sep (p :: below) := by
    by_cases h : below = []
    · rwa [h, join_singleton]
    · rw [join_cons sep p h]
      exact List.mem_append_left _ hc
  by_cases h : above = []
  · rwa [h, List.nil_append]
  · rw [join_append sep h (by simp)]
    exact List.mem_append_right _ (List.mem_append_right sep hbelow)

theorem mem_join_iff {c : Char} {sep : Text} (hc : c ∉ sep) (ps : List Text) :
    c ∈ join sep ps ↔ ∃ p ∈ ps, c ∈ p := by
  induction ps with
  | nil => simp
  | cons p ps ih =>
    by_cases hps : ps = []
    · subst hps
      simp
    · rw [join_cons sep p hps, List.mem_append, List.mem_append, ih]
      simp [hc]

theorem splitOn_join (sep : Char) {ps : List Text} (h : ps ≠ []) :
    (join [sep] ps).splitOn sep = ps.flatMap (List.splitOn sep) := by
  induction ps with
  | nil => exact absurd rfl h
  | cons p ps ih =>
    by_cases hps : ps = []
    · subst hps
      simp
    · rw [join_cons [sep] p hps, List.singleton_append, List.splitOn_append_cons_self, ih hps,
        List.flatMap_cons]

theorem mem_of_mem_splitOn {sep : Char} {t p : Text} (h : p ∈ t.splitOn sep) {c : Char}
    (hc : c ∈ p) : c ∈ t := by
  have hmem := mem_join_of_mem h hc [sep]
  rwa [join, List.intercalate_splitOn] at hmem

theorem notMem_of_mem_splitOn {sep : Char} {t p : Text} (h : p ∈ t.splitOn sep) : sep ∉ p := by
  induction t generalizing p with
  | nil =>
    rw [List.splitOn_nil, List.mem_singleton] at h
    simp [h]
  | cons c t ih =>
    obtain ⟨q, qs, hqs⟩ := List.exists_cons_of_ne_nil (List.splitOn_ne_nil sep t)
    have hpieces : ∀ p ∈ q :: qs, sep ∉ p := fun p hp => ih (hqs ▸ hp)
    rw [List.splitOn_cons_eq_if_modifyHead, hqs] at h
    split at h
    · rcases List.mem_cons.1 h with rfl | h
      · simp
      · exact hpieces p h
    · rename_i hc
      rw [List.forall_mem_cons] at hpieces
      rcases List.mem_cons.1 h with rfl | h
      · rw [beq_iff_eq] at hc
        simp [Ne.symm hc, hpieces.1]
      · exact hpieces.2 p h

/-- Cutting undoes joining exactly if no piece holds the separator. -/
theorem splitOn_join_iff (sep : Char) {ps : List Text} (h : ps ≠ []) :
    (join [sep] ps).splitOn sep = ps ↔ ∀ p ∈ ps, sep ∉ p := by
  constructor
  · intro heq p hp
    rw [← heq] at hp
    exact notMem_of_mem_splitOn hp
  · exact fun hall => List.splitOn_intercalate sep hall h

end ProtoDocs.Text
