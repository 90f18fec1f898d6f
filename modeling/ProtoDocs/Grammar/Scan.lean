import ProtoDocs.Text.Basic

/-!
# Recognisers

A recogniser looks for a piece of text at the front of a text and gives what follows the piece, or
nothing if the text does not begin with one. Choice is ordered and repetition takes as much as it
can; neither is undone later.

* `Scan`                the type of recognisers;
* `Scan.char`, `Scan.word`, `Scan.run`   a character of a class, a given word, a run of a class;
* `Scan.seq`, `Scan.or`, `Scan.opt`, `Scan.many`, `Scan.butNot`   their combinations.

`Scan.Leaves` says of a recogniser that it leaves a suffix of its text, `Scan.Consumes` that it also
takes something; the lemmas say which combinations keep this.
-/

namespace ProtoDocs

/-- what follows the recognised piece, or nothing -/
def Scan := Text → Option Text

namespace Scan

def char (p : Char → Bool) : Scan
  | [] => none
  | c :: t => if p c then some t else none

def word (w : Text) : Scan := fun t => w.isPrefixOf? t

/-- the characters of the class up to the first other one, perhaps none -/
def run (p : Char → Bool) : Scan := fun t => some (t.dropWhile p)

def seq (p q : Scan) : Scan := fun t => (p t).bind q

def or (p q : Scan) : Scan := fun t => (p t).or (q t)

def opt (p : Scan) : Scan := fun t => some ((p t).getD t)

/-- the piece `p`, where `q` does not recognise one -/
def butNot (q p : Scan) : Scan := fun t => if (q t).isSome then none else p t

/-- what follows as many pieces as there are -/
def rest (p : Scan) (t : Text) : Text :=
  match p t with
  | none => t
  | some r => if r.length < t.length then rest p r else t
termination_by t.length

def many (p : Scan) : Scan := fun t => some (rest p t)

/-- at least one character of the class, and all up to the first other one -/
def run1 (p : Char → Bool) : Scan := (char p).seq (run p)

/-! ## what is left -/

/-- the recogniser leaves a suffix of its text -/
def Leaves (p : Scan) : Prop := ∀ t r, p t = some r → r <:+ t

/-- the recogniser takes at least one character off its text -/
def Consumes (p : Scan) : Prop := ∀ t r, p t = some r → r <:+ t ∧ r.length < t.length

theorem Consumes.leaves {p : Scan} (h : p.Consumes) : p.Leaves := fun t r e => (h t r e).1

theorem consumes_char (p : Char → Bool) : (char p).Consumes := by
  intro t r h
  cases t with
  | nil => simp [char] at h
  | cons c t =>
    simp only [char] at h
    split at h
    · cases h
      exact ⟨List.suffix_cons c r, by simp⟩
    · simp at h

theorem leaves_run (p : Char → Bool) : (run p).Leaves := by
  intro t r h
  cases h
  exact List.dropWhile_suffix p

theorem word_cons (c d : Char) (w t : Text) :
    word (c :: w) (d :: t) = if c = d then word w t else none := by
  show (if (c == d) = true then word w t else none) = if c = d then word w t else none
  simp only [beq_iff_eq]

theorem word_eq_some {w t r : Text} : word w t = some r ↔ t = w ++ r := by
  induction w generalizing t with
  | nil =>
    show some t = some r ↔ t = r
    rw [Option.some.injEq]
  | cons c w ih =>
    cases t with
    | nil =>
      show none = some r ↔ [] = c :: (w ++ r)
      simp
    | cons d t =>
      rw [word_cons, List.cons_append]
      by_cases hcd : c = d
      · subst hcd
        rw [if_pos rfl, ih, List.cons.injEq]
        simp
      · rw [if_neg hcd, List.cons.injEq]
        simp [Ne.symm hcd]

theorem leaves_word (w : Text) : (word w).Leaves := by
  intro t r h
  rw [word_eq_some.1 h]
  exact List.suffix_append w r

theorem consumes_word {w : Text} (hw : w ≠ []) : (word w).Consumes := by
  intro t r h
  have hlen : 0 < w.length := List.length_pos_iff.2 hw
  refine ⟨leaves_word w t r h, ?_⟩
  rw [word_eq_some.1 h, List.length_append]
  omega

theorem leaves_some : Leaves some := by
  intro t r h
  cases h
  exact List.suffix_rfl

theorem Leaves.seq {p q : Scan} (hp : p.Leaves) (hq : q.Leaves) : (p.seq q).Leaves := by
  intro t r h
  obtain ⟨u, hu, hr⟩ := Option.bind_eq_some_iff.1 h
  exact (hq u r hr).trans (hp t u hu)

theorem Consumes.seq {p q : Scan} (hp : p.Consumes) (hq : q.Leaves) : (p.seq q).Consumes := by
  intro t r h
  obtain ⟨u, hu, hr⟩ := Option.bind_eq_some_iff.1 h
  exact ⟨(hq u r hr).trans (hp t u hu).1, Nat.lt_of_le_of_lt (hq u r hr).length_le (hp t u hu).2⟩

theorem Leaves.seq_consumes {p q : Scan} (hp : p.Leaves) (hq : q.Consumes) :
    (p.seq q).Consumes := by
  intro t r h
  obtain ⟨u, hu, hr⟩ := Option.bind_eq_some_iff.1 h
  exact ⟨(hq u r hr).1.trans (hp t u hu), Nat.lt_of_lt_of_le (hq u r hr).2 (hp t u hu).length_le⟩

theorem Leaves.or {p q : Scan} (hp : p.Leaves) (hq : q.Leaves) : (p.or q).Leaves := by
  intro t r h
  rcases Option.or_eq_some_iff.1 h with h | ⟨_, h⟩
  · exact hp t r h
  · exact hq t r h

theorem Consumes.or {p q : Scan} (hp : p.Consumes) (hq : q.Consumes) : (p.or q).Consumes := by
  intro t r h
  rcases Option.or_eq_some_iff.1 h with h | ⟨_, h⟩
  · exact hp t r h
  · exact hq t r h

theorem Leaves.opt {p : Scan} (hp : p.Leaves) : (opt p).Leaves := by
  intro t r h
  cases h
  cases hr : p t with
  | none => exact List.suffix_rfl
  | some r => exact hp t r hr

theorem Leaves.butNot {p : Scan} (q : Scan) (hp : p.Leaves) : (butNot q p).Leaves := by
  intro t r h
  simp only [Scan.butNot] at h
  split at h
  · simp at h
  · exact hp t r h

theorem Consumes.butNot {p : Scan} (q : Scan) (hp : p.Consumes) : (butNot q p).Consumes := by
  intro t r h
  simp only [Scan.butNot] at h
  split at h
  · simp at h
  · exact hp t r h

theorem Leaves.rest_suffix {p : Scan} (hp : p.Leaves) (t : Text) : rest p t <:+ t := by
  fun_induction rest p t with
  | case1 t h => exact List.suffix_rfl
  | case2 t r h hlt ih => exact ih.trans (hp t r h)
  | case3 t r h hlt => exact List.suffix_rfl

theorem Leaves.many {p : Scan} (hp : p.Leaves) : (many p).Leaves := by
  intro t r h
  cases h
  exact hp.rest_suffix t

theorem consumes_run1 (p : Char → Bool) : (run1 p).Consumes :=
  (consumes_char p).seq (leaves_run p)

/-- Where one more piece stands, repetition goes on behind it. -/
theorem rest_of_some {p : Scan} (hp : p.Consumes) {t r : Text} (h : p t = some r) :
    rest p t = rest p r := by
  rw [rest, h]
  exact if_pos (hp t r h).2

theorem rest_of_none {p : Scan} {t : Text} (h : p t = none) : rest p t = t := by
  rw [rest, h]

end Scan
end ProtoDocs
