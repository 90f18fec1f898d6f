import ProtoDocs.Proofs.Grammar.Word

/-!
# Counting brackets in one pass

One pass over a text takes some parts of it whole, as strings and comments, and looks at the
characters between them one by one.

* `Scan.pieces skip t`   the text cut into the parts that `skip` finds and the other characters;
* `closing o c n ps`     the pieces behind the bracket at which the count of open brackets, which is
                         `n` so far, comes to 0;
* `Scan.counted`         the same on texts;
* `Balanced`             as many brackets are closed as are opened, and none before it is opened.

A count of `a + b` is brought to 0 by bringing `a` to 0 and then `b` (`Scan.counted_add`), which is
what a recursive reading of brackets does.
-/

namespace ProtoDocs

/-- what one pass takes at once -/
inductive Piece where
  /-- a part that is not looked into -/
  | whole (u : Text)
  | char (x : Char)
  deriving DecidableEq

namespace Piece

def text : Piece → Text
  | whole u => u
  | char x => [x]

def char? : Piece → Option Char
  | whole _ => none
  | char x => some x

end Piece

def textOf (ps : List Piece) : Text := ps.flatMap Piece.text

@[simp] theorem textOf_nil : textOf [] = [] := rfl

@[simp] theorem textOf_cons (p : Piece) (ps : List Piece) : textOf (p :: ps) = p.text ++ textOf ps :=
  rfl

@[simp] theorem textOf_append (ps qs : List Piece) : textOf (ps ++ qs) = textOf ps ++ textOf qs :=
  List.flatMap_append

def outside (ps : List Piece) : Text := ps.filterMap Piece.char?

/-! ## pieces -/

namespace Scan

/-- the parts that `skip` finds, and the characters where it finds none -/
def pieces (skip : Scan) (t : Text) : List Piece :=
  match t with
  | [] => []
  | x :: u =>
    match skip (x :: u) with
    | none => .char x :: pieces skip u
    | some r =>
      if r.length ≤ u.length then
        .whole ((x :: u).take ((x :: u).length - r.length)) :: pieces skip r
      else .char x :: pieces skip u
termination_by t.length

section
variable {skip : Scan}

@[simp] theorem pieces_nil : pieces skip [] = [] := by
  rw [pieces]

theorem pieces_char {x : Char} {t : Text} (h : skip (x :: t) = none) :
    pieces skip (x :: t) = .char x :: pieces skip t := by
  rw [pieces, h]

theorem Consumes.pieces_whole (hs : skip.Consumes) {u r : Text} (h : skip (u ++ r) = some r) :
    pieces skip (u ++ r) = .whole u :: pieces skip r := by
  have hlt := (hs _ _ h).2
  rcases hu : u ++ r with _ | ⟨x, t⟩
  · rw [hu] at hlt
    simp at hlt
  · rw [hu] at h hlt
    have hle : r.length ≤ t.length := Nat.lt_succ_iff.1 hlt
    have htake : (x :: t).take ((x :: t).length - r.length) = u := by
      rw [← hu, List.length_append, Nat.add_sub_cancel, List.take_left]
    rw [pieces, h]
    simp only [hle, if_true, htake]

/-- What holds of a text if it holds behind its first piece holds of all texts. -/
theorem Consumes.piecewise (hs : skip.Consumes) {motive : Text → Prop} (nil : motive [])
    (whole : ∀ u r, skip (u ++ r) = some r → u ≠ [] → motive r → motive (u ++ r))
    (char : ∀ x t, skip (x :: t) = none → motive t → motive (x :: t)) (t : Text) : motive t := by
  induction hn : t.length using Nat.strong_induction_on generalizing t with
  | _ n ih =>
    cases t with
    | nil => exact nil
    | cons x t =>
      subst hn
      cases h : skip (x :: t) with
      | none => exact char x t h (ih t.length (by simp) t rfl)
      | some r =>
        obtain ⟨⟨u, hu⟩, hlt⟩ := hs _ _ h
        have hne : u ≠ [] := by
          rintro rfl
          simp [← hu] at hlt
        rw [← hu] at h ⊢
        exact whole u r h hne (ih r.length hlt r rfl)

@[simp] theorem Consumes.textOf_pieces (hs : skip.Consumes) (t : Text) :
    textOf (pieces skip t) = t := by
  induction t using hs.piecewise with
  | nil => simp
  | whole u r h _ ih => rw [hs.pieces_whole h, textOf_cons, ih, Piece.text]
  | char x t h ih => rw [pieces_char h, textOf_cons, ih, Piece.text, List.singleton_append]

/-- The pieces behind some pieces are those of the text behind them. -/
theorem Consumes.pieces_of_suffix (hs : skip.Consumes) {t : Text} {qs : List Piece}
    (h : qs <:+ pieces skip t) : pieces skip (textOf qs) = qs := by
  induction t using hs.piecewise with
  | nil =>
    rw [pieces_nil, List.suffix_nil] at h
    subst h
    simp
  | whole u r hr _ ih =>
    rcases List.suffix_cons_iff.1 (hs.pieces_whole hr ▸ h) with rfl | h
    · rw [textOf_cons, hs.textOf_pieces, Piece.text, hs.pieces_whole hr]
    · exact ih h
  | char x t hr ih =>
    rcases List.suffix_cons_iff.1 (pieces_char hr ▸ h) with rfl | h
    · rw [textOf_cons, hs.textOf_pieces, Piece.text, List.singleton_append, pieces_char hr]
    · exact ih h

end

/-! ## pieces of a front part -/

/-- What is found does not depend on the text behind it, apart from how far it goes if that text
carries on with it. -/
structure Local (p : Scan) : Prop where
  cut : ∀ {u v w : Text}, p (u ++ (v ++ w)) = some (v ++ w) → p (u ++ v) = some v
  extend : ∀ {v : Text} (w : Text), p (v ++ w) = none → p v = none

theorem Local.or {p q : Scan} (hp : p.Local) (hq : q.Local) : (p.or q).Local where
  cut := by
    intro u v w h
    rcases Option.or_eq_some_iff.1 h with h | ⟨hnone, h⟩
    · exact or_of_some (hp.cut h) q
    · rw [← List.append_assoc] at hnone
      rw [or_of_none (hp.extend w hnone)]
      exact hq.cut h
  extend := by
    intro v w h
    obtain ⟨h₁, h₂⟩ := Option.or_eq_none_iff.1 h
    rw [or_of_none (hp.extend w h₁)]
    exact hq.extend w h₂

/-- The pieces of a front part are a front part of the pieces. -/
theorem Consumes.pieces_of_prefix {skip : Scan} (hs : skip.Consumes) (hl : skip.Local) {t : Text}
    {us qs : List Piece} (h : pieces skip t = us ++ qs) : pieces skip (textOf us) = us := by
  induction t using hs.piecewise generalizing us with
  | nil =>
    obtain ⟨rfl, -⟩ := List.append_eq_nil_iff.1 (h.symm.trans pieces_nil)
    simp
  | whole u r hr hne ih =>
    cases us with
    | nil => simp
    | cons p us =>
      rw [hs.pieces_whole hr, List.cons_append, List.cons.injEq] at h
      obtain ⟨rfl, h⟩ := h
      have htext : r = textOf us ++ textOf qs := by rw [← textOf_append, ← h, hs.textOf_pieces]
      rw [htext] at hr
      rw [textOf_cons, Piece.text, hs.pieces_whole (hl.cut hr), ih h]
  | char x t hr ih =>
    cases us with
    | nil => simp
    | cons p us =>
      rw [pieces_char hr, List.cons_append, List.cons.injEq] at h
      obtain ⟨rfl, h⟩ := h
      have htext : t = textOf us ++ textOf qs := by rw [← textOf_append, ← h, hs.textOf_pieces]
      rw [htext] at hr
      rw [textOf_cons, Piece.text, List.singleton_append, pieces_char (hl.extend (textOf qs) hr),
        ih h]

end Scan

/-! ## counting -/

section
variable (o c : Char)

/-- what a character adds to the count of open brackets -/
def weight (x : Char) : Int := if x = o then 1 else if x = c then -1 else 0

/-- the pieces behind the character that brings the count `n` of open brackets to 0 -/
def closing : Int → List Piece → Option (List Piece)
  | _, [] => none
  | n, .whole _ :: ps => closing n ps
  | n, .char x :: ps =>
    if n + weight o c x = 0 then some ps else closing (n + weight o c x) ps

end

section
variable {o c : Char}

theorem weight_open : weight o c o = 1 := if_pos rfl

theorem weight_close (h : o ≠ c) : weight o c c = -1 := by
  rw [weight, if_neg (Ne.symm h), if_pos rfl]

theorem weight_of_ne {x : Char} (ho : x ≠ o) (hc : x ≠ c) : weight o c x = 0 := by
  rw [weight, if_neg ho, if_neg hc]

theorem neg_one_le_weight (x : Char) : -1 ≤ weight o c x := by
  unfold weight
  split
  · decide
  · split <;> decide

theorem eq_close_of_weight {n : Int} {x : Char} (hn : 0 < n) (h : n + weight o c x = 0) : x = c := by
  by_contra hc
  by_cases ho : x = o
  · rw [ho, weight_open] at h
    omega
  · rw [weight_of_ne ho hc] at h
    omega

theorem closing_char {n : Int} {x : Char} (ps : List Piece) (h : n + weight o c x ≠ 0) :
    closing o c n (.char x :: ps) = closing o c (n + weight o c x) ps := if_neg h

theorem closing_char_last {n : Int} {x : Char} (ps : List Piece) (h : n + weight o c x = 0) :
    closing o c n (.char x :: ps) = some ps := if_pos h

theorem closing_suffix {n : Int} {ps qs : List Piece} (h : closing o c n ps = some qs) :
    qs <:+ ps := by
  induction ps generalizing n with
  | nil => simp [closing] at h
  | cons p ps ih =>
    cases p with
    | whole u => exact (ih h).trans (List.suffix_cons ..)
    | char x =>
      by_cases hx : n + weight o c x = 0
      · rw [closing_char_last ps hx, Option.some.injEq] at h
        subst h
        exact List.suffix_cons ..
      · rw [closing_char ps hx] at h
        exact (ih h).trans (List.suffix_cons ..)

theorem closing_add {a b : Int} (ha : 0 < a) (hb : 0 < b) (ps : List Piece) :
    closing o c (a + b) ps = (closing o c a ps).bind (closing o c b) := by
  induction ps generalizing a with
  | nil => rfl
  | cons p ps ih =>
    cases p with
    | whole u => exact ih ha
    | char x =>
      have hx : -1 ≤ weight o c x := neg_one_le_weight x
      rw [closing_char ps (by omega), show a + b + weight o c x = a + weight o c x + b by omega]
      by_cases hzero : a + weight o c x = 0
      · rw [closing_char_last ps hzero, hzero, Int.zero_add]
        rfl
      · rw [closing_char ps hzero]
        exact ih (by omega)

theorem closing_length {n : Int} {ps qs : List Piece} (h : closing o c n ps = some qs) :
    qs.length < ps.length := by
  cases ps with
  | nil => simp [closing] at h
  | cons p ps =>
    have hle : qs.length ≤ ps.length := by
      cases p with
      | whole u =>
        have hps : closing o c n ps = some qs := h
        exact (closing_suffix hps).length_le
      | char x =>
        by_cases hx : n + weight o c x = 0
        · rw [closing_char_last ps hx, Option.some.injEq] at h
          rw [h]
        · rw [closing_char ps hx] at h
          exact (closing_suffix h).length_le
    exact Nat.lt_succ_of_le hle

/-- Further pieces behind those that close the brackets change nothing. -/
theorem closing_append {n : Int} {ps qs : List Piece} (h : closing o c n ps = some qs)
    (rs : List Piece) : closing o c n (ps ++ rs) = some (qs ++ rs) := by
  induction ps generalizing n with
  | nil => simp [closing] at h
  | cons p ps ih =>
    cases p with
    | whole u => exact ih h
    | char x =>
      by_cases hx : n + weight o c x = 0
      · rw [closing_char_last ps hx, Option.some.injEq] at h
        subst h
        exact closing_char_last _ hx
      · rw [closing_char ps hx] at h
        exact (closing_char _ hx).trans (ih h)

/-- The pieces that close the brackets end with the bracket that closes the first of them. -/
theorem closing_cancel {n : Int} (hn : 0 < n) {us qs : List Piece}
    (h : closing o c n (us ++ qs) = some qs) :
    us.getLast? = some (.char c) ∧ closing o c n us = some [] := by
  induction us generalizing n with
  | nil => exact absurd (closing_length h) (Nat.lt_irrefl _)
  | cons p us ih =>
    have hlast {q : Piece} (h : us.getLast? = some q) : (p :: us).getLast? = some q := by
      rw [List.getLast?_cons, h]
      rfl
    cases p with
    | whole u => exact (ih hn h).imp_left hlast
    | char x =>
      rw [List.cons_append] at h
      by_cases hx : n + weight o c x = 0
      · rw [closing_char_last _ hx, Option.some.injEq] at h
        obtain rfl : us = [] := List.append_cancel_right (h.trans (List.nil_append qs).symm)
        exact ⟨by rw [eq_close_of_weight hn hx]; rfl, closing_char_last _ hx⟩
      · rw [closing_char _ hx] at h
        have hweight : -1 ≤ weight o c x := neg_one_le_weight x
        obtain ⟨hus, hclosing⟩ := ih (by omega) h
        exact ⟨hlast hus, (closing_char _ hx).trans hclosing⟩

/-- On the way to the last bracket, some brackets are open. -/
theorem exists_closing_of_suffix {n : Int} {ps qs rs : List Piece} (hn : 0 < n)
    (h : closing o c n ps = some qs) (hrs : rs <:+ ps) (hqs : qs.length < rs.length) :
    ∃ m, 0 < m ∧ closing o c m rs = some qs := by
  induction ps generalizing n with
  | nil => simp [closing] at h
  | cons p ps ih =>
    rcases List.suffix_cons_iff.1 hrs with rfl | htail
    · exact ⟨n, hn, h⟩
    cases p with
    | whole u => exact ih hn h htail
    | char x =>
      by_cases hx : n + weight o c x = 0
      · rw [closing_char_last ps hx, Option.some.injEq] at h
        subst h
        exact absurd htail.length_le (by omega)
      · rw [closing_char ps hx] at h
        have hweight : -1 ≤ weight o c x := neg_one_le_weight x
        exact ih (by omega) h htail

theorem exists_closing_one {n : Int} {ps qs : List Piece} (hn : 0 < n)
    (h : closing o c n (.char o :: ps) = some qs) : ∃ rs, closing o c 1 ps = some rs := by
  rw [closing_char ps (by rw [weight_open]; omega), weight_open, Int.add_comm,
    closing_add Int.one_pos hn] at h
  obtain ⟨rs, hrs, -⟩ := Option.bind_eq_some_iff.1 h
  exact ⟨rs, hrs⟩

/-! ## balanced brackets -/

/-- as many brackets are closed as are opened, and none before it is opened -/
def Balanced (o c : Char) (u : Text) : Prop :=
  u.count o = u.count c ∧ ∀ v, v <+: u → v.count c ≤ v.count o

theorem count_cons_weight (hne : o ≠ c) (x : Char) (u : Text) :
    ((x :: u).count o : Int) - (x :: u).count c = weight o c x + (u.count o - u.count c) := by
  rw [List.count_cons, List.count_cons, weight]
  by_cases ho : x = o
  · subst ho
    have hxc : (x == c) = false := beq_false_of_ne hne
    simp [hxc]
    omega
  · by_cases hc : x = c
    · subst hc
      simp [ho]
      omega
    · simp [ho, hc]

/-- The characters that close `n` brackets have `n` more closing brackets than opening ones, and
before the last of them it is fewer. -/
theorem closing_counts (hne : o ≠ c) {n : Int} (hn : 0 < n) {ps qs : List Piece}
    (h : closing o c n ps = some qs) :
    ∃ us, ps = us ++ qs ∧ n + (outside us).count o - (outside us).count c = 0 ∧
      ∀ v, v <+: outside us → 0 ≤ n + v.count o - v.count c := by
  induction ps generalizing n with
  | nil => simp [closing] at h
  | cons p ps ih =>
    cases p with
    | whole u =>
      obtain ⟨us, rfl, hus⟩ := ih hn h
      exact ⟨.whole u :: us, rfl, hus⟩
    | char x =>
      have hstep (u : Text) := count_cons_weight hne x u
      have hweight : -1 ≤ weight o c x := neg_one_le_weight x
      -- a front part that is not empty is the character and a front part of what follows
      have hfront {us : List Piece} (h : ∀ v, v <+: outside us →
          0 ≤ n + weight o c x + v.count o - v.count c) :
          ∀ v, v <+: outside (.char x :: us) → 0 ≤ n + v.count o - v.count c := by
        intro v hv
        rcases List.prefix_cons_iff.1 hv with rfl | ⟨w, rfl, hw⟩
        · simpa using hn.le
        · have := h w hw
          have := hstep w
          omega
      by_cases hx : n + weight o c x = 0
      · rw [closing_char_last ps hx, Option.some.injEq] at h
        subst h
        refine ⟨[.char x], rfl, ?_, hfront ?_⟩
        · have := hstep []
          simp only [List.count_nil] at this
          show n + (List.count o [x] : Int) - (List.count c [x] : Int) = 0
          omega
        · intro v hv
          rw [List.prefix_nil.1 hv]
          simp [hx]
      · rw [closing_char ps hx] at h
        obtain ⟨us, rfl, htotal, hus⟩ := ih (by omega) h
        refine ⟨.char x :: us, rfl, ?_, hfront hus⟩
        have := hstep (outside us)
        show n + (List.count o (x :: outside us) : Int) - (List.count c (x :: outside us) : Int) = 0
        omega

theorem balanced_of_closing (hne : o ≠ c) {ps qs : List Piece} (h : closing o c 1 ps = some qs) :
    ∃ us, ps = us ++ qs ∧ Balanced o c (o :: outside us) := by
  obtain ⟨us, rfl, htotal, hfront⟩ := closing_counts hne Int.one_pos h
  have hopen (u : Text) := count_cons_weight hne o u
  rw [weight_open] at hopen
  refine ⟨us, rfl, ?_, fun v hv => ?_⟩
  · have := hopen (outside us)
    omega
  · rcases List.prefix_cons_iff.1 hv with rfl | ⟨w, rfl, hw⟩
    · simp
    · have := hopen w
      have := hfront w hw
      omega

end

/-! ## counting in texts -/

namespace Scan

/-- what follows the character that brings the count `n` of open brackets to 0, where the parts that
`skip` finds are passed over -/
def counted (skip : Scan) (o c : Char) (n : Int) : Scan := fun t =>
  (closing o c n (pieces skip t)).map textOf

section
variable {skip : Scan} {o c : Char} {n : Int}

theorem counted_nil : counted skip o c n [] = none := by
  rw [counted, pieces_nil]
  rfl

theorem Consumes.counted_whole (hs : skip.Consumes) {u r : Text} (h : skip (u ++ r) = some r) :
    counted skip o c n (u ++ r) = counted skip o c n r := by
  rw [counted, hs.pieces_whole h]
  rfl

theorem counted_char {x : Char} {t : Text} (h : skip (x :: t) = none) (hx : n + weight o c x ≠ 0) :
    counted skip o c n (x :: t) = counted skip o c (n + weight o c x) t := by
  rw [counted, pieces_char h, closing_char _ hx]
  rfl

theorem Consumes.counted_char_last (hs : skip.Consumes) {x : Char} {t : Text}
    (h : skip (x :: t) = none) (hx : n + weight o c x = 0) :
    counted skip o c n (x :: t) = some t := by
  rw [counted, pieces_char h, closing_char_last _ hx, Option.map_some, hs.textOf_pieces]

theorem Consumes.counted_add (hs : skip.Consumes) {a b : Int} (ha : 0 < a) (hb : 0 < b) (t : Text) :
    counted skip o c (a + b) t = (counted skip o c a).seq (counted skip o c b) t := by
  rw [counted, closing_add ha hb]
  cases h : closing o c a (pieces skip t) with
  | none =>
    have hnone : counted skip o c a t = none := by rw [counted, h]; rfl
    rw [seq_of_none hnone]
    rfl
  | some qs =>
    have hsome : counted skip o c a t = some (textOf qs) := by rw [counted, h]; rfl
    rw [seq_of_some hsome, counted, hs.pieces_of_suffix (closing_suffix h)]
    rfl

theorem Consumes.exists_pieces_of_counted (hs : skip.Consumes) {t r : Text}
    (h : counted skip o c n t = some r) :
    closing o c n (pieces skip t) = some (pieces skip r) := by
  obtain ⟨qs, hqs, rfl⟩ := Option.map_eq_some_iff.1 h
  rw [hqs, hs.pieces_of_suffix (closing_suffix hqs)]

theorem Consumes.counted_suffix (hs : skip.Consumes) {t r : Text}
    (h : counted skip o c n t = some r) : r <:+ t := by
  obtain ⟨us, hus⟩ := closing_suffix (hs.exists_pieces_of_counted h)
  refine ⟨textOf us, ?_⟩
  rw [← hs.textOf_pieces t, ← hus, textOf_append, hs.textOf_pieces]

end
end Scan
end ProtoDocs
