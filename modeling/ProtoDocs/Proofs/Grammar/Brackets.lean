import ProtoDocs.Proofs.Grammar.Pieces
import ProtoDocs.Proofs.Grammar.Value

/-!
# Bracketed text

The recognisers of bracketed text look for further bracketed text inside, and take an opening bracket
for an ordinary character where there is none.  That never helps: what is found are the texts in which
one pass counts as many closing brackets as opening ones.

* `Lexeme.inert`         strings and comments, in which brackets do not count;
* `Lexeme.nestedAt`      bracketed text of any kind, `Lexeme.Nested` what its parts must satisfy;
* `Nested.nestedTail_eq`   what stands behind the opening bracket, by induction on the length of the text;
* `aggregate_eq_some`, `listValue_eq_some`   the two kinds of bracketed text;
* `aggregate_counts`     aggregates and the count of their braces.
-/

namespace ProtoDocs
namespace Lexeme

open Scan

/-- text in which brackets do not count -/
def inert : Scan := stringLit.or comment

theorem consumes_inert : inert.Consumes := consumes_stringLit.or consumes_comment

theorem local_stringLit : stringLit.Local where
  cut := by
    intro u v w h
    obtain ⟨s, hs, he⟩ := stringLit_eq_some_iff.1 h
    obtain rfl : u = s := List.append_cancel_right he
    exact stringLit_eq_some_iff.2 ⟨u, hs, rfl⟩
  extend := by
    intro v w h
    rw [Option.eq_none_iff_forall_ne_some]
    intro r hr
    obtain ⟨s, hs, rfl⟩ := stringLit_eq_some_iff.1 hr
    rw [List.append_assoc, stringLit_eq_some_iff.2 ⟨s, hs, rfl⟩] at h
    simp at h

theorem local_comment : comment.Local where
  cut := by
    intro u v w h
    obtain ⟨s, he, hs⟩ := comment_eq_some_iff.1 h
    obtain rfl : u = s := List.append_cancel_right he
    refine comment_eq_some_iff.2 ⟨u, rfl, hs.imp_left fun ⟨hline, hend⟩ => ⟨hline, fun hv => ?_⟩⟩
    rw [← Text.starts_append hv w]
    exact hend (by simp [hv])
  extend := by
    intro v w h
    rw [Option.eq_none_iff_forall_ne_some]
    intro r hr
    obtain ⟨s, rfl, ⟨⟨t, rfl, _⟩, _⟩ | hs⟩ := comment_eq_some_iff.1 hr
    · simp [comment] at h
    · rw [List.append_assoc, comment_eq_some_iff.2 ⟨s, rfl, .inr hs⟩] at h
      simp at h

theorem local_inert : inert.Local := local_stringLit.or local_comment

theorem inert_of_not_starts {x : Char} {t : Text} (hx : isQuote x = false) (hslash : x ≠ '/') :
    inert (x :: t) = none := by
  have hstring : stringLit (x :: t) = none := stringLit_of_not_starts hx
  rw [inert, or_of_none hstring, Option.eq_none_iff_forall_ne_some]
  intro r hr
  obtain ⟨s, he, hs⟩ := comment_eq_some_iff.1 hr
  obtain ⟨d, rfl⟩ := hs.exists_slash
  exact hslash (List.cons.inj he).1

/-! ## brackets in brackets -/

/-- brackets around parts that `skip` finds, bracketed text and plain characters, to the depth -/
def nestedAt (skip : Nat → Scan) (o c : Char) (plain : Char → Bool) : Nat → Scan
  | 0 => fun _ => none
  | depth + 1 =>
    (char (· == o)).seq
      ((many ((skip depth).or ((nestedAt skip o c plain depth).or (char plain)))).seq
        (char (· == c)))

/-- `skip` looks to a depth for what `whole` finds, which is neither bracket, and every character but
the brackets is plain; the opening bracket may be, the closing one is not -/
structure Nested (skip : Nat → Scan) (whole : Scan) (o c : Char) (plain : Char → Bool) : Prop where
  ne : o ≠ c
  consumes_skip : ∀ d, (skip d).Consumes
  consumes_whole : whole.Consumes
  skip_eq : ∀ d t, t.length ≤ d → skip d t = whole t
  whole_open : ∀ t, whole (o :: t) = none
  whole_close : ∀ t, whole (c :: t) = none
  plain_close : plain c = false
  plain_of_ne : ∀ x, x ≠ o → x ≠ c → plain x = true

section
variable (skip : Nat → Scan) (o c : Char) (plain : Char → Bool) (d : Nat)

def nestedItem : Scan := (skip d).or ((nestedAt skip o c plain d).or (char plain))

def nestedTail : Scan := (many (nestedItem skip o c plain d)).seq (char (· == c))

end

namespace Nested

variable {skip : Nat → Scan} {whole : Scan} {o c : Char} {plain : Char → Bool} {d : Nat}

theorem consumes_nestedAt (h : Nested skip whole o c plain) (d : Nat) :
    (nestedAt skip o c plain d).Consumes := by
  induction d with
  | zero => intro t r hr; simp [nestedAt] at hr
  | succ d ih =>
    have hitem := (h.consumes_skip d).or (ih.or (consumes_char plain))
    exact (consumes_char _).seq (hitem.leaves.many.seq (consumes_char _).leaves)

theorem consumes_nestedItem (h : Nested skip whole o c plain) (d : Nat) :
    (nestedItem skip o c plain d).Consumes :=
  (h.consumes_skip d).or ((h.consumes_nestedAt d).or (consumes_char plain))

theorem nestedAt_open (t : Text) :
    nestedAt skip o c plain (d + 1) (o :: t) = nestedTail skip o c plain d t :=
  seq_of_some (by simp [char]) _

theorem nestedAt_of_ne {x : Char} (hx : x ≠ o) (d : Nat) (t : Text) :
    nestedAt skip o c plain d (x :: t) = none := by
  cases d with
  | zero => rfl
  | succ d => exact seq_of_none (by simp [char, hx]) _

theorem nestedItem_of_some (h : Nested skip whole o c plain) {t r : Text} (hd : t.length ≤ d)
    (hr : whole t = some r) : nestedItem skip o c plain d t = some r :=
  or_of_some ((h.skip_eq d t hd).trans hr) _

theorem nestedItem_of_none (h : Nested skip whole o c plain) {t : Text} (hd : t.length ≤ d)
    (hr : whole t = none) :
    nestedItem skip o c plain d t = (nestedAt skip o c plain d).or (char plain) t :=
  or_of_none ((h.skip_eq d t hd).trans hr) _

/-- Behind a part, the rest is read as from the start. -/
theorem nestedTail_of_some (h : Nested skip whole o c plain) {t r : Text}
    (hr : nestedItem skip o c plain d t = some r) :
    nestedTail skip o c plain d t = nestedTail skip o c plain d r := by
  show (char (· == c)) (rest _ t) = (char (· == c)) (rest _ r)
  rw [rest_of_some (h.consumes_nestedItem d) hr]

theorem nestedTail_of_none {t : Text} (hr : nestedItem skip o c plain d t = none) :
    nestedTail skip o c plain d t = char (· == c) t := by
  show (char (· == c)) (rest _ t) = (char (· == c)) t
  rw [rest_of_none hr]

/-- What stands behind the opening bracket is the text that closes one bracket. -/
theorem nestedTail_eq (h : Nested skip whole o c plain) {t : Text} (hd : t.length ≤ d) :
    nestedTail skip o c plain d t = counted whole o c 1 t := by
  induction hn : t.length using Nat.strong_induction_on generalizing t d with
  | _ n ih =>
  subst hn
  -- once a part is taken, the induction takes the rest
  have htaken {r : Text} (hr : nestedItem skip o c plain d t = some r) (hlt : r.length < t.length) :
      nestedTail skip o c plain d t = counted whole o c 1 r :=
    (h.nestedTail_of_some hr).trans (ih r.length hlt (Nat.le_trans hlt.le hd) rfl)
  cases t with
  | nil =>
    have hnone : nestedItem skip o c plain d [] = none := by
      rw [Option.eq_none_iff_forall_ne_some]
      intro r hr
      simpa using (h.consumes_nestedItem d _ _ hr).2
    rw [nestedTail_of_none hnone, counted_nil]
    rfl
  | cons x u =>
    have hu : u.length < (x :: u).length := Nat.lt_succ_self _
    cases hwhole : whole (x :: u) with
    | some r =>
      obtain ⟨⟨v, hv⟩, hlt⟩ := h.consumes_whole _ _ hwhole
      rw [htaken (h.nestedItem_of_some hd hwhole) hlt, ← hv,
        h.consumes_whole.counted_whole (hv ▸ hwhole)]
    | none =>
      have hitem := h.nestedItem_of_none hd hwhole
      by_cases ho : x = o
      · subst ho
        obtain ⟨d, rfl⟩ : ∃ k, d = k + 1 := Nat.exists_eq_add_one.2 (Nat.lt_of_lt_of_le (by simp) hd)
        have hnested : nestedAt skip x c plain (d + 1) (x :: u) = counted whole x c 1 u :=
          (nestedAt_open u).trans (ih u.length hu (Nat.le_of_succ_le_succ hd) rfl)
        -- two brackets are open now: the inner one must be closed first
        have hcount : counted whole x c 1 (x :: u) =
            (counted whole x c 1).seq (counted whole x c 1) u := by
          rw [counted_char hwhole (by rw [weight_open]; decide), weight_open,
            h.consumes_whole.counted_add Int.one_pos Int.one_pos]
        rw [hcount]
        cases hinner : counted whole x c 1 u with
        | some r =>
          have hlt : r.length < (x :: u).length :=
            Nat.lt_of_le_of_lt (h.consumes_whole.counted_suffix hinner).length_le hu
          rw [htaken (hitem.trans (or_of_some (hnested.trans hinner) _)) hlt, seq_of_some hinner]
        | none =>
          have hplain := hitem.trans (or_of_none (hnested.trans hinner) (char plain))
          rw [seq_of_none hinner]
          by_cases hp : plain x
          · rw [htaken (hplain.trans (by simp [char, hp])) hu, hinner]
          · rw [nestedTail_of_none (hplain.trans (by simp [char, hp]))]
            simp [char, h.ne]
      · have hplain := hitem.trans (or_of_none (nestedAt_of_ne ho d u) (char plain))
        by_cases hc : x = c
        · subst hc
          rw [nestedTail_of_none (hplain.trans (by simp [char, h.plain_close])),
            h.consumes_whole.counted_char_last hwhole (by rw [weight_close h.ne]; decide)]
          simp [char]
        · have hweight : weight o c x = 0 := weight_of_ne ho hc
          rw [htaken (hplain.trans (by simp [char, h.plain_of_ne x ho hc])) hu,
            counted_char hwhole (by rw [hweight]; decide), hweight, Int.add_zero]

theorem nestedAt_eq (h : Nested skip whole o c plain) {t : Text} (hd : (o :: t).length ≤ d) :
    nestedAt skip o c plain d (o :: t) = counted whole o c 0 (o :: t) := by
  obtain ⟨d, rfl⟩ : ∃ k, d = k + 1 := Nat.exists_eq_add_one.2 (Nat.lt_of_lt_of_le (by simp) hd)
  rw [nestedAt_open, h.nestedTail_eq (Nat.le_of_succ_le_succ hd),
    counted_char (h.whole_open t) (by rw [weight_open]; decide), weight_open, Int.zero_add]

/-- It is enough to look for bracketed text to the depth of the length of the text. -/
theorem nestedAt_of_length_le (h : Nested skip whole o c plain) {t : Text} (hd : t.length ≤ d) :
    nestedAt skip o c plain d t = nestedAt skip o c plain t.length t := by
  cases t with
  | nil =>
    cases d with
    | zero => rfl
    | succ d => exact seq_of_none rfl _
  | cons x t =>
    by_cases hx : x = o
    · subst hx
      rw [h.nestedAt_eq hd, h.nestedAt_eq le_rfl]
    · rw [nestedAt_of_ne hx, nestedAt_of_ne hx]

end Nested

/-! ## aggregates and lists -/

theorem nested_aggregate {plain : Char → Bool} (hclose : plain '}' = false)
    (hplain : ∀ x, x ≠ '{' → x ≠ '}' → plain x = true) :
    Nested (fun _ => inert) inert '{' '}' plain where
  ne := by decide
  consumes_skip _ := consumes_inert
  consumes_whole := consumes_inert
  skip_eq _ _ _ := rfl
  whole_open _ := inert_of_not_starts rfl (by decide)
  whole_close _ := inert_of_not_starts rfl (by decide)
  plain_close := hclose
  plain_of_ne := hplain

theorem aggregateAt_eq (d : Nat) :
    aggregateAt d = nestedAt (fun _ => inert) '{' '}' (· != '}') d := by
  induction d with
  | zero => rfl
  | succ d ih => rw [aggregateAt, nestedAt, ih, inert, Scan.or_assoc]

theorem aggregate_eq (t : Text) : aggregate ('{' :: t) = counted inert '{' '}' 0 ('{' :: t) := by
  rw [aggregate, aggregateAt_eq]
  exact (nested_aggregate rfl (by simp)).nestedAt_eq le_rfl

theorem aggregate_eq_some {t r : Text} :
    aggregate ('{' :: t) = some r ↔
      ∃ qs, closing '{' '}' 1 (pieces inert t) = some qs ∧ textOf qs = r := by
  have hfirst : inert ('{' :: t) = none := inert_of_not_starts rfl (by decide)
  rw [aggregate_eq, counted, pieces_char hfirst, closing_char _ (by decide)]
  exact Option.map_eq_some_iff

theorem consumes_aggregate : aggregate.Consumes := fun t r h => consumes_aggregateAt t.length t r h

theorem aggregateAt_of_length_le {d : Nat} {t : Text} (h : t.length ≤ d) :
    aggregateAt d t = aggregate t := by
  rw [aggregate, aggregateAt_eq, aggregateAt_eq]
  exact (nested_aggregate rfl (by simp)).nestedAt_of_length_le h

/-! ## lists -/

theorem nested_listValue :
    Nested (fun d => inert.or (aggregateAt d)) (inert.or aggregate) '[' ']' (· != ']') where
  ne := by decide
  consumes_skip d := consumes_inert.or (consumes_aggregateAt d)
  consumes_whole := consumes_inert.or consumes_aggregate
  skip_eq d t h := by
    show (inert t).or (aggregateAt d t) = (inert t).or (aggregate t)
    rw [aggregateAt_of_length_le h]
  whole_open t := (or_of_none (inert_of_not_starts rfl (by decide)) _).trans
    (aggregate_of_not_starts rfl)
  whole_close t := (or_of_none (inert_of_not_starts rfl (by decide)) _).trans
    (aggregate_of_not_starts rfl)
  plain_close := rfl
  plain_of_ne x _ hx := by simp [hx]

theorem listValueAt_eq (d : Nat) :
    listValueAt d = nestedAt (fun d => inert.or (aggregateAt d)) '[' ']' (· != ']') d := by
  induction d with
  | zero => rfl
  | succ d ih => rw [listValueAt, nestedAt, ih, inert, Scan.or_assoc, Scan.or_assoc]

theorem listValueAt_of_length_le {d : Nat} {t : Text} (h : t.length ≤ d) :
    listValueAt d t = listValue t := by
  rw [listValue, listValueAt_eq, listValueAt_eq]
  exact nested_listValue.nestedAt_of_length_le h

/-- the pieces behind the braces that are closed, if the one in front is -/
def pastBraces (ps : List Piece) : List Piece := (closing '{' '}' 1 ps).getD ps

theorem pastBraces_suffix (ps : List Piece) : pastBraces ps <:+ ps := by
  unfold pastBraces
  cases h : closing '{' '}' 1 ps with
  | none => exact List.suffix_rfl
  | some qs => exact closing_suffix h

/-- the pieces behind the square bracket that brings the count `n` of open ones to 0, where those
between braces do not count -/
def closingList (n : Int) : List Piece → Option (List Piece)
  | [] => none
  | .whole _ :: ps => closingList n ps
  | .char x :: ps =>
    if x = '{' then closingList n (pastBraces ps)
    else if n + weight '[' ']' x = 0 then some ps
    else closingList (n + weight '[' ']' x) ps
termination_by ps => ps.length
decreasing_by
  · simp
  · exact Nat.lt_succ_of_le (pastBraces_suffix ps).length_le
  · simp

theorem closingList_brace (n : Int) (ps : List Piece) :
    closingList n (.char '{' :: ps) = closingList n (pastBraces ps) := by
  rw [closingList, if_pos rfl]

theorem closingList_char {n : Int} {x : Char} (ps : List Piece) (hx : x ≠ '{') :
    closingList n (.char x :: ps) = if n + weight '[' ']' x = 0 then some ps
      else closingList (n + weight '[' ']' x) ps := by
  rw [closingList, if_neg hx]

theorem closingList_suffix {n : Int} {ps qs : List Piece} (h : closingList n ps = some qs) :
    qs <:+ ps := by
  fun_induction closingList n ps with
  | case1 n => cases h
  | case2 n u ps ih => exact (ih h).trans (List.suffix_cons ..)
  | case3 n ps ih => exact ((ih h).trans (pastBraces_suffix ps)).trans (List.suffix_cons ..)
  | case4 n x ps hx hzero =>
    cases h
    exact List.suffix_cons ..
  | case5 n x ps hx hzero ih => exact (ih h).trans (List.suffix_cons ..)

theorem closingList_length {n : Int} {ps qs : List Piece} (h : closingList n ps = some qs) :
    qs.length < ps.length := by
  fun_induction closingList n ps with
  | case1 n => cases h
  | case2 n u ps ih => exact Nat.lt_succ_of_lt (ih h)
  | case3 n ps ih =>
    exact Nat.lt_succ_of_lt (Nat.lt_of_lt_of_le (ih h) (pastBraces_suffix ps).length_le)
  | case4 n x ps hx hzero =>
    cases h
    exact Nat.lt_succ_self _
  | case5 n x ps hx hzero ih => exact Nat.lt_succ_of_lt (ih h)

def BracesClosed (ps : List Piece) : Prop :=
  ∀ qs, .char '{' :: qs <:+ ps → ∃ rs, closing '{' '}' 1 qs = some rs

theorem BracesClosed.of_suffix {ps qs : List Piece} (h : BracesClosed ps) (hqs : qs <:+ ps) :
    BracesClosed qs := fun rs hrs => h rs (hrs.trans hqs)

theorem bracesClosed_cons {p : Piece} {ps : List Piece} :
    BracesClosed (p :: ps) ↔
      (p = .char '{' → (closing '{' '}' 1 ps).isSome = true) ∧ BracesClosed ps := by
  constructor
  · refine fun h => ⟨?_, h.of_suffix (List.suffix_cons ..)⟩
    rintro rfl
    exact Option.isSome_iff_exists.2 (h ps List.suffix_rfl)
  · rintro ⟨hp, hps⟩ qs hqs
    rcases List.suffix_cons_iff.1 hqs with he | hqs
    · obtain ⟨rfl, rfl⟩ := List.cons.inj he
      exact Option.isSome_iff_exists.1 (hp rfl)
    · exact hps qs hqs

instance decidableBracesClosed : (ps : List Piece) → Decidable (BracesClosed ps)
  | [] => isTrue fun qs hqs => absurd hqs.length_le (by simp)
  | _ :: ps =>
    have := decidableBracesClosed ps
    decidable_of_iff _ bracesClosed_cons.symm

theorem BracesClosed.pastBraces_append {us : List Piece} (h : BracesClosed (.char '{' :: us))
    (rs : List Piece) : pastBraces (us ++ rs) = pastBraces us ++ rs := by
  obtain ⟨vs, hvs⟩ := h us List.suffix_rfl
  rw [pastBraces, closing_append hvs rs, pastBraces, hvs]
  rfl

/-- The braces that are passed over in front of the last bracket are closed in front of it. -/
theorem pastBraces_cancel {n : Int} {us qs : List Piece}
    (h : closingList n (pastBraces (us ++ qs)) = some qs) :
    pastBraces (us ++ qs) = pastBraces us ++ qs := by
  cases hclosing : closing '{' '}' 1 (us ++ qs) with
  | none =>
    have hnone : closing '{' '}' 1 us = none := by
      rw [Option.eq_none_iff_forall_ne_some]
      intro vs hvs
      rw [closing_append hvs qs] at hclosing
      cases hclosing
    rw [pastBraces, hclosing, pastBraces, hnone]
    rfl
  | some ps =>
    rw [pastBraces, hclosing, Option.getD_some] at h ⊢
    obtain ⟨ws, hws⟩ := closing_suffix hclosing
    obtain ⟨vs, rfl⟩ := List.suffix_of_suffix_length_le (List.suffix_append us qs) ⟨ws, hws⟩
      (closingList_length h).le
    obtain rfl : ws ++ vs = us := by
      rw [← List.append_assoc] at hws
      exact List.append_cancel_right hws
    rw [List.append_assoc] at hclosing
    rw [pastBraces, closing_append (closing_cancel Int.one_pos hclosing).2 vs]
    rfl

/-- The pieces that close a list end with the bracket that closes it. -/
theorem closingList_cancel {n : Int} (hn : 0 < n) {us qs : List Piece}
    (h : closingList n (us ++ qs) = some qs) :
    us.getLast? = some (.char ']') ∧ closingList n us = some [] := by
  induction hlen : us.length using Nat.strong_induction_on generalizing us n with
  | _ k ih =>
  subst hlen
  cases us with
  | nil => exact absurd (closingList_length h) (Nat.lt_irrefl _)
  | cons p us =>
    have hlt : us.length < (p :: us).length := Nat.lt_succ_self _
    have hlast {vs : List Piece} {q : Piece} (hvs : vs <:+ us) (hq : vs.getLast? = some q) :
        (p :: us).getLast? = some q := by
      obtain ⟨ws, rfl⟩ := hvs
      rw [List.getLast?_cons, List.getLast?_append, hq]
      rfl
    rw [List.cons_append] at h
    cases p with
    | whole u =>
      rw [closingList] at h ⊢
      exact (ih us.length hlt hn h rfl).imp_left (hlast List.suffix_rfl)
    | char x =>
      by_cases hx : x = '{'
      · subst hx
        have hsuffix := pastBraces_suffix us
        rw [closingList_brace] at h ⊢
        rw [pastBraces_cancel h] at h
        exact (ih _ (Nat.lt_of_le_of_lt hsuffix.length_le hlt) hn h rfl).imp_left (hlast hsuffix)
      · rw [closingList_char _ hx] at h ⊢
        by_cases hzero : n + weight '[' ']' x = 0
        · rw [if_pos hzero, Option.some.injEq] at h ⊢
          obtain rfl : us = [] := List.append_cancel_right (h.trans (List.nil_append qs).symm)
          exact ⟨by rw [eq_close_of_weight hn hzero]; rfl, rfl⟩
        · have hweight : -1 ≤ weight '[' ']' x := neg_one_le_weight x
          rw [if_neg hzero] at h ⊢
          exact (ih us.length hlt (by omega) h rfl).imp_left (hlast List.suffix_rfl)

/-- If all braces in it are closed as well, a list closes in front of any other pieces. -/
theorem closingList_append {n : Int} {us qs : List Piece} (hbraces : BracesClosed us)
    (h : closingList n us = some qs) (rs : List Piece) :
    closingList n (us ++ rs) = some (qs ++ rs) := by
  fun_induction closingList n us with
  | case1 n => cases h
  | case2 n u us ih =>
    rw [List.cons_append, closingList]
    exact ih (hbraces.of_suffix (List.suffix_cons ..)) h
  | case3 n us ih =>
    rw [List.cons_append, closingList_brace, hbraces.pastBraces_append]
    exact ih (hbraces.of_suffix ((pastBraces_suffix us).trans (List.suffix_cons ..))) h
  | case4 n x us hx hzero =>
    cases h
    rw [List.cons_append, closingList_char _ hx, if_pos hzero]
  | case5 n x us hx hzero ih =>
    rw [List.cons_append, closingList_char _ hx, if_neg hzero]
    exact ih (hbraces.of_suffix (List.suffix_cons ..)) h

/-- A list passes over an aggregate as a whole, which is the same as passing over its braces. -/
theorem counted_eq_closingList {n : Int} (hn : n ≠ 0) (t : Text) :
    counted (inert.or aggregate) '[' ']' n t = (closingList n (pieces inert t)).map textOf := by
  induction hlen : t.length using Nat.strong_induction_on generalizing t n with
  | _ k ih =>
  subst hlen
  have hs : (inert.or aggregate).Consumes := consumes_inert.or consumes_aggregate
  cases t with
  | nil =>
    rw [counted_nil, pieces_nil, closingList]
    rfl
  | cons x u =>
    have hu : u.length < (x :: u).length := Nat.lt_succ_self _
    cases hinert : inert (x :: u) with
    | some r =>
      obtain ⟨⟨v, hv⟩, hlt⟩ := consumes_inert _ _ hinert
      rw [← hv] at hinert ⊢
      rw [hs.counted_whole (or_of_some hinert _), consumes_inert.pieces_whole hinert, closingList]
      exact ih r.length (hv ▸ hlt) hn r rfl
    | none =>
      rw [pieces_char hinert]
      by_cases hx : x = '{'
      · subst hx
        rw [closingList_brace]
        cases hagg : closing '{' '}' 1 (pieces inert u) with
        | some qs =>
          have hread : (inert.or aggregate) ('{' :: u) = some (textOf qs) :=
            (or_of_none hinert _).trans (aggregate_eq_some.2 ⟨qs, hagg, rfl⟩)
          obtain ⟨⟨v, hv⟩, hlt⟩ := hs _ _ hread
          rw [← hv] at hread ⊢
          rw [hs.counted_whole hread, pastBraces, hagg, Option.getD_some,
            ih _ hlt hn _ rfl, consumes_inert.pieces_of_suffix (closing_suffix hagg)]
        | none =>
          have hread : (inert.or aggregate) ('{' :: u) = none := by
            refine (or_of_none hinert _).trans ?_
            rw [Option.eq_none_iff_forall_ne_some]
            intro r hr
            obtain ⟨qs, hqs, -⟩ := aggregate_eq_some.1 hr
            rw [hagg] at hqs
            cases hqs
          have hweight : weight '[' ']' '{' = 0 := by decide
          rw [pastBraces, hagg, Option.getD_none, counted_char hread (by rw [hweight]; omega),
            hweight, Int.add_zero]
          exact ih u.length hu hn u rfl
      · have hread : (inert.or aggregate) (x :: u) = none :=
          (or_of_none hinert _).trans (aggregate_of_not_starts (by simpa using hx))
        rw [closingList_char _ hx]
        by_cases hzero : n + weight '[' ']' x = 0
        · rw [hs.counted_char_last hread hzero, if_pos hzero, Option.map_some,
            consumes_inert.textOf_pieces]
        · rw [counted_char hread hzero, if_neg hzero]
          exact ih u.length hu hzero u rfl

theorem listValue_eq_some {t r : Text} :
    listValue ('[' :: t) = some r ↔
      ∃ qs, closingList 1 (pieces inert t) = some qs ∧ textOf qs = r := by
  have hfirst := nested_listValue.whole_open t
  rw [listValue, listValueAt_eq, nested_listValue.nestedAt_eq le_rfl, counted_char hfirst (by decide),
    counted_eq_closingList (by decide)]
  exact Option.map_eq_some_iff

end Lexeme

open Lexeme Scan

/-- aggregates whose plain characters are those of the class -/
def Lexeme.aggregateOver (plain : Char → Bool) : Scan := fun t =>
  nestedAt (fun _ => inert) '{' '}' plain t.length t

/-- An opening brace that is passed on the way to the end of an aggregate begins one itself. -/
theorem exists_aggregate_of_suffix {t : Text} {qs rs : List Piece}
    (h : closing '{' '}' 1 (pieces inert t) = some qs) (hrs : .char '{' :: rs <:+ pieces inert t)
    (hqs : qs.length ≤ rs.length) : ∃ r, aggregate ('{' :: textOf rs) = some r := by
  obtain ⟨m, hm, hclosing⟩ :=
    exists_closing_of_suffix Int.one_pos h hrs (Nat.lt_succ_of_le hqs)
  obtain ⟨ps, hps⟩ := exists_closing_one hm hclosing
  refine ⟨textOf ps, aggregate_eq_some.2 ⟨ps, ?_, rfl⟩⟩
  rw [consumes_inert.pieces_of_suffix ((List.suffix_cons ..).trans hrs), hps]

/-- **An aggregate is found by counting braces in one pass.**  It makes no difference whether an
opening brace may be taken for a plain character: wherever one stands in an aggregate, outside of
strings and comments, an aggregate begins.  The braces outside of strings and comments are balanced. -/
theorem aggregate_counts (t : Text) :
    aggregate ('{' :: t) = counted inert '{' '}' 0 ('{' :: t) ∧
    aggregate ('{' :: t) = aggregateOver (fun x => x != '{' && x != '}') ('{' :: t) ∧
    ∀ r, aggregate ('{' :: t) = some r → ∃ u, '{' :: t = u ++ r ∧
      (∀ ps qs, pieces inert u = ps ++ .char '{' :: qs →
        ∃ s, aggregate ('{' :: (textOf qs ++ r)) = some s) ∧
      Balanced '{' '}' (outside (pieces inert u)) := by
  refine ⟨aggregate_eq t, ?_, fun r hr => ?_⟩
  · rw [aggregate_eq, aggregateOver]
    exact ((nested_aggregate rfl (by simp_all)).nestedAt_eq le_rfl).symm
  · obtain ⟨rs, hclosing, rfl⟩ := aggregate_eq_some.1 hr
    obtain ⟨us, hus, hbalanced⟩ := balanced_of_closing (by decide) hclosing
    have hpieces : pieces inert ('{' :: t) = (.char '{' :: us) ++ rs := by
      rw [pieces_char (inert_of_not_starts rfl (by decide)), hus, List.cons_append]
    have hcut : pieces inert (textOf (.char '{' :: us)) = .char '{' :: us :=
      consumes_inert.pieces_of_prefix local_inert hpieces
    refine ⟨textOf (.char '{' :: us), ?_, fun ps qs hqs => ?_, ?_⟩
    · rw [← textOf_append, ← hpieces, consumes_inert.textOf_pieces]
    · rw [hcut] at hqs
      rw [← textOf_append]
      cases ps with
      | nil =>
        obtain ⟨-, rfl⟩ := List.cons.inj hqs
        rw [← hus, consumes_inert.textOf_pieces]
        exact ⟨_, hr⟩
      | cons p ps =>
        obtain ⟨-, rfl⟩ := List.cons.inj hqs
        exact exists_aggregate_of_suffix hclosing ⟨ps, by rw [hus]; simp⟩ (by simp)
    · rw [hcut]
      exact hbalanced

theorem aggregate_counts_quoted :
    aggregate "\x7b\"\x7d\"\x7b\x7d\x7d;".toList = some [';'] ∧
      ∃ u, "\x7b\"\x7d\"\x7b\x7d\x7d;".toList = u ++ [';'] ∧
        (∀ ps qs, pieces inert u = ps ++ .char '{' :: qs →
          ∃ s, aggregate ('{' :: (textOf qs ++ [';'])) = some s) ∧
        Balanced '{' '}' (outside (pieces inert u)) :=
  have h : aggregate "\x7b\"\x7d\"\x7b\x7d\x7d;".toList = some [';'] := by decide +kernel
  ⟨h, (aggregate_counts "\"\x7d\"\x7b\x7d\x7d;".toList).2.2 [';'] h⟩

end ProtoDocs
