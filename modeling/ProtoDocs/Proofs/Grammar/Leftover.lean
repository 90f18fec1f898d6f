import ProtoDocs.Proofs.Grammar.Items
import ProtoDocs.Proofs.Grammar.Phrase

/-!
# What readers leave

A reader without its value is a recogniser: it is known by what it leaves.  Readers that are put
together leave what the recognisers of their parts leave, put together in the same way.

* `Scan.seq_assoc` and its neighbours   the laws of combinations, `Scan.unlike` among them;
* `Lexeme.gap`                   blanks and comments, `many_gap_seq` for what is repeated after them;
* `Reader.left`                  what a reader leaves;
* `Reader.Leaving p q`           the reader `p` leaves what `q` leaves, found by instance search.
-/

namespace ProtoDocs

/-! ## laws of combinations -/

namespace Scan

@[simp] theorem seq_nil (p : Scan) : p.seq nil = p := funext fun t => Option.bind_fun_some (p t)

@[simp] theorem seq_assoc (p q r : Scan) : (p.seq q).seq r = p.seq (q.seq r) :=
  funext fun t => Option.bind_assoc (p t) q r

@[simp] theorem or_nil (p : Scan) : p.or nil = opt p := by
  funext t
  simp only [Scan.or, opt]
  cases p t <;> rfl

@[simp] theorem many_char (p : Char → Bool) : many (char p) = run p := by
  funext t
  refine congrArg some ?_
  induction t with
  | nil => exact rest_of_none rfl
  | cons c t ih =>
    by_cases hc : p c = true
    · have hone : char p (c :: t) = some t := if_pos hc
      rw [rest_of_shorter hone (Nat.lt_succ_self _), ih, List.dropWhile_cons_of_pos hc]
    · have hone : char p (c :: t) = none := if_neg hc
      rw [rest_of_none hone, List.dropWhile_cons_of_neg hc]

def unlike (q : Scan) : Scan := (butNot q nil).seq (char fun _ => true)

theorem unlike_of_some {q : Scan} {t u : Text} (h : q t = some u) : unlike q t = none :=
  seq_of_none (by simp [butNot, h]) _

theorem unlike_of_none {q : Scan} {c : Char} {t : Text} (h : q (c :: t) = none) :
    unlike q (c :: t) = some t :=
  seq_of_some (r := c :: t) (by simp [butNot, h, nil]) _

theorem isSome_char (p : Char → Bool) (t : Text) : (char p t).isSome = t.starts p := by
  cases t with
  | nil => rfl
  | cons c t => by_cases hc : p c <;> simp [char, hc]

/-- Where `q` finds something just if a character of a class stands there, any character where it
finds nothing is one of the others. -/
theorem unlike_eq_char {q : Scan} {p : Char → Bool} (h : ∀ t, (q t).isSome = t.starts p) :
    unlike q = char fun c => !p c := by
  funext t
  have ht := h t
  cases t with
  | nil =>
    have hq : q [] = none := Option.isSome_eq_false_iff.1 ht |> Option.isNone_iff_eq_none.1
    exact seq_of_some (r := []) (by simp [butNot, hq, nil]) _
  | cons c t =>
    rw [Text.starts_cons] at ht
    cases hq : q (c :: t) with
    | none =>
      rw [unlike_of_none hq]
      simp_all [char]
    | some u =>
      rw [unlike_of_some hq]
      simp_all [char]

@[simp] theorem unlike_char (p : Char → Bool) : unlike (char p) = char fun c => !p c :=
  unlike_eq_char (isSome_char p)

theorem word_eq_none {w t : Text} (h : ∀ r, t ≠ w ++ r) : word w t = none :=
  Option.eq_none_iff_forall_ne_some.2 fun r hr => h r (word_eq_some.1 hr)

/-- Of two words that do not begin alike, at most one is there. -/
theorem word_of_word {v w : Text} (hv : ¬ v <+: w) (hw : ¬ w <+: v) {t u : Text}
    (h : word v t = some u) : word w t = none := by
  refine word_eq_none fun r hr => ?_
  have hvt : v <+: t := ⟨u, (word_eq_some.1 h).symm⟩
  have hwt : w <+: t := ⟨r, hr.symm⟩
  exact (List.prefix_or_prefix_of_prefix hvt hwt).elim hv hw

/-- If the second choice is never there with the first one, it makes no difference whether the
choice is made with what follows or without. -/
theorem or_seq {p q : Scan} (h : ∀ t u, p t = some u → q t = none) (r : Scan) :
    (p.or q).seq r = (p.seq r).or (q.seq r) := by
  funext t
  cases hp : p t with
  | none =>
    have hor : (p.or q) t = q t := or_of_none hp q
    rw [or_of_none (seq_of_none hp r)]
    exact congrArg (·.bind r) hor
  | some u =>
    rw [seq_of_some (or_of_some hp q)]
    simp only [Scan.or, seq_of_some hp, seq_of_none (h t u hp), Option.or_none]

/-- Repetitions are alike on texts on which the repeated pieces are. -/
theorem rest_congr {p q : Scan} (hp : p.Leaves) {t : Text} (h : ∀ u, u <:+ t → p u = q u) :
    rest p t = rest q t := by
  fun_induction rest p t with
  | case1 t hnone => rw [rest_of_none ((h t List.suffix_rfl).symm.trans hnone)]
  | case2 t r hr hlt ih =>
    rw [ih fun u hu => h u (hu.trans (hp t r hr))]
    exact (rest_of_shorter ((h t List.suffix_rfl).symm.trans hr) hlt).symm
  | case3 t r hr hlt =>
    rw [rest, ← h t List.suffix_rfl, hr]
    exact (if_neg hlt).symm

end Scan

/-! ## gaps -/

namespace Lexeme

open Scan
open Reader (skip skip_suffix)

def gap : Scan := fun t => some (skip t).2

theorem leaves_gap : gap.Leaves := by
  intro t r h
  cases h
  exact skip_suffix t

/-- A gap is blanks, and then comments with blanks behind each. -/
theorem gap_eq : gap = (run isSpace).seq (many (comment.seq (run isSpace))) := by
  funext t
  show some (skip t).2 = some (rest (comment.seq (run isSpace)) (pastSpace t))
  refine congrArg some ?_
  fun_induction skip t with
  | case1 t hnone => exact (rest_of_none (seq_of_none hnone _)).symm
  | case2 t r hr comments u heq ih =>
    rw [heq] at ih
    have hone : comment.seq (run isSpace) (pastSpace t) = some (pastSpace r) := seq_of_some hr _
    have hlt : (pastSpace r).length < (pastSpace t).length :=
      Nat.lt_of_le_of_lt (List.dropWhile_suffix _).length_le (consumes_comment _ _ hr).2
    rw [rest_of_shorter hone hlt]
    exact ih

/-- In front of a gap, a repetition with gaps in front of its pieces is one with gaps between
them. -/
theorem many_gap_seq {p : Scan} (hp : p.Consumes) (q : Scan) :
    (many (gap.seq p)).seq (gap.seq q) = gap.seq ((spaced gap p).seq (gap.seq q)) := by
  funext t
  have hagain : gap (skip t).2 = some (skip t).2 := by
    rw [gap, skip_of_firm (firm_skip t)]
  have hstart (r : Scan) : gap.seq r t = r (skip t).2 := seq_of_some rfl r
  rw [hstart]
  cases hone : p (skip t).2 with
  | none =>
    have hspaced : spaced gap p (skip t).2 = some (skip t).2 := or_of_none (seq_of_none hone _) _
    have hmany : many (gap.seq p) t = some t :=
      congrArg some (rest_of_none ((hstart p).trans hone))
    rw [seq_of_some hspaced, seq_of_some hagain, seq_of_some hmany, hstart]
  | some u =>
    have hlt : u.length < t.length :=
      Nat.lt_of_lt_of_le (hp _ _ hone).2 (skip_suffix t).length_le
    have hbehind : p.seq (many (gap.seq p)) (skip t).2 = some (rest (gap.seq p) u) :=
      seq_of_some hone _
    have hspaced : spaced gap p (skip t).2 = some (rest (gap.seq p) u) := or_of_some hbehind _
    have hmany : many (gap.seq p) t = some (rest (gap.seq p) u) :=
      congrArg some (rest_of_shorter ((hstart p).trans hone) hlt)
    rw [seq_of_some hspaced, seq_of_some hmany]

end Lexeme

/-! ## readers -/

namespace Reader

variable {α β : Type}

def left (p : Reader α) : Scan := fun t => (p t).result.map Prod.snd

/-- the reader leaves what the recogniser leaves -/
class Leaving (p : Reader α) (q : outParam Scan) : Prop where
  left_eq : p.left = q

instance (priority := low) (p : Reader α) : Leaving p p.left := ⟨rfl⟩

instance (a : α) : Leaving (Pure.pure a : Reader α) Scan.nil := ⟨rfl⟩

instance (p : Reader α) (f : α → Reader β) (q r : Scan) [hp : Leaving p q]
    [hf : ∀ a, Leaving (f a) r] : Leaving (p >>= f) (q.seq r) where
  left_eq := by
    funext t
    rw [← hp.left_eq, left, result_bind]
    simp only [Scan.seq, left]
    cases (p t).result with
    | none => rfl
    | some x => exact congrFun (hf x.1).left_eq x.2

instance (p q : Reader α) (r s : Scan) [hp : Leaving p r] [hq : Leaving q s] :
    Leaving (orElse p q) (r.or s) where
  left_eq := by
    funext t
    rw [← hp.left_eq, ← hq.left_eq, left, result_orElse, Option.map_or]
    rfl

instance (p : Reader α) (r : Scan) [hp : Leaving p r] : Leaving (oneOf [p]) r where
  left_eq := by
    funext t
    rw [← hp.left_eq, left, oneOf, List.foldr_cons, List.foldr_nil, result_orElse]
    exact congrArg _ Option.or_none

instance (p q : Reader α) (ps : List (Reader α)) (r s : Scan) [hp : Leaving p r]
    [hq : Leaving (oneOf (q :: ps)) s] : Leaving (oneOf (p :: q :: ps)) (r.or s) :=
  inferInstanceAs (Leaving (orElse p (oneOf (q :: ps))) _)

instance (p : Reader α) (r : Scan) [hp : Leaving p r] : Leaving (optional p) (r.or Scan.nil) where
  left_eq := by
    rw [optional, Leaving.left_eq (p := orElse _ _), Scan.seq_nil]

instance (p : Reader α) (r : Scan) [hp : Leaving p r] : Leaving (many p) (Scan.many r) where
  left_eq := by
    funext t
    refine congrArg some ?_
    show (repeated p t).1.2 = Scan.rest r t
    fun_induction repeated p t with
    | case1 t tried h => rw [Scan.rest_of_none (by rw [← hp.left_eq, left, h]; rfl)]
    | case2 t a u tried h hlt as s more heq ih =>
      rw [Scan.rest_of_shorter (by rw [← hp.left_eq, left, h]; rfl) hlt, ← ih, heq]
    | case3 t a u tried h hlt =>
      rw [Scan.rest, show r t = some u by rw [← hp.left_eq, left, h]; rfl]
      exact (if_neg hlt).symm

instance (s : Symbol) (p : Reader α) (r : Scan) [hp : Leaving p r] : Leaving (named s p) r where
  left_eq := by
    funext t
    rw [left, result_named, ← hp.left_eq, left]

instance (s : Symbol) (p : Scan) : Leaving (token s p) p where
  left_eq := by
    funext t
    rw [left, result_token]
    cases p t <;> rfl

instance (c : Char) : Leaving (mark c) (Scan.char (· == c)) where
  left_eq := by
    funext t
    rw [left, mark]
    cases Scan.char (· == c) t <;> rfl

instance (p : Reader α) (r : Scan) [hp : Leaving p r] : Leaving (next p) (Lexeme.gap.seq r) where
  left_eq := by
    funext t
    rw [left, result_next, ← hp.left_eq]
    rfl

/-! ### tokens and statements -/

theorem Leaving.of_seq_nil {p : Reader α} {q : Scan} [h : Leaving p (q.seq Scan.nil)] :
    Leaving p q := ⟨h.left_eq.trans (Scan.seq_nil q)⟩

instance (k : Keyword) : Leaving (keyword k) (Lexeme.keyword k) := by
  unfold keyword
  exact .of_seq_nil

instance : Leaving ident Lexeme.ident := by unfold ident; infer_instance

instance : Leaving string Lexeme.stringLit := by unfold string; exact .of_seq_nil

instance : Leaving typeRef Lexeme.typeRef := by unfold typeRef; exact .of_seq_nil

instance : Leaving label Lexeme.label := by unfold label; exact .of_seq_nil

instance : Leaving importModifier Lexeme.importModifier := by
  unfold importModifier
  exact .of_seq_nil

instance : Leaving fieldNumber Lexeme.fieldNumber := by unfold fieldNumber; exact .of_seq_nil

instance : Leaving enumNumber Lexeme.enumNumber := by unfold enumNumber; exact .of_seq_nil

instance : Leaving ranges Lexeme.rangeBody := by unfold ranges; exact .of_seq_nil

instance : Leaving assignment (Lexeme.optionName.seq
    (Lexeme.gap.seq ((Scan.char (· == '=')).seq (Lexeme.gap.seq Lexeme.constant)))) where
  left_eq := by
    unfold assignment
    rw [Leaving.left_eq (p := _ >>= _), Scan.seq_nil, Scan.seq_assoc]

instance : Leaving memberOptions (fieldOptions.left.or Scan.nil) := by
  unfold memberOptions
  exact .of_seq_nil

instance : Leaving sideInParens ((Scan.char (· == '(')).seq
    (Lexeme.gap.seq (side.left.seq (Lexeme.gap.seq (Scan.char (· == ')')))))) where
  left_eq := by
    unfold sideInParens
    rw [Leaving.left_eq (p := _ >>= _), Scan.seq_nil, Scan.seq_assoc]

instance (p : Reader Statement) (q : Scan) [Leaving p q] : Leaving (ofStatement p) q := by
  unfold ofStatement
  exact .of_seq_nil

instance (p : Reader Element) (q : Scan) [Leaving p q] : Leaving (ofBlock p) q := by
  unfold ofBlock
  exact .of_seq_nil

instance : Leaving emptyStatement (Scan.char (· == ';')) := by
  unfold emptyStatement
  exact .of_seq_nil

instance : Leaving gap Lexeme.gap := ⟨rfl⟩

theorem Consumes.left {p : Reader α} [Consumes p] : p.left.Consumes := by
  intro t r h
  obtain ⟨x, hx, rfl⟩ := Option.map_eq_some_iff.1 h
  exact ⟨Leaves.suffix hx, Consumes.shorter hx⟩

instance (item : ItemReader) [Consumes item] :
    Leaving (items item) ((Scan.many (Lexeme.gap.seq item.left)).seq Lexeme.gap) where
  left_eq := by
    unfold items commentedItem
    rw [Leaving.left_eq (p := _ >>= _), Scan.seq_nil, Scan.seq_nil]

/-- Items between braces are a repetition with gaps between its pieces. -/
theorem left_body (s : Symbol) (item : ItemReader) [Consumes item] :
    (body s item).left = (Scan.char (· == '{')).seq (Lexeme.gap.seq
      ((Scan.spaced Lexeme.gap item.left).seq (Lexeme.gap.seq (Scan.char (· == '}'))))) := by
  unfold body
  rw [Leaving.left_eq (p := named _ _), Scan.seq_nil, Scan.seq_assoc,
    Lexeme.many_gap_seq Consumes.left]

end Reader
end ProtoDocs
