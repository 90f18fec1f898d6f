import ProtoDocs.Grammar.File

/-!
# Reading goes forward

Whatever is read off a text leaves a suffix of it, and all but a few readers take at least one
character.  For lexemes this is stated piece by piece; for readers it is found by instance search.

* `Lexeme.consumes_keyword` and its neighbours   every lexeme takes something;
* `Reader.Leaves`      the reader leaves a suffix;
* `Reader.Consumes`    the reader also takes something.

The instances follow the definitions of the readers.  Of the readers of blocks they ask that the
reader of the inner body takes something.
-/

namespace ProtoDocs

/-! ## lexemes -/

namespace Lexeme
open Scan

theorem leaves_pastQuote (q : Char) : (pastQuote q).Leaves := by
  intro t
  induction t using pastQuote.induct (q := q) with
  | case1 => intro r h; simp [pastQuote] at h
  | case2 c t ih =>
    intro r h
    rw [pastQuote] at h
    exact (ih r h).trans ⟨['\\', c], rfl⟩
  | case3 t hesc =>
    intro r h
    rw [pastQuote] at h
    · rw [if_pos rfl] at h
      cases h
      exact List.suffix_cons q t
    · exact hesc
  | case4 c t hesc hq hend =>
    intro r h
    rw [pastQuote, if_neg hq, if_pos hend] at h
    · simp at h
    · exact hesc
  | case5 c t hesc hq hend ih =>
    intro r h
    rw [pastQuote, if_neg hq, if_neg hend] at h
    · exact (ih r h).trans (List.suffix_cons c t)
    · exact hesc

theorem consumes_stringLit : stringLit.Consumes := by
  intro t r h
  cases t with
  | nil => simp [stringLit] at h
  | cons q t =>
    simp only [stringLit] at h
    split at h
    · have hs := leaves_pastQuote q t r h
      exact ⟨hs.trans (List.suffix_cons q t), Nat.lt_succ_of_le hs.length_le⟩
    · simp at h

theorem consumes_ident : ident.Consumes :=
  (consumes_char _).seq (leaves_run _)

theorem consumes_fullIdent : fullIdent.Consumes :=
  consumes_ident.seq ((consumes_char _).seq consumes_ident.leaves).leaves.many

theorem consumes_typeRef : typeRef.Consumes :=
  (consumes_char _).leaves.opt.seq_consumes consumes_fullIdent

theorem consumes_optionNamePart : optionNamePart.Consumes :=
  ((consumes_char _).seq ((consumes_char _).leaves.opt.seq
    (consumes_fullIdent.seq (consumes_char _).leaves).leaves)).or consumes_ident

theorem consumes_optionName : optionName.Consumes :=
  consumes_optionNamePart.seq ((consumes_char _).seq consumes_optionNamePart.leaves).leaves.many

theorem consumes_wholeWord {w : Text} (hw : w ≠ []) : (wholeWord w).Consumes :=
  (consumes_word hw).seq (leaves_some.butNot _)

theorem consumes_keyword (k : Keyword) : (keyword k).Consumes :=
  consumes_wholeWord (by cases k <;> decide)

theorem consumes_label : label.Consumes :=
  (consumes_wholeWord (by decide)).or
    ((consumes_wholeWord (by decide)).or (consumes_wholeWord (by decide)))

theorem consumes_stream : stream.Consumes := consumes_wholeWord (by decide)

theorem consumes_importModifier : importModifier.Consumes :=
  (consumes_wholeWord (by decide)).or (consumes_wholeWord (by decide))

theorem consumes_intLit : intLit.Consumes :=
  (((consumes_word (by decide)).or (consumes_word (by decide))).seq
    (consumes_run1 _).leaves).or (consumes_run1 _)

theorem consumes_enumNumber : enumNumber.Consumes :=
  (consumes_char _).leaves.opt.seq_consumes consumes_intLit

theorem consumes_exponent : exponent.Consumes :=
  (consumes_char _).seq ((consumes_char _).leaves.opt.seq (consumes_run1 _).leaves)

theorem consumes_floatLit : floatLit.Consumes :=
  ((leaves_run _).seq_consumes
    ((consumes_char _).seq ((consumes_run1 _).leaves.seq consumes_exponent.leaves.opt))).or
  (((consumes_run1 _).seq ((consumes_char _).leaves.seq consumes_exponent.leaves.opt)).or
    ((consumes_run1 _).seq consumes_exponent.leaves))

theorem consumes_aggregateAt (depth : Nat) : (aggregateAt depth).Consumes := by
  induction depth with
  | zero => intro t r h; simp [aggregateAt] at h
  | succ depth ih =>
    have hitem := consumes_stringLit.or (consumes_comment.or (ih.or (consumes_char (· != '}'))))
    exact (consumes_char _).seq (hitem.leaves.many.seq (consumes_char _).leaves)

theorem consumes_listValueAt (depth : Nat) : (listValueAt depth).Consumes := by
  induction depth with
  | zero => intro t r h; simp [listValueAt] at h
  | succ depth ih =>
    have hitem := consumes_stringLit.or (consumes_comment.or
      ((consumes_aggregateAt depth).or (ih.or (consumes_char (· != ']')))))
    exact (consumes_char _).seq (hitem.leaves.many.seq (consumes_char _).leaves)

theorem consumes_constant : constant.Consumes := by
  have hagg : aggregate.Consumes := fun t r h => consumes_aggregateAt t.length t r h
  have hlist : listValue.Consumes := fun t r h => consumes_listValueAt t.length t r h
  have hstrings := consumes_stringLit.seq ((leaves_run isSpace).seq consumes_stringLit.leaves).many
  have hsign := (consumes_char isSign).leaves.opt
  exact hagg.or (hlist.or (hstrings.or ((hsign.seq_consumes
    (consumes_floatLit.or consumes_intLit)).or (hsign.seq_consumes consumes_fullIdent))))

theorem consumes_rangeBody : rangeBody.Consumes := by
  have hitem := consumes_stringLit.or (consumes_char (· != ';'))
  exact hitem.seq hitem.leaves.many

end Lexeme

/-! ## readers -/

namespace Reader

variable {α β : Type}

/-- the reader leaves a suffix of its text -/
class Leaves (p : Reader α) : Prop where
  suffix : ∀ {t a r}, (p t).result = some (a, r) → r <:+ t

/-- the reader takes at least one character off its text -/
class Consumes (p : Reader α) : Prop extends Leaves p where
  shorter : ∀ {t a r}, (p t).result = some (a, r) → r.length < t.length

theorem bind_eq_some {p : Reader α} {f : α → Reader β} {t : Text} {x : β × Text} :
    ((p >>= f) t).result = some x ↔
      ∃ a u, (p t).result = some (a, u) ∧ (f a u).result = some x := by
  rw [result_bind, Option.bind_eq_some_iff]
  constructor
  · rintro ⟨⟨a, u⟩, hp, hf⟩
    exact ⟨a, u, hp, hf⟩
  · rintro ⟨a, u, hp, hf⟩
    exact ⟨(a, u), hp, hf⟩

theorem orElse_eq_some {p q : Reader α} {t : Text} {x : α × Text} :
    (orElse p q t).result = some x ↔
      (p t).result = some x ∨ (p t).result = none ∧ (q t).result = some x := by
  rw [result_orElse, Option.or_eq_some_iff]

theorem token_eq_some {s : Symbol} {p : Scan} (hp : p.Leaves) {t x r : Text} :
    (token s p t).result = some (x, r) ↔ t = x ++ r ∧ p (x ++ r) = some r := by
  rw [result_token, Option.map_eq_some_iff]
  constructor
  · rintro ⟨u, hu, he⟩
    obtain ⟨w, rfl⟩ := hp t u hu
    cases he
    rw [Text.upTo_append]
    exact ⟨rfl, hu⟩
  · rintro ⟨rfl, h⟩
    exact ⟨r, h, by rw [Text.upTo_append]⟩

instance (a : α) : Leaves (Pure.pure a : Reader α) where
  suffix h := by
    cases h
    exact List.suffix_rfl

instance : Consumes (fail : Reader α) where
  suffix h := by simp [fail] at h
  shorter h := by simp [fail] at h

instance (priority := high) (p : Reader α) (f : α → Reader β) [Leaves p] [∀ a, Leaves (f a)] :
    Leaves (p >>= f) where
  suffix h := by
    obtain ⟨a, u, hp, hf⟩ := bind_eq_some.1 h
    exact (Leaves.suffix hf).trans (Leaves.suffix hp)

instance (priority := high) (p : Reader α) (f : α → Reader β) [Consumes p] [∀ a, Leaves (f a)] :
    Consumes (p >>= f) where
  shorter h := by
    obtain ⟨a, u, hp, hf⟩ := bind_eq_some.1 h
    exact Nat.lt_of_le_of_lt (Leaves.suffix hf).length_le (Consumes.shorter hp)

instance (p : Reader α) (f : α → Reader β) [Leaves p] [∀ a, Consumes (f a)] :
    Consumes (p >>= f) where
  shorter h := by
    obtain ⟨a, u, hp, hf⟩ := bind_eq_some.1 h
    exact Nat.lt_of_lt_of_le (Consumes.shorter hf) (Leaves.suffix hp).length_le

instance (p q : Reader α) [Leaves p] [Leaves q] : Leaves (orElse p q) where
  suffix h := by
    rcases orElse_eq_some.1 h with h | ⟨_, h⟩
    · exact Leaves.suffix h
    · exact Leaves.suffix h

instance (p q : Reader α) [Consumes p] [Consumes q] : Consumes (orElse p q) where
  shorter h := by
    rcases orElse_eq_some.1 h with h | ⟨_, h⟩
    · exact Consumes.shorter h
    · exact Consumes.shorter h

instance : Consumes (oneOf ([] : List (Reader α))) := inferInstanceAs (Consumes fail)

instance (p : Reader α) (ps : List (Reader α)) [Consumes p] [Consumes (oneOf ps)] :
    Consumes (oneOf (p :: ps)) :=
  inferInstanceAs (Consumes (orElse p (oneOf ps)))

instance (p : Reader α) [Leaves p] : Leaves (optional p) := by
  unfold optional
  infer_instance

theorem repeated_suffix (p : Reader α) [Leaves p] (t : Text) : (repeated p t).1.2 <:+ t := by
  fun_induction repeated p t with
  | case1 t tried h => exact List.suffix_rfl
  | case2 t tried a r h hlt as s more heq ih =>
    rw [heq] at ih
    exact ih.trans (Leaves.suffix (p := p) (by rw [h]))
  | case3 t tried a r h hlt => exact List.suffix_rfl

instance (p : Reader α) [Leaves p] : Leaves (many p) where
  suffix h := by
    simp only [many, Option.some.injEq] at h
    have := repeated_suffix p
    grind

instance (s : Symbol) (p : Reader α) [Leaves p] : Leaves (named s p) where
  suffix h := Leaves.suffix (by rwa [result_named] at h)

instance (s : Symbol) (p : Reader α) [Consumes p] : Consumes (named s p) where
  shorter h := Consumes.shorter (by rwa [result_named] at h)

theorem consumes_token (s : Symbol) {p : Scan} (hp : p.Consumes) : Consumes (token s p) where
  suffix h := by
    rw [result_token] at h
    obtain ⟨r, hr, he⟩ := Option.map_eq_some_iff.1 h
    cases he
    exact (hp _ _ hr).1
  shorter h := by
    rw [result_token] at h
    obtain ⟨r, hr, he⟩ := Option.map_eq_some_iff.1 h
    cases he
    exact (hp _ _ hr).2

theorem mark_eq_some {c : Char} {t : Text} {x : Unit × Text} :
    (mark c t).result = some x ↔ t = c :: x.2 := by
  obtain ⟨u, r⟩ := x
  cases t with
  | nil => simp [mark, Scan.char]
  | cons d t => by_cases h : d = c <;> simp [mark, Scan.char, h]

instance (c : Char) : Consumes (mark c) where
  suffix h := by
    rw [mark_eq_some.1 h]
    exact List.suffix_cons _ _
  shorter h := by
    rw [mark_eq_some.1 h]
    exact Nat.lt_succ_self _

instance : Leaves endOfInput where
  suffix h := by
    unfold endOfInput at h
    split at h
    · cases h
      exact List.suffix_rfl
    · simp at h

theorem skip_suffix (t : Text) : (skip t).2 <:+ t := by
  have hspace (t : Text) : Lexeme.pastSpace t <:+ t := List.dropWhile_suffix _
  fun_induction skip t with
  | case1 t h => exact hspace t
  | case2 t r h comments u heq ih =>
    rw [heq] at ih
    exact ih.trans ((Lexeme.consumes_comment _ _ h).1.trans (hspace t))

instance : Leaves gap where
  suffix h := by
    cases h
    exact skip_suffix _

instance (p : Reader α) [Leaves p] : Leaves (next p) := by
  unfold next
  infer_instance

instance (p : Reader α) [Consumes p] : Consumes (next p) := by
  unfold next
  infer_instance

@[simp] theorem result_next (p : Reader α) (t : Text) :
    (next p t).result = (p (skip t).2).result := by
  rw [next, result_bind]
  rfl

/-! ### tokens and statements -/

instance (k : Keyword) : Consumes (token (.keyword k) (Lexeme.keyword k)) :=
  consumes_token _ (Lexeme.consumes_keyword k)

instance : Consumes (token .stringLit Lexeme.stringLit) :=
  consumes_token _ Lexeme.consumes_stringLit

instance : Consumes (token .fullIdent Lexeme.fullIdent) :=
  consumes_token _ Lexeme.consumes_fullIdent

instance : Consumes (token .typeRef Lexeme.typeRef) := consumes_token _ Lexeme.consumes_typeRef

instance : Consumes (token .label Lexeme.label) := consumes_token _ Lexeme.consumes_label

instance : Consumes (token .stream Lexeme.stream) := consumes_token _ Lexeme.consumes_stream

instance : Consumes (token .importModifier Lexeme.importModifier) :=
  consumes_token _ Lexeme.consumes_importModifier

instance : Consumes (token .fieldNumber Lexeme.fieldNumber) :=
  consumes_token _ Lexeme.consumes_intLit

instance : Consumes (token .enumNumber Lexeme.enumNumber) :=
  consumes_token _ Lexeme.consumes_enumNumber

instance : Consumes (token .rangeBody Lexeme.rangeBody) :=
  consumes_token _ Lexeme.consumes_rangeBody

instance : Consumes (token .optionName Lexeme.optionName) :=
  consumes_token _ Lexeme.consumes_optionName

instance : Consumes (token .constant Lexeme.constant) :=
  consumes_token _ Lexeme.consumes_constant

instance : Consumes ident := consumes_token _ Lexeme.consumes_ident

instance (k : Keyword) : Consumes (keyword k) := by unfold keyword; infer_instance

instance : Consumes string := by unfold string; infer_instance

instance : Consumes typeRef := by unfold typeRef; infer_instance

instance : Consumes label := by unfold label; infer_instance

instance : Consumes importModifier := by unfold importModifier; infer_instance

instance : Consumes fieldNumber := by unfold fieldNumber; infer_instance

instance : Consumes enumNumber := by unfold enumNumber; infer_instance

instance : Consumes ranges := by unfold ranges; infer_instance

instance : Consumes assignment := by unfold assignment; infer_instance

instance : Consumes fieldOption := by unfold fieldOption; infer_instance

instance : Consumes fieldOptions := by unfold fieldOptions; infer_instance

instance : Leaves memberOptions := by unfold memberOptions; infer_instance

instance : Consumes setting := by unfold setting; infer_instance

instance : Consumes language := by unfold language; infer_instance

instance : Consumes edition := by unfold edition; infer_instance

instance : Consumes package := by unfold package; infer_instance

instance : Consumes importing := by unfold importing; infer_instance

instance : Consumes field := by unfold field; infer_instance

set_option synthInstance.maxSize 200 in
instance : Consumes mapField := by unfold mapField; infer_instance

instance : Consumes enumValue := by unfold enumValue; infer_instance

instance : Consumes reserved := by unfold reserved; infer_instance

instance : Consumes extensions := by unfold extensions; infer_instance

/-! ### blocks -/

instance (p : Reader Statement) [Consumes p] : Consumes (ofStatement p) := by
  unfold ofStatement
  infer_instance

instance (p : Reader Element) [Consumes p] : Consumes (ofBlock p) := by
  unfold ofBlock
  infer_instance

instance : Consumes emptyStatement := by unfold emptyStatement; infer_instance

section
variable (item : ItemReader)

instance [Consumes item] : Consumes (commentedItem item) := by unfold commentedItem; infer_instance

instance [Consumes item] : Leaves (items item) := by unfold items; infer_instance

instance (s : Symbol) [Consumes item] : Consumes (body s item) := by unfold body; infer_instance

end

instance : Consumes enum := by unfold enum; infer_instance

instance : Consumes side := by unfold side; infer_instance

instance : Consumes sideInParens := by unfold sideInParens; infer_instance

instance : Consumes methodBody := by unfold methodBody; infer_instance

instance : Consumes method := by unfold method; infer_instance

instance : Consumes service := by unfold service; infer_instance

section
variable (inner : Reader (List Element)) [Consumes inner]

instance : Consumes (message inner) := by unfold message; infer_instance

instance : Consumes (group inner) := by unfold group; infer_instance

instance : Consumes (oneof inner) := by unfold oneof; infer_instance

instance : Consumes (extend inner) := by unfold extend; infer_instance

instance : Consumes (messageItem inner) := by unfold messageItem; infer_instance

instance : Consumes (fileItem inner) := by unfold fileItem; infer_instance

end

instance (depth : Nat) : Consumes (messageBody depth) := by
  induction depth with
  | zero => exact inferInstanceAs (Consumes fail)
  | succ depth ih =>
    exact inferInstanceAs (Consumes (body .messageBody (messageItem (messageBody depth))))

end Reader
end ProtoDocs
