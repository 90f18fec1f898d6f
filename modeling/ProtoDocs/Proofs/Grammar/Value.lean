import ProtoDocs.Proofs.Grammar.Word

/-!
# Numbers, option values and ranges

What the lexemes of numbers, of option values and of ranges look like, and that the recognisers take
them off a text as a whole.  A number ends where neither a character of a name nor a dot follows.

* `IsNatural`, `IsInteger`   decimal digits, or hexadecimal ones after `0x`, perhaps with a minus;
* `IsFloat`                  digits with a point, an exponent or both;
* `IsConstant`               strings, a number or a dotted name, the last two perhaps with a sign;
* `RangeText`                strings and other text without semicolon.
-/

namespace ProtoDocs

open Lexeme Scan

/-! ## integers -/

def IsDigits (u : Text) : Prop := u ≠ [] ∧ ∀ x ∈ u, x.isDigit = true

def IsHex (u : Text) : Prop :=
  ∃ x v, u = '0' :: x :: v ∧ (x = 'x' ∨ x = 'X') ∧ v ≠ [] ∧ ∀ c ∈ v, isHexDigit c = true

def IsNatural (u : Text) : Prop := IsDigits u ∨ IsHex u

def IsInteger (u : Text) : Prop := IsNatural u ∨ ∃ v, u = '-' :: v ∧ IsNatural v

theorem isIdentChar_of_isDigit {c : Char} (h : c.isDigit) : isIdentChar c := by
  simp [isIdentChar, Char.isAlphanum, h]

theorem isIdentChar_of_isHexDigit {c : Char} (h : isHexDigit c) : isIdentChar c := by
  simp only [isHexDigit, Bool.or_eq_true, Bool.and_eq_true, decide_eq_true_eq] at h
  rcases h with (h | ⟨h₁, h₂⟩) | ⟨h₁, h₂⟩
  · exact isIdentChar_of_isDigit h
  · have : c.isLower = true := by
      simp only [Char.isLower, Bool.and_eq_true, decide_eq_true_eq]
      exact ⟨h₁, UInt32.le_trans h₂ (by decide)⟩
    simp [isIdentChar, Char.isAlphanum, Char.isAlpha, this]
  · have : c.isUpper = true := by
      simp only [Char.isUpper, decide_eq_true_eq]
      exact ⟨h₁, UInt32.le_trans h₂ (by decide)⟩
    simp [isIdentChar, Char.isAlphanum, Char.isAlpha, this]

theorem run1_digits {u r : Text} (hu : IsDigits u) (hr : r.starts Char.isDigit = false) :
    run1 Char.isDigit (u ++ r) = some r :=
  run1_eq_some_iff.2 ⟨u, hu.1, hu.2, rfl, hr⟩

theorem IsDigits.starts {u : Text} (hu : IsDigits u) : u.starts Char.isDigit = true := by
  obtain ⟨hne, hall⟩ := hu
  cases u with
  | nil => exact absurd rfl hne
  | cons c u => exact hall c List.mem_cons_self

theorem IsHex.intLit_append {u r : Text} (hu : IsHex u) (hr : r.starts isIdentChar = false) :
    intLit (u ++ r) = some r := by
  obtain ⟨x, v, rfl, hx, hne, hv⟩ := hu
  have hend : r.starts isHexDigit = false :=
    Text.not_starts_mono (fun _ => isIdentChar_of_isHexDigit) hr
  have hdigits : run1 isHexDigit (v ++ r) = some r := run1_eq_some_iff.2 ⟨v, hne, hv, rfl, hend⟩
  refine or_of_some ?_ _
  rcases hx with rfl | rfl
  · exact (seq_of_some (or_of_some (word_eq_some.2 rfl) _) _).trans hdigits
  · exact (seq_of_some ((or_of_none rfl _).trans (word_eq_some.2 rfl)) _).trans hdigits

theorem IsDigits.intLit_append {u r : Text} (hu : IsDigits u) (hr : r.starts isIdentChar = false) :
    intLit (u ++ r) = some r := by
  -- the second character of `0x` is no digit and does not follow the number either
  have hword (x : Char) (hx : x.isDigit = false) (hx' : isIdentChar x = true) :
      word ['0', x] (u ++ r) = none := by
    rw [Option.eq_none_iff_forall_ne_some]
    intro s hs
    have heq := word_eq_some.1 hs
    match u, hu with
    | [c], _ =>
      simp only [List.cons_append, List.nil_append, List.cons.injEq] at heq
      rw [heq.2] at hr
      simp [hx'] at hr
    | c :: d :: u, hu =>
      simp only [List.cons_append, List.nil_append, List.cons.injEq] at heq
      have hd := hu.2 d (by simp)
      rw [heq.2.1, hx] at hd
      simp at hd
  have hnone : ((word "0x".toList).or (word "0X".toList)) (u ++ r) = none :=
    (or_of_none (hword 'x' rfl rfl) _).trans (hword 'X' rfl rfl)
  rw [intLit, or_of_none (seq_of_none hnone _)]
  exact run1_digits hu (Text.not_starts_mono (fun _ => isIdentChar_of_isDigit) hr)

theorem intLit_append {u r : Text} (hu : IsNatural u) (hr : r.starts isIdentChar = false) :
    intLit (u ++ r) = some r :=
  hu.elim (fun h => h.intLit_append hr) (fun h => h.intLit_append hr)

theorem IsNatural.starts {u : Text} (hu : IsNatural u) : u.starts Char.isDigit = true := by
  rcases hu with hu | ⟨x, v, rfl, _⟩
  · exact hu.starts
  · rfl

theorem IsNatural.ends {u : Text} (hu : IsNatural u) : u.ends isIdentChar = true := by
  rcases hu with ⟨hne, hall⟩ | ⟨x, v, rfl, hx, hne, hv⟩
  · exact ends_of_all hne fun x hx => isIdentChar_of_isDigit (hall x hx)
  · rw [show ('0' :: x :: v : Text) = ['0', x] ++ v from rfl, Text.ends_append _ hne]
    exact ends_of_all hne fun x hx => isIdentChar_of_isHexDigit (hv x hx)

theorem enumNumber_append {u r : Text} (hu : IsInteger u) (hr : r.starts isIdentChar = false) :
    enumNumber (u ++ r) = some r := by
  rcases hu with hu | ⟨v, rfl, hv⟩
  · have hminus : (u ++ r).starts (· == '-') = false :=
      Text.not_starts_of_starts (fun c hc => beq_false_of_class rfl hc)
        (Text.starts_append_of hu.starts r)
    exact (seq_of_some (opt_char_of_not_starts hminus) _).trans (intLit_append hu hr)
  · exact (seq_of_some (opt_char_cons rfl _) _).trans (intLit_append hv hr)

theorem intLit_eq_some {t r : Text} (h : intLit t = some r) : ∃ n, IsNatural n ∧ t = n ++ r := by
  rcases Option.or_eq_some_iff.1 h with h | ⟨-, h⟩
  · obtain ⟨u, hu, h⟩ := seq_eq_some_iff.1 h
    obtain ⟨d, hne, hd, rfl, -⟩ := run1_eq_some_iff.1 h
    rcases Option.or_eq_some_iff.1 hu with hu | ⟨-, hu⟩
    · rw [word_eq_some.1 hu]
      exact ⟨'0' :: 'x' :: d, .inr ⟨'x', d, rfl, .inl rfl, hne, hd⟩, rfl⟩
    · rw [word_eq_some.1 hu]
      exact ⟨'0' :: 'X' :: d, .inr ⟨'X', d, rfl, .inr rfl, hne, hd⟩, rfl⟩
  · obtain ⟨d, hne, hd, rfl, -⟩ := run1_eq_some_iff.1 h
    exact ⟨d, .inl ⟨hne, hd⟩, rfl⟩

theorem enumNumber_eq_some {t r : Text} (h : enumNumber t = some r) :
    ∃ n, IsInteger n ∧ t = n ++ r := by
  obtain ⟨u, hu, h⟩ := seq_eq_some_iff.1 h
  obtain ⟨n, hn, rfl⟩ := intLit_eq_some h
  cases hminus : char (· == '-') t with
  | none =>
    rw [opt, hminus] at hu
    cases hu
    exact ⟨n, .inl hn, rfl⟩
  | some v =>
    rw [opt, hminus] at hu
    cases hu
    obtain ⟨c, hc, rfl⟩ := char_eq_some_iff.1 hminus
    obtain rfl : c = '-' := by simpa using hc
    exact ⟨'-' :: n, .inr ⟨n, rfl, hn⟩, rfl⟩

/-! ## numbers with a point or an exponent -/

def IsSignText (u : Text) : Prop := u = [] ∨ ∃ c, u = [c] ∧ isSign c = true

def IsExponent (u : Text) : Prop :=
  ∃ (e : Char) (s d : Text), u = e :: (s ++ d) ∧ (e == 'e' || e == 'E') = true ∧
    IsSignText s ∧ IsDigits d

def IsFloat (u : Text) : Prop :=
  (∃ n d x : Text, u = n ++ '.' :: (d ++ x) ∧ (∀ c ∈ n, c.isDigit = true) ∧ IsDigits d ∧
    (x = [] ∨ IsExponent x)) ∨
  (∃ n x : Text, u = n ++ '.' :: x ∧ IsDigits n ∧ (x = [] ∨ IsExponent x)) ∨
  (∃ n x : Text, u = n ++ x ∧ IsDigits n ∧ IsExponent x)

/-- what a number could go on with -/
def isNumberChar (c : Char) : Bool := isIdentChar c || c == '.'

theorem IsExponent.starts {x : Text} (hx : IsExponent x) :
    x.starts (fun c => c == 'e' || c == 'E') = true := by
  obtain ⟨e, s, d, rfl, he, _⟩ := hx
  exact he

theorem opt_sign_append {s t : Text} (hs : IsSignText s) (ht : t.starts isSign = false) :
    opt (char isSign) (s ++ t) = some t := by
  rcases hs with rfl | ⟨c, rfl, hc⟩
  · exact opt_char_of_not_starts ht
  · exact opt_char_cons hc t

theorem not_isSign_of_isDigit {c : Char} (h : c.isDigit) : isSign c = false := by
  rw [isSign, beq_false_of_class (d := '+') rfl h, beq_false_of_class (d := '-') rfl h]
  rfl

theorem not_isDigit_of_isIdentStart {c : Char} (h : isIdentStart c) : c.isDigit = false := by
  rw [Bool.eq_false_iff]
  intro hd
  simp only [isIdentStart, Char.isAlpha, Char.isUpper, Char.isLower, Bool.or_eq_true,
    Bool.and_eq_true, decide_eq_true_eq, beq_iff_eq, ge_iff_le, UInt32.le_iff_toNat_le] at h
  simp only [Char.isDigit, Bool.and_eq_true, decide_eq_true_eq, ge_iff_le,
    UInt32.le_iff_toNat_le] at hd
  rcases h with h | rfl
  · have h9 : '9'.val.toNat = 57 := rfl
    have hA : 'A'.val.toNat = 65 := rfl
    have ha : 'a'.val.toNat = 97 := rfl
    omega
  · exact absurd hd (by decide)

section
variable {r : Text}

theorem not_starts_digit (hr : r.starts isNumberChar = false) : r.starts Char.isDigit = false :=
  Text.not_starts_mono (fun c hc => by simp [isNumberChar, isIdentChar_of_isDigit hc]) hr

theorem not_starts_dot (hr : r.starts isNumberChar = false) : r.starts (· == '.') = false :=
  Text.not_starts_mono (fun c hc => by simp_all [isNumberChar]) hr

theorem not_starts_e (hr : r.starts isNumberChar = false) :
    r.starts (fun c => c == 'e' || c == 'E') = false := by
  refine Text.not_starts_mono (fun c hc => ?_) hr
  rw [Bool.or_eq_true, beq_iff_eq, beq_iff_eq] at hc
  rcases hc with rfl | rfl <;> rfl

theorem exponent_append {x : Text} (hx : IsExponent x) (hr : r.starts Char.isDigit = false) :
    exponent (x ++ r) = some r := by
  obtain ⟨e, s, d, rfl, he, hs, hd⟩ := hx
  have hsign : (d ++ r).starts isSign = false :=
    Text.not_starts_of_starts (fun _ => not_isSign_of_isDigit) (Text.starts_append_of hd.starts r)
  rw [exponent, List.cons_append, seq_of_some (char_eq_some_iff.2 ⟨e, he, rfl⟩),
    List.append_assoc, seq_of_some (opt_sign_append hs hsign)]
  exact run1_digits hd hr

theorem opt_exponent_append {x : Text} (hx : x = [] ∨ IsExponent x)
    (hr : r.starts isNumberChar = false) : opt exponent (x ++ r) = some r := by
  rcases hx with rfl | hx
  · rw [List.nil_append, opt, exponent, seq_of_none (char_of_not_starts (not_starts_e hr))]
    rfl
  · rw [opt, exponent_append hx (not_starts_digit hr)]
    rfl

/-- Digits with neither a point nor an exponent after them are no such number. -/
theorem floatLit_eq_none {n t : Text} (hn : ∀ c ∈ n, c.isDigit = true)
    (hdigit : t.starts Char.isDigit = false) (hdot : t.starts (· == '.') = false)
    (he : n = [] ∨ t.starts (fun c => c == 'e' || c == 'E') = false) :
    floatLit (n ++ t) = none := by
  have hpoint (q : Scan) : (char (· == '.')).seq q t = none :=
    seq_of_none (char_of_not_starts hdot) q
  rw [floatLit, or_of_none ((seq_of_some (run_append hn hdigit) _).trans (hpoint _))]
  by_cases hnil : n = []
  · subst hnil
    have hrun : run1 Char.isDigit t = none := run1_of_not_starts hdigit
    exact (or_of_none (seq_of_none hrun _) _).trans (seq_of_none hrun _)
  · have hrun := run1_digits ⟨hnil, hn⟩ hdigit
    rw [or_of_none ((seq_of_some hrun _).trans (hpoint _)), seq_of_some hrun]
    exact seq_of_none (char_of_not_starts (he.resolve_left hnil)) _

theorem floatLit_append {u : Text} (hu : IsFloat u) (hr : r.starts isNumberChar = false) :
    floatLit (u ++ r) = some r := by
  have hexp {x : Text} (hx : IsExponent x) (p : Char → Bool) (hp : p 'e' = false ∧ p 'E' = false) :
      (x ++ r).starts p = false := by
    refine Text.not_starts_of_starts (fun c hc => ?_) (Text.starts_append_of hx.starts r)
    rw [Bool.or_eq_true, beq_iff_eq, beq_iff_eq] at hc
    rcases hc with rfl | rfl
    exacts [hp.1, hp.2]
  have hdot {n : Text} (hn : ∀ c ∈ n, c.isDigit = true) (t : Text) (q : Scan) :
      (run Char.isDigit).seq ((char (· == '.')).seq q) (n ++ '.' :: t) = q t :=
    (seq_of_some (run_append hn rfl) _).trans (seq_of_some rfl _)
  rcases hu with ⟨n, d, x, rfl, hn, hd, hx⟩ | ⟨n, x, rfl, hn, hx⟩ | ⟨n, x, rfl, hn, hx⟩
  · have hdigit : (x ++ r).starts Char.isDigit = false :=
      hx.elim (fun h => h ▸ not_starts_digit hr) (hexp · Char.isDigit ⟨rfl, rfl⟩)
    rw [floatLit, List.append_assoc, List.cons_append, List.append_assoc]
    refine or_of_some ((hdot hn _ _).trans ?_) _
    exact (seq_of_some (run1_digits hd hdigit) _).trans (opt_exponent_append hx hr)
  · have hdigit : (x ++ r).starts Char.isDigit = false :=
      hx.elim (fun h => h ▸ not_starts_digit hr) (hexp · Char.isDigit ⟨rfl, rfl⟩)
    rw [floatLit, List.append_assoc, List.cons_append,
      or_of_none ((hdot hn.2 _ _).trans (seq_of_none (run1_of_not_starts hdigit) _))]
    refine or_of_some ?_ _
    rw [seq_of_some (run1_digits hn rfl), seq_of_some (p := char _) (r := x ++ r) rfl]
    exact opt_exponent_append hx hr
  · have hdigit : (x ++ r).starts Char.isDigit = false := hexp hx _ ⟨rfl, rfl⟩
    have hpoint (q : Scan) : (char (· == '.')).seq q (x ++ r) = none :=
      seq_of_none (char_of_not_starts (hexp hx _ ⟨rfl, rfl⟩)) q
    have hrun := run1_digits hn hdigit
    rw [floatLit, List.append_assoc,
      or_of_none ((seq_of_some (run_append hn.2 hdigit) _).trans (hpoint _)),
      or_of_none ((seq_of_some hrun _).trans (hpoint _)), seq_of_some hrun]
    exact exponent_append hx (not_starts_digit hr)

/-- A number of either form is read as a whole. -/
theorem number_append {u : Text} (hu : IsFloat u ∨ IsNatural u)
    (hr : r.starts isNumberChar = false) : (floatLit.or intLit) (u ++ r) = some r := by
  have hident : r.starts isIdentChar = false :=
    Text.not_starts_mono (fun c hc => by simp [isNumberChar, hc]) hr
  rcases hu with hu | hu
  · exact or_of_some (floatLit_append hu hr) _
  · rw [or_of_none, intLit_append hu hident]
    rcases hu with ⟨_, hall⟩ | ⟨x, v, rfl, hx, _⟩
    · exact floatLit_eq_none hall (not_starts_digit hr) (not_starts_dot hr) (.inr (not_starts_e hr))
    · rw [show '0' :: x :: v ++ r = ['0'] ++ (x :: v ++ r) from rfl]
      rcases hx with rfl | rfl <;> exact floatLit_eq_none (by simp) rfl rfl (.inr rfl)

end

/-! ## values of options -/

/-- string literals in a row, with blanks between them -/
inductive IsStrings : Text → Prop
  | one {u : Text} : IsString u → IsStrings u
  | cons {u s v : Text} : IsString u → (∀ c ∈ s, isSpace c = true) → IsStrings v →
      IsStrings (u ++ (s ++ v))

def IsConstant (u : Text) : Prop :=
  IsStrings u ∨
    ∃ s v, u = s ++ v ∧ IsSignText s ∧ ((IsFloat v ∨ IsNatural v) ∨ IsFullIdent v)

theorem IsString.starts {u : Text} (hu : IsString u) : u.starts isQuote = true := by
  obtain ⟨q, t, rfl, hq, _⟩ := hu
  exact hq

theorem IsStrings.starts {u : Text} (hu : IsStrings u) : u.starts isQuote = true := by
  cases hu with
  | one hu => exact hu.starts
  | cons hu _ _ => exact Text.starts_append_of hu.starts _

theorem IsFloat.starts {u : Text} (hu : IsFloat u) :
    u.starts (fun c => c.isDigit || c == '.') = true := by
  have hdigits {n : Text} (hn : IsDigits n) (t : Text) :
      (n ++ t).starts (fun c => c.isDigit || c == '.') = true := by
    refine Text.starts_append_of ?_ t
    obtain ⟨c, n, rfl⟩ := List.exists_cons_of_ne_nil hn.1
    simp [hn.2 c List.mem_cons_self]
  rcases hu with ⟨n, d, x, rfl, hn, _⟩ | ⟨n, x, rfl, hn, _⟩ | ⟨n, x, rfl, hn, _⟩
  · cases n with
    | nil => rfl
    | cons c n => simp [hn c List.mem_cons_self]
  · exact hdigits hn _
  · exact hdigits hn _

theorem stringLit_of_not_starts {t : Text} (h : t.starts isQuote = false) : stringLit t = none := by
  cases t with
  | nil => rfl
  | cons c t =>
    rw [Text.starts_cons] at h
    simp [stringLit, h]

theorem aggregate_of_not_starts {t : Text} (h : t.starts (· == '{') = false) :
    aggregate t = none := by
  unfold aggregate
  cases t.length with
  | zero => rfl
  | succ n => exact seq_of_none (char_of_not_starts h) _

theorem listValue_of_not_starts {t : Text} (h : t.starts (· == '[') = false) :
    listValue t = none := by
  unfold listValue
  cases t.length with
  | zero => rfl
  | succ n => exact seq_of_none (char_of_not_starts h) _

theorem strings_append {u r : Text} (hu : IsStrings u) (hr : (pastSpace r).starts isQuote = false) :
    (stringLit.seq (many ((run isSpace).seq stringLit))) (u ++ r) = some r := by
  induction hu with
  | @one u hu =>
    have hnone : (run isSpace).seq stringLit r = none :=
      (seq_of_some rfl _).trans (stringLit_of_not_starts hr)
    rw [seq_of_some (stringLit_eq_some_iff.2 ⟨u, hu, rfl⟩), many, rest_of_none hnone]
  | @cons u s v hu hs hv ih =>
    obtain ⟨w, hw, hwr⟩ := seq_eq_some_iff.1 ih
    have hspace : (v ++ r).starts isSpace = false :=
      Text.not_starts_of_starts (fun _ => not_of_isQuote (by decide))
        (Text.starts_append_of hv.starts r)
    have hmore : (run isSpace).seq stringLit (s ++ (v ++ r)) = some w :=
      (seq_of_some (run_append hs hspace) _).trans hw
    rw [List.append_assoc, List.append_assoc,
      seq_of_some (stringLit_eq_some_iff.2 ⟨u, hu, rfl⟩), many,
      rest_of_some ((leaves_run _).seq_consumes consumes_stringLit) hmore]
    exact hwr

theorem number_of_identStart {t : Text} (h : t.starts isIdentStart = true) :
    (floatLit.or intLit) t = none := by
  have hdigit : t.starts Char.isDigit = false :=
    Text.not_starts_of_starts (fun _ => not_isDigit_of_isIdentStart) h
  have hdot : t.starts (· == '.') = false :=
    Text.not_starts_of_starts (fun c hc => beq_false_of_class rfl hc) h
  have hword (x : Char) : word ['0', x] t = none := by
    rw [Option.eq_none_iff_forall_ne_some]
    intro s hs
    rw [word_eq_some.1 hs] at hdigit
    simp at hdigit
  have hnone : ((word "0x".toList).or (word "0X".toList)) t = none :=
    (or_of_none (hword 'x') _).trans (hword 'X')
  have hfloat : floatLit t = none :=
    floatLit_eq_none (n := []) (by simp) hdigit hdot (.inl rfl)
  rw [or_of_none hfloat, intLit, or_of_none (seq_of_none hnone _)]
  exact run1_of_not_starts hdigit

/-- what a number or a name without sign begins with -/
def isPlainStart (c : Char) : Bool := c.isDigit || c == '.' || isIdentStart c

theorem plain_starts {v : Text} (hv : (IsFloat v ∨ IsNatural v) ∨ IsFullIdent v) :
    v.starts isPlainStart = true := by
  rcases hv with (hv | hv) | hv
  · exact Text.starts_mono (fun c hc => by simp_all [isPlainStart]) hv.starts
  · exact Text.starts_mono (fun c hc => by simp_all [isPlainStart]) hv.starts
  · exact Text.starts_mono (fun c hc => by simp_all [isPlainStart]) hv.starts

theorem not_isSign_of_isPlainStart {c : Char} (h : isPlainStart c) : isSign c = false := by
  rw [isSign, beq_false_of_class (d := '+') rfl h, beq_false_of_class (d := '-') rfl h]
  rfl

/-- Bracketed text does not begin like other values. -/
theorem not_bracketed {p : Char → Bool} (hp : p '{' = false ∧ p '[' = false) {t : Text}
    (ht : t.starts p = true) (q : Scan) : (aggregate.or (listValue.or q)) t = q t := by
  rw [or_of_none (aggregate_of_not_starts _), or_of_none (listValue_of_not_starts _)]
  · exact Text.not_starts_of_starts (fun c hc => beq_false_of_class hp.2 hc) ht
  · exact Text.not_starts_of_starts (fun c hc => beq_false_of_class hp.1 hc) ht

/-- A number or a name, perhaps with a sign, is read as a whole where no number goes on. -/
theorem constant_append_plain {s v r : Text} (hs : IsSignText s)
    (hv : (IsFloat v ∨ IsNatural v) ∨ IsFullIdent v) (hr : r.starts isNumberChar = false) :
    constant (s ++ (v ++ r)) = some r := by
  have hv' : (v ++ r).starts isPlainStart = true := Text.starts_append_of (plain_starts hv) r
  have hsv : (s ++ (v ++ r)).starts (fun c => isSign c || isPlainStart c) = true := by
    rcases hs with rfl | ⟨c, rfl, hc⟩
    · exact Text.starts_mono (fun c hc => by simp [hc]) hv'
    · simp [hc]
  have hsign : opt (char isSign) (s ++ (v ++ r)) = some (v ++ r) :=
    opt_sign_append hs (Text.not_starts_of_starts (fun _ => not_isSign_of_isPlainStart) hv')
  have hquotes : (s ++ (v ++ r)).starts isQuote = false := by
    refine Text.not_starts_of_starts (fun c hc => ?_) hsv
    rw [isQuote, Bool.or_eq_false_iff]
    constructor <;>
      exact beq_false_of_class (p := fun c => isSign c || isPlainStart c) rfl hc
  rw [constant, not_bracketed ⟨rfl, rfl⟩ hsv,
    or_of_none (seq_of_none (stringLit_of_not_starts hquotes) _)]
  rcases hv with hv | hv
  · exact or_of_some ((seq_of_some hsign _).trans (number_append hv hr)) _
  · have hstart : (v ++ r).starts isIdentStart = true := Text.starts_append_of hv.starts r
    have hclear : Clear v r := clear_of_not_starts
      (Text.not_starts_mono (fun c hc => by simp [isNumberChar, hc]) hr)
    rw [or_of_none ((seq_of_some hsign _).trans (number_of_identStart hstart)),
      seq_of_some hsign]
    exact fullIdent_append hv hclear (not_starts_dot hr)

/-- The value of an option is read as a whole where neither a number nor a string goes on. -/
theorem constant_append {u r : Text} (hu : IsConstant u) (hr : r.starts isNumberChar = false)
    (hquote : (pastSpace r).starts isQuote = false) : constant (u ++ r) = some r := by
  rcases hu with hu | ⟨s, v, rfl, hs, hv⟩
  · rw [constant, not_bracketed ⟨rfl, rfl⟩ (Text.starts_append_of hu.starts r)]
    exact or_of_some (strings_append hu hquote) _
  · rw [List.append_assoc]
    exact constant_append_plain hs hv hr

/-! ## ranges -/

/-- string literals and other characters without quotes and semicolons -/
inductive RangeText : Text → Prop
  | nil : RangeText []
  | string {u t : Text} : IsString u → RangeText t → RangeText (u ++ t)
  | char {c : Char} {t : Text} : c ≠ ';' → isQuote c = false → RangeText t → RangeText (c :: t)

theorem rangeBody_append {u : Text} (hu : RangeText u) (hne : u ≠ []) (r : Text) :
    rangeBody (u ++ ';' :: r) = some (';' :: r) := by
  let item := stringLit.or (char (· != ';'))
  have hconsumes : item.Consumes := consumes_stringLit.or (consumes_char _)
  have hstring {u : Text} (hu : IsString u) (t : Text) : item (u ++ t) = some t :=
    or_of_some (stringLit_eq_some_iff.2 ⟨u, hu, rfl⟩) _
  have hchar {c : Char} (hc : c ≠ ';') (hq : isQuote c = false) (t : Text) :
      item (c :: t) = some t := by
    have hnone : stringLit (c :: t) = none := stringLit_of_not_starts hq
    have hc' : char (· != ';') (c :: t) = some t := by simp [char, hc]
    exact (or_of_none hnone _).trans hc'
  have hrest {t : Text} (ht : RangeText t) : rest item (t ++ ';' :: r) = ';' :: r := by
    induction ht with
    | nil => exact rest_of_none rfl
    | string hu _ ih => rw [List.append_assoc, rest_of_some hconsumes (hstring hu _), ih]
    | char hc hq _ ih => rw [List.cons_append, rest_of_some hconsumes (hchar hc hq _), ih]
  show item.seq (many item) (u ++ ';' :: r) = some (';' :: r)
  cases hu with
  | nil => exact absurd rfl hne
  | string hu ht =>
    rw [List.append_assoc, seq_of_some (hstring hu _), many, hrest ht]
  | char hc hq ht =>
    rw [List.cons_append, seq_of_some (hchar hc hq _), many, hrest ht]

end ProtoDocs
