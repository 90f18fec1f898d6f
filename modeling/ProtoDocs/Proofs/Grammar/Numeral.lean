import ProtoDocs.Grammar.Number
import ProtoDocs.Proofs.Grammar.Value

/-!
# What integer texts denote

A row of digits is worth the sum of its digits, each times a power of the base.  Words of 64 bits
work this out digit by digit, and fail exactly if the sum does not fit in a word: no digit that
comes later makes it smaller.

* `worth`               what a row of digits is worth;
* `value?`              the integer that a text denotes;
* `exactOrZero`         an integer that counts only if it is in range;
* `digitsFrom?_eq`      digits worked out in words, and what they are worth;
* `toInt_integer`       the word of an integer text, and `toInt_neg_magnitude` for its minus;
* `Slot`                where a number stands, and `Slot.number_eq` for what is stored there;
* `spellings`           an integer in each of the bases, and `value?_of_mem` for what they denote.
-/

namespace ProtoDocs.Number

open Lexeme

/-! ## what is denoted -/

/-- what a digit is worth, in either case -/
def digitWorth (c : Char) : Nat := "0123456789abcdef".toList.idxOf c.toLower

/-- what a row of digits is worth: the last digit counts once, and each digit in front of another
one counts `base` times as much as that -/
def worth (base : Nat) (u : Text) : Nat := Nat.ofDigits base (u.reverse.map digitWorth)

/-- the natural number that a text denotes: hexadecimal behind `0x`, octal behind another zero, and
decimal otherwise; octal texts have no digits past 7 -/
def natural? : Text → Option Nat
  | '0' :: 'x' :: u => some (worth 16 u)
  | '0' :: 'X' :: u => some (worth 16 u)
  | '0' :: c :: u => if '8' ∈ c :: u ∨ '9' ∈ c :: u then none else some (worth 8 (c :: u))
  | u => some (worth 10 u)

def value? : Text → Option Int
  | '-' :: u => (natural? u).map fun n : Nat => -(n : Int)
  | u => (natural? u).map fun n : Nat => (n : Int)

def FitsWord (v : Int) : Prop := v.natAbs ≤ 0x7FFFFFFFFFFFFFFF

/-- where a number stands: behind the name of a field or of an enum value -/
inductive Slot
  | field | enumValue

/-- the numbers that the slot can hold: 32 bits without sign for fields, and with it for enum
values -/
def Slot.Holds : Slot → Int → Prop
  | .field, v => 0 ≤ v ∧ v < 0x100000000
  | .enumValue, v => -0x80000000 ≤ v ∧ v < 0x80000000

instance : DecidablePred FitsWord := fun v => inferInstanceAs (Decidable (v.natAbs ≤ _))

instance (s : Slot) : DecidablePred s.Holds := fun _ =>
  match s with
  | .field => inferInstanceAs (Decidable (_ ∧ _))
  | .enumValue => inferInstanceAs (Decidable (_ ∧ _))

def Slot.lexeme : Slot → Scan
  | .field => Lexeme.fieldNumber
  | .enumValue => Lexeme.enumNumber

def Slot.number : Slot → Text → Int
  | .field, t => Number.fieldNumber t
  | .enumValue, t => Number.enumNumber t

def exactOrZero (inRange : Int → Prop) [DecidablePred inRange] : Option Int → Int
  | some v => if inRange v then v else 0
  | none => 0

theorem fitsWord_neg {v : Int} : FitsWord (-v) ↔ FitsWord v := by
  rw [FitsWord, FitsWord, Int.natAbs_neg]

theorem exactOrZero_some {inRange : Int → Prop} [DecidablePred inRange] (v : Int) :
    exactOrZero inRange (some v) = if inRange v then v else 0 := rfl

/-! ## digits -/

theorem digitValue?_hex {c : Char} (h : isHexDigit c) : digitValue? 16 c = some (digitWorth c) := by
  have hall : ∀ n < 0x80, isHexDigit (Char.ofNat n) →
      digitValue? 16 (Char.ofNat n) = some (digitWorth (Char.ofNat n)) := by decide +kernel
  exact forall_ascii (P := fun c => isHexDigit c → digitValue? 16 c = some (digitWorth c)) hall
    (isIdentChar_ascii (isIdentChar_of_isHexDigit h)) h

theorem digitValue?_decimal {c : Char} (h : c.isDigit) : digitValue? 10 c = some (digitWorth c) := by
  have hall : ∀ n < 0x80, (Char.ofNat n).isDigit →
      digitValue? 10 (Char.ofNat n) = some (digitWorth (Char.ofNat n)) := by decide +kernel
  exact forall_ascii (P := fun c => c.isDigit → digitValue? 10 c = some (digitWorth c)) hall
    (isIdentChar_ascii (isIdentChar_of_isDigit h)) h

theorem digitValue?_octal {c : Char} (h : c.isDigit) :
    digitValue? 8 c = if c = '8' ∨ c = '9' then none else some (digitWorth c) := by
  have hall : ∀ n < 0x80, (Char.ofNat n).isDigit → digitValue? 8 (Char.ofNat n) =
      if Char.ofNat n = '8' ∨ Char.ofNat n = '9' then none
      else some (digitWorth (Char.ofNat n)) := by decide +kernel
  exact forall_ascii (P := fun c => c.isDigit → digitValue? 8 c =
    if c = '8' ∨ c = '9' then none else some (digitWorth c)) hall
    (isIdentChar_ascii (isIdentChar_of_isDigit h)) h

theorem worth_nil (base : Nat) : worth base [] = 0 := rfl

theorem worth_cons (base : Nat) (c : Char) (u : Text) :
    worth base (c :: u) = digitWorth c * base ^ u.length + worth base u := by
  rw [worth, worth, List.reverse_cons, List.map_append, Nat.ofDigits_append, List.length_map,
    List.length_reverse, List.map_singleton, Nat.ofDigits_singleton]
  ring

theorem worth_concat (base : Nat) (u : Text) (c : Char) :
    worth base (u ++ [c]) = worth base u * base + digitWorth c := by
  rw [worth, worth, List.reverse_concat, List.map_cons, Nat.ofDigits_cons]
  ring

/-! ## words -/

theorem word?_eq_some {v : Int} {w : Int64} : word? v = some w ↔ w.toInt = v := by
  have hlow := w.le_toInt
  have hhigh := w.toInt_lt
  unfold word?
  constructor
  · intro h
    split at h
    · obtain rfl := Option.some.inj h
      exact Int64.toInt_ofInt_of_le (by omega) (by omega)
    · cases h
  · rintro rfl
    rw [if_pos (by omega), Int64.ofInt_toInt]

theorem word?_eq_none_of_le {a b : Int} (h : word? a = none) (ha : 0 ≤ a) (hab : a ≤ b) :
    word? b = none := by
  unfold word? at h ⊢
  split at h
  · cases h
  · rw [if_neg (by omega)]

theorem toInt_word? {n : Nat} :
    ((word? n).getD 0).toInt = exactOrZero FitsWord (some (n : Int)) := by
  rw [word?, exactOrZero_some]
  by_cases h : (n : Int) < 0x8000000000000000
  · have hfits : FitsWord n := by
      show (n : Int).natAbs ≤ _
      omega
    rw [if_pos (by omega), if_pos hfits]
    exact Int64.toInt_ofInt_of_le (by omega) (by omega)
  · have hfits : ¬ FitsWord n := by
      show ¬ (n : Int).natAbs ≤ _
      omega
    rw [if_neg (by omega), if_neg hfits]
    rfl

/-- Digits of the base, behind others, come to what all of them are worth, or do not fit. -/
theorem digitsFrom?_eq {base : Nat} (hbase : 0 < base) {u : Text}
    (hu : ∀ c ∈ u, digitValue? base c = some (digitWorth c)) {n : Int64} (hn : 0 ≤ n.toInt) :
    digitsFrom? base false n u = word? (n.toInt * base ^ u.length + worth base u) := by
  induction u generalizing n with
  | nil =>
    rw [digitsFrom?, worth_nil]
    exact (word?_eq_some.2 (by simp)).symm
  | cons c u ih =>
    rw [List.forall_mem_cons] at hu
    have hsum : n.toInt * base ^ (c :: u).length + worth base (c :: u) =
        (n.toInt * base + digitWorth c) * base ^ u.length + worth base u := by
      rw [worth_cons, List.length_cons]
      push_cast
      ring
    have hshift : 0 ≤ n.toInt * base := Int.mul_nonneg hn (Int.natCast_nonneg _)
    have hpow : (1 : Int) ≤ base ^ u.length := by exact_mod_cast Nat.pow_pos hbase
    have hstep : n.toInt * base + digitWorth c ≤
        n.toInt * base ^ (c :: u).length + worth base (c :: u) := by
      rw [hsum]
      nlinarith
    rw [digitsFrom?, hu.1]
    -- no digit makes less of the number: if a step does not fit, the whole does not either
    cases hshifted : word? (n.toInt * base) with
    | none => exact (word?_eq_none_of_le hshifted hshift (by omega)).symm
    | some shifted =>
      have hs := word?_eq_some.1 hshifted
      have hs0 : 0 ≤ shifted.toInt + digitWorth c := by omega
      show (word? (shifted.toInt + digitWorth c)).bind _ = _
      cases hm : word? (shifted.toInt + digitWorth c) with
      | none => exact (word?_eq_none_of_le hm hs0 (by omega)).symm
      | some m =>
        have hm' := word?_eq_some.1 hm
        show digitsFrom? base false m u = _
        rw [ih hu.2 (by omega), hm', hs, hsum]

theorem digitsFrom?_eq_none {base : Nat} {negative : Bool} {n : Int64} {u : Text} {c : Char}
    (hc : c ∈ u) (hnone : digitValue? base c = none) : digitsFrom? base negative n u = none := by
  induction u generalizing n with
  | nil => cases hc
  | cons d u ih =>
    simp only [digitsFrom?, Option.bind_eq_bind, Option.bind_eq_none_iff]
    intro shifted _ v hv m _
    rcases List.mem_cons.1 hc with rfl | hc
    · rw [hnone] at hv
      cases hv
    · exact ih hc

theorem digits?_of_not_sign {base : Nat} {u : Text} (hne : u ≠ []) (hsign : u.starts isSign = false) :
    digits? base u = digitsFrom? base false 0 u := by
  obtain ⟨c, u, rfl⟩ := List.exists_cons_of_ne_nil hne
  have hminus : c ≠ '-' := by
    rintro rfl
    cases hsign
  have hplus : c ≠ '+' := by
    rintro rfl
    cases hsign
  simp [digits?, hminus, hplus]

/-- Digits of the base come to what they are worth, if that fits. -/
theorem digits?_eq {base : Nat} (hbase : 0 < base) {u : Text} (hne : u ≠ [])
    (hsign : u.starts isSign = false) (hu : ∀ c ∈ u, digitValue? base c = some (digitWorth c)) :
    digits? base u = word? (worth base u) := by
  rw [digits?_of_not_sign hne hsign, digitsFrom?_eq hbase hu (by decide)]
  simp

/-! ## integer texts -/

theorem digits_not_sign {u : Text} (hu : u.starts Char.isDigit = true) : u.starts isSign = false :=
  Text.not_starts_of_starts (fun _ => not_isSign_of_isDigit) hu

theorem digits?_decimal {u : Text} (hu : IsDigits u) : digits? 10 u = word? (worth 10 u) :=
  digits?_eq (by decide) hu.1 (digits_not_sign hu.starts) fun c hc => digitValue?_decimal (hu.2 c hc)

theorem digits?_hex {u : Text} (hne : u ≠ []) (hu : ∀ c ∈ u, isHexDigit c = true) :
    digits? 16 u = word? (worth 16 u) := by
  have hsign : u.starts isSign = false := by
    obtain ⟨c, u, rfl⟩ := List.exists_cons_of_ne_nil hne
    have hc : isIdentChar c = true := isIdentChar_of_isHexDigit (hu c List.mem_cons_self)
    rw [Text.starts_cons, isSign, beq_false_of_class (d := '+') rfl hc,
      beq_false_of_class (d := '-') rfl hc]
    rfl
  exact digits?_eq (by decide) hne hsign fun c hc => digitValue?_hex (hu c hc)

theorem digits?_octal {u : Text} (hu : IsDigits u) :
    digits? 8 u = if '8' ∈ u ∨ '9' ∈ u then none else word? (worth 8 u) := by
  have hsign := digits_not_sign hu.starts
  by_cases h : '8' ∈ u ∨ '9' ∈ u
  · rw [if_pos h, digits?_of_not_sign hu.1 hsign]
    rcases h with h | h
    · exact digitsFrom?_eq_none h (digitValue?_octal (hu.2 _ h))
    · exact digitsFrom?_eq_none h (digitValue?_octal (hu.2 _ h))
  · rw [if_neg h]
    refine digits?_eq (by decide) hu.1 hsign fun c hc => ?_
    rw [digitValue?_octal (hu.2 c hc), if_neg]
    rintro (rfl | rfl)
    · exact h (.inl hc)
    · exact h (.inr hc)

/-- The three ways in which a natural number is written. -/
theorem natural_cases {u : Text} (hu : IsNatural u) :
    IsHex u ∨ (∃ c v, u = '0' :: c :: v ∧ IsDigits (c :: v)) ∨
      (IsDigits u ∧ ∀ c v, u ≠ '0' :: c :: v) := by
  rcases hu with hu | hu
  · by_cases h : ∃ c v, u = '0' :: c :: v
    · obtain ⟨c, v, rfl⟩ := h
      exact .inr (.inl ⟨c, v, rfl, List.cons_ne_nil _ _, fun x hx => hu.2 x (List.mem_cons_of_mem _ hx)⟩)
    · push Not at h
      exact .inr (.inr ⟨hu, h⟩)
  · exact .inl hu

theorem natural?_octal {c : Char} (hc : c.isDigit = true) (v : Text) :
    natural? ('0' :: c :: v) =
      if '8' ∈ c :: v ∨ '9' ∈ c :: v then none else some (worth 8 (c :: v)) := by
  rw [natural?]
  · rintro rfl
    cases hc
  · rintro rfl
    cases hc

theorem natural?_decimal {u : Text} (hu : ∀ c v, u ≠ '0' :: c :: v) :
    natural? u = some (worth 10 u) := by
  rw [natural?]
  · exact hu _
  · exact hu _
  · exact hu

/-- The word of a natural number is what the text denotes, if that has a word. -/
theorem magnitude_eq {u : Text} (hu : IsNatural u) :
    magnitude u = ((natural? u).bind fun n => word? n).getD 0 := by
  rcases natural_cases hu with ⟨x, v, rfl, hx, hne, hv⟩ | ⟨c, v, rfl, hv⟩ | ⟨hu, hzero⟩
  · rcases hx with rfl | rfl
    · rw [magnitude, natural?, digits?_hex hne hv, Option.bind_some]
    · rw [magnitude, natural?, digits?_hex hne hv, Option.bind_some]
  · have hc : c.isDigit = true := hv.2 c List.mem_cons_self
    rw [natural?_octal hc, magnitude, digits?_octal hv]
    · by_cases hoct : '8' ∈ c :: v ∨ '9' ∈ c :: v
      · rw [if_pos hoct, if_pos hoct, Option.bind_none]
      · rw [if_neg hoct, if_neg hoct, Option.bind_some]
    · rintro rfl
      cases hc
    · rintro rfl
      cases hc
  · rw [natural?_decimal hzero, magnitude, digits?_decimal hu, Option.bind_some]
    · exact hzero _
    · exact hzero _
    · exact hzero

theorem toInt_magnitude {u : Text} (hu : IsNatural u) :
    (magnitude u).toInt = exactOrZero FitsWord ((natural? u).map fun n : Nat => (n : Int)) := by
  rw [magnitude_eq hu]
  cases natural? u with
  | none => rw [Option.bind_none, Option.getD_none, Int64.toInt_zero, Option.map_none, exactOrZero]
  | some n => rw [Option.bind_some, toInt_word?, Option.map_some]

theorem toInt_magnitude_nonneg {u : Text} (hu : IsNatural u) : 0 ≤ (magnitude u).toInt := by
  rw [toInt_magnitude hu]
  cases natural? u with
  | none => exact Int.le_refl 0
  | some n =>
    rw [Option.map_some, exactOrZero_some]
    split <;> omega

/-- The negation never leaves the words. -/
theorem toInt_neg_magnitude {u : Text} (hu : IsNatural u) :
    (-magnitude u).toInt = -(magnitude u).toInt := by
  have hnonneg := toInt_magnitude_nonneg hu
  have hlt := (magnitude u).toInt_lt
  rw [Int64.toInt_neg, Int.bmod_eq_of_le (by omega) (by omega)]

/-- The word of an integer text is the integer, unless the magnitude does not fit. -/
theorem toInt_integer {u : Text} (hu : IsInteger u) :
    (integer u).toInt = exactOrZero FitsWord (value? u) := by
  rcases hu with hu | ⟨v, rfl, hv⟩
  · have hminus : ∀ v, u = '-' :: v → False := by
      rintro v rfl
      cases hu.starts
    rw [integer, value?, toInt_magnitude hu]
    · exact hminus
    · exact hminus
  · rw [integer, value?, toInt_neg_magnitude hv, toInt_magnitude hv]
    cases natural? v with
    | none => rfl
    | some n =>
      rw [Option.map_some, Option.map_some, exactOrZero_some, exactOrZero_some]
      by_cases hfits : FitsWord n
      · rw [if_pos hfits, if_pos (fitsWord_neg.2 hfits)]
      · rw [if_neg hfits, if_neg (mt fitsWord_neg.1 hfits), Int.neg_zero]

theorem fitsWord_of_holds {s : Slot} {v : Int} (h : s.Holds v) : FitsWord v := by
  cases s with
  | field =>
    obtain ⟨hlow, hhigh⟩ := h
    show v.natAbs ≤ _
    omega
  | enumValue =>
    obtain ⟨hlow, hhigh⟩ := h
    show v.natAbs ≤ _
    omega

/-- The number in a slot is what the integer comes to in words, if the slot can hold that. -/
theorem Slot.number_eq_toInt (s : Slot) (u : Text) :
    s.number u = if s.Holds (integer u).toInt then (integer u).toInt else 0 := by
  cases s with
  | field =>
    show ((if Slot.field.Holds (integer u).toInt then (integer u).toInt.toNat else 0 : Nat) : Int) = _
    split
    · next hv => exact Int.toNat_of_nonneg hv.1
    · rfl
  | enumValue => rfl

/-- A number is stored as it is or, if the slot cannot hold it, as zero. -/
theorem Slot.number_eq (s : Slot) {u : Text} (hu : IsInteger u) :
    s.number u = exactOrZero s.Holds (value? u) := by
  rw [s.number_eq_toInt, toInt_integer hu]
  cases value? u with
  | none => exact ite_self 0
  | some v =>
    rw [exactOrZero_some, exactOrZero_some]
    by_cases hfits : FitsWord v
    · rw [if_pos hfits]
    · rw [if_neg hfits, if_neg (mt fitsWord_of_holds hfits)]
      exact ite_self 0

/-! ## spellings -/

/-- a natural number in decimal, in hexadecimal with both prefixes, and in octal -/
def naturalSpellings (n : Nat) : List Text :=
  [Nat.toDigits 10 n, '0' :: 'x' :: Nat.toDigits 16 n, '0' :: 'X' :: Nat.toDigits 16 n,
    '0' :: Nat.toDigits 8 n]

def spellings (v : Int) : List Text :=
  if 0 ≤ v then naturalSpellings v.natAbs else (naturalSpellings v.natAbs).map ('-' :: ·)

theorem mem_toDigits {base n : Nat} (hbase : 1 < base) {c : Char} (hc : c ∈ Nat.toDigits base n) :
    ∃ d < base, c = Nat.digitChar d := by
  induction n using Nat.strong_induction_on with
  | _ n ih =>
  by_cases hn : n < base
  · rw [Nat.toDigits_of_lt_base hn, List.mem_singleton] at hc
    exact ⟨n, hn, hc⟩
  · rw [Nat.toDigits_of_base_le hbase (by omega), List.mem_append, List.mem_singleton] at hc
    rcases hc with hc | rfl
    · exact ih _ (Nat.div_lt_self (by omega) hbase) hc
    · exact ⟨n % base, Nat.mod_lt _ (by omega), rfl⟩

theorem worth_toDigits {base : Nat} (hbase : 1 < base) (hmax : base ≤ 16) (n : Nat) :
    worth base (Nat.toDigits base n) = n := by
  have hdigit : ∀ d < 16, digitWorth (Nat.digitChar d) = d := by decide
  induction n using Nat.strong_induction_on with
  | _ n ih =>
  by_cases hn : n < base
  · rw [Nat.toDigits_of_lt_base hn, worth_cons, worth_nil, hdigit n (by omega)]
    simp
  · rw [Nat.toDigits_of_base_le hbase (by omega), worth_concat,
      ih _ (Nat.div_lt_self (by omega) hbase),
      hdigit _ (Nat.lt_of_lt_of_le (Nat.mod_lt n (by omega)) hmax)]
    exact Nat.div_add_mod' n base

/-- Nothing but zero starts with a zero in decimal. -/
theorem exists_toDigits_eq_cons {n : Nat} (hn : 0 < n) :
    ∃ d r, 0 < d ∧ d < 10 ∧ Nat.toDigits 10 n = Nat.digitChar d :: r := by
  induction n using Nat.strong_induction_on with
  | _ n ih =>
  by_cases hlt : n < 10
  · exact ⟨n, [], hn, hlt, Nat.toDigits_of_lt_base hlt⟩
  · obtain ⟨d, r, hpos, hd, hr⟩ := ih (n / 10) (by omega) (by omega)
    refine ⟨d, r ++ [Nat.digitChar (n % 10)], hpos, hd, ?_⟩
    rw [Nat.toDigits_of_base_le (by decide) (by omega), hr, List.cons_append]

theorem toDigits_ten_ne (n : Nat) (c : Char) (v : Text) : Nat.toDigits 10 n ≠ '0' :: c :: v := by
  intro h
  rcases Nat.eq_zero_or_pos n with rfl | hn
  · cases h
  · have hzero : ∀ d < 10, 0 < d → Nat.digitChar d ≠ '0' := by decide
    obtain ⟨d, r, hpos, hd, hr⟩ := exists_toDigits_eq_cons hn
    rw [hr] at h
    exact hzero d hd hpos (List.cons.inj h).1

theorem isHexDigit_of_mem_toDigits {n : Nat} {c : Char} (hc : c ∈ Nat.toDigits 16 n) :
    isHexDigit c = true := by
  have hhex : ∀ d < 16, isHexDigit (Nat.digitChar d) = true := by decide
  obtain ⟨d, hd, rfl⟩ := mem_toDigits (by decide) hc
  exact hhex d hd

theorem natural?_octal_toDigits (n : Nat) : natural? ('0' :: Nat.toDigits 8 n) = some n := by
  have hoctal : ∀ d < 8, Nat.digitChar d ≠ '8' ∧ Nat.digitChar d ≠ '9' := by decide
  have hdigit {c : Char} (hc : c ∈ Nat.toDigits 8 n) : c ≠ '8' ∧ c ≠ '9' := by
    obtain ⟨d, hd, rfl⟩ := mem_toDigits (by decide) hc
    exact hoctal d hd
  have hworth : worth 8 (Nat.toDigits 8 n) = n := worth_toDigits (by decide) (by decide) n
  obtain ⟨c, v, hcv⟩ := List.exists_cons_of_ne_nil (Nat.toDigits_ne_nil (b := 8) (n := n))
  have hc : c.isDigit = true :=
    Nat.isDigit_of_mem_toDigits (b := 8) (n := n) (by decide) (by decide)
      (hcv ▸ List.mem_cons_self)
  rw [hcv] at hworth ⊢
  rw [natural?_octal hc, if_neg, hworth]
  rintro (h | h)
  · exact (hdigit (hcv ▸ h)).1 rfl
  · exact (hdigit (hcv ▸ h)).2 rfl

theorem natural?_of_mem {n : Nat} {u : Text} (hu : u ∈ naturalSpellings n) :
    IsNatural u ∧ natural? u = some n := by
  have hhex : Nat.toDigits 16 n ≠ [] ∧ ∀ c ∈ Nat.toDigits 16 n, isHexDigit c = true :=
    ⟨Nat.toDigits_ne_nil, fun c => isHexDigit_of_mem_toDigits⟩
  have hsixteen : worth 16 (Nat.toDigits 16 n) = n := worth_toDigits (by decide) (by decide) n
  have hdigits {base : Nat} (hbase : 0 < base) (hten : base ≤ 10) : IsDigits (Nat.toDigits base n) :=
    ⟨Nat.toDigits_ne_nil, fun c => Nat.isDigit_of_mem_toDigits hbase hten⟩
  simp only [naturalSpellings, List.mem_cons, List.not_mem_nil, or_false] at hu
  rcases hu with rfl | rfl | rfl | rfl
  · refine ⟨.inl (hdigits (by decide) (by decide)), ?_⟩
    rw [natural?_decimal (toDigits_ten_ne n), worth_toDigits (by decide) (by decide)]
  · exact ⟨.inr ⟨'x', _, rfl, .inl rfl, hhex⟩, by rw [natural?, hsixteen]⟩
  · exact ⟨.inr ⟨'X', _, rfl, .inr rfl, hhex⟩, by rw [natural?, hsixteen]⟩
  · refine ⟨.inl ⟨List.cons_ne_nil _ _, List.forall_mem_cons.2 ⟨rfl, ?_⟩⟩, natural?_octal_toDigits n⟩
    exact (hdigits (by decide) (by decide)).2

theorem value?_of_mem {v : Int} {u : Text} (hu : u ∈ spellings v) :
    IsInteger u ∧ value? u = some v := by
  unfold spellings at hu
  by_cases hv : 0 ≤ v
  · rw [if_pos hv] at hu
    obtain ⟨hnatural, hvalue⟩ := natural?_of_mem hu
    refine ⟨.inl hnatural, ?_⟩
    rw [value?, hvalue, Option.map_some, Int.natAbs_of_nonneg hv]
    rintro w rfl
    cases hnatural.starts
  · rw [if_neg hv, List.mem_map] at hu
    obtain ⟨w, hw, rfl⟩ := hu
    obtain ⟨hnatural, hvalue⟩ := natural?_of_mem hw
    refine ⟨.inr ⟨w, rfl, hnatural⟩, ?_⟩
    rw [value?, hvalue, Option.map_some, Option.some.injEq]
    omega

end ProtoDocs.Number
