import ProtoDocs.Proofs.Grammar.Gap

/-!
# Names and strings

What the lexemes of names and strings look like, said without the recognisers, and that these are
the texts that the recognisers find.  A name ends where no further character of a name follows.

* `Clear u r`          the name or number `u` does not run on into `r`;
* `IsIdent`            a letter or underscore, then letters, digits and underscores;
* `Dotted P`           pieces of the form `P` with dots between them;
* `IsFullIdent`, `IsTypeRef`, `IsOptionName`   the dotted names;
* `IsString`           a text between two quotes of one kind, with escapes in it.

For identifiers, keywords and strings there is one equivalence (`ident_eq_some_iff` and so on); for
the others there is one statement each way.
-/

namespace ProtoDocs

open Lexeme

def Text.ends (p : Char → Bool) (t : Text) : Bool := t.getLast?.any p

/-- a name or number `u` in front of `r` has come to its end -/
def Clear (u r : Text) : Prop := u.ends isIdentChar → r.starts isIdentChar = false

instance (u r : Text) : Decidable (Clear u r) := inferInstanceAs (Decidable (_ → _))

theorem Text.ends_append {p : Char → Bool} (s : Text) {t : Text} (ht : t ≠ []) :
    Text.ends p (s ++ t) = Text.ends p t := by
  rw [Text.ends, Text.ends, List.getLast?_append, List.getLast?_eq_some_getLast ht]
  rfl

/-! ## characters -/

theorem forall_ascii {P : Char → Prop} (h : ∀ n < 0x80, P (Char.ofNat n)) {c : Char}
    (hc : c.toNat < 0x80) : P c :=
  Char.ofNat_toNat c ▸ h c.toNat hc

theorem isIdentChar_ascii {c : Char} (h : isIdentChar c = true) : c.toNat < 0x80 := by
  simp only [isIdentChar, Char.isAlphanum, Char.isAlpha, Char.isUpper, Char.isLower, Char.isDigit,
    Bool.or_eq_true, Bool.and_eq_true, decide_eq_true_eq, beq_iff_eq, UInt32.le_iff_toNat_le,
    ge_iff_le] at h
  have hval : c.toNat = c.val.toNat := rfl
  have hZ : 'Z'.val.toNat = 90 := rfl
  have hz : 'z'.val.toNat = 122 := rfl
  have h9 : '9'.val.toNat = 57 := rfl
  rcases h with h | rfl
  · omega
  · decide

/-! ## recognisers -/

namespace Scan

theorem char_eq_some_iff {p : Char → Bool} {t r : Text} :
    char p t = some r ↔ ∃ c, p c = true ∧ t = c :: r := by
  cases t with
  | nil => simp [char]
  | cons d t =>
    by_cases h : p d
    · simp only [char, h, if_true, Option.some.injEq, List.cons.injEq]
      constructor
      · intro e
        exact ⟨d, h, rfl, e⟩
      · rintro ⟨_, _, _, e⟩
        exact e
    · simp only [char, h, List.cons.injEq]
      constructor
      · simp
      · rintro ⟨c, hc, rfl, _⟩
        exact absurd hc h

theorem seq_eq_some_iff {p q : Scan} {t r : Text} :
    p.seq q t = some r ↔ ∃ u, p t = some u ∧ q u = some r := Option.bind_eq_some_iff

theorem run_append {p : Char → Bool} {s r : Text} (hs : ∀ x ∈ s, p x = true)
    (hr : r.starts p = false) : run p (s ++ r) = some r := by
  show some ((s ++ r).dropWhile p) = some r
  rw [List.dropWhile_append_of_pos hs]
  cases r with
  | nil => rfl
  | cons c r =>
    rw [Text.starts_cons] at hr
    simp [hr]

theorem run_eq_some_iff {p : Char → Bool} {t r : Text} :
    run p t = some r ↔ ∃ s, (∀ x ∈ s, p x = true) ∧ t = s ++ r ∧ r.starts p = false := by
  constructor
  · intro h
    cases h
    refine ⟨t.takeWhile p, fun x hx => List.mem_takeWhile_imp hx,
      (List.takeWhile_append_dropWhile ..).symm, ?_⟩
    have := List.head?_dropWhile_not p t
    cases hd : t.dropWhile p with
    | nil => rfl
    | cons c u => simpa [hd] using this
  · rintro ⟨s, hs, rfl, hr⟩
    exact run_append hs hr

theorem run1_eq_some_iff {p : Char → Bool} {t r : Text} :
    run1 p t = some r ↔
      ∃ s, s ≠ [] ∧ (∀ x ∈ s, p x = true) ∧ t = s ++ r ∧ r.starts p = false := by
  rw [run1, seq_eq_some_iff]
  constructor
  · rintro ⟨u, hu, hur⟩
    obtain ⟨c, hc, rfl⟩ := char_eq_some_iff.1 hu
    obtain ⟨s, hs, rfl, hr⟩ := run_eq_some_iff.1 hur
    exact ⟨c :: s, by simp, by simpa using ⟨hc, hs⟩, rfl, hr⟩
  · rintro ⟨s, hne, hs, rfl, hr⟩
    obtain ⟨c, s, rfl⟩ := List.exists_cons_of_ne_nil hne
    rw [List.forall_mem_cons] at hs
    exact ⟨s ++ r, char_eq_some_iff.2 ⟨c, hs.1, rfl⟩, run_append hs.2 hr⟩

theorem seq_of_some {p : Scan} {t r : Text} (h : p t = some r) (q : Scan) : p.seq q t = q r := by
  show (p t).bind q = q r
  rw [h]
  rfl

theorem seq_of_none {p : Scan} {t : Text} (h : p t = none) (q : Scan) : p.seq q t = none := by
  show (p t).bind q = none
  rw [h]
  rfl

theorem or_of_some {p : Scan} {t r : Text} (h : p t = some r) (q : Scan) : p.or q t = some r := by
  simp [Scan.or, h]

theorem or_of_none {p : Scan} {t : Text} (h : p t = none) (q : Scan) : p.or q t = q t := by
  simp [Scan.or, h]

theorem or_assoc (p q r : Scan) : (p.or q).or r = p.or (q.or r) :=
  funext fun _ => Option.or_assoc

theorem char_of_not_starts {p : Char → Bool} {t : Text} (h : t.starts p = false) :
    char p t = none := by
  cases t with
  | nil => rfl
  | cons c t =>
    rw [Text.starts_cons] at h
    simp [char, h]

theorem run1_of_not_starts {p : Char → Bool} {t : Text} (h : t.starts p = false) :
    run1 p t = none :=
  seq_of_none (char_of_not_starts h) _

theorem opt_char_of_not_starts {p : Char → Bool} {t : Text} (h : t.starts p = false) :
    opt (char p) t = some t := by
  rw [opt, char_of_not_starts h]
  rfl

theorem opt_char_cons {p : Char → Bool} {c : Char} (h : p c = true) (t : Text) :
    opt (char p) (c :: t) = some t := by
  simp [opt, char, h]

end Scan

open Scan

/-! ## identifiers -/

def IsIdent (u : Text) : Prop :=
  ∃ c v, u = c :: v ∧ isIdentStart c = true ∧ ∀ x ∈ v, isIdentChar x = true

theorem isIdentChar_of_isIdentStart {c : Char} (h : isIdentStart c) : isIdentChar c := by
  simp only [isIdentStart, Bool.or_eq_true] at h
  rcases h with h | h <;> simp [isIdentChar, Char.isAlphanum, h]

namespace IsIdent

theorem ne_nil {u : Text} (h : IsIdent u) : u ≠ [] := by
  obtain ⟨c, v, rfl, _⟩ := h
  simp

theorem all {u : Text} (h : IsIdent u) : ∀ x ∈ u, isIdentChar x = true := by
  obtain ⟨c, v, rfl, hc, hv⟩ := h
  rw [List.forall_mem_cons]
  exact ⟨isIdentChar_of_isIdentStart hc, hv⟩

theorem starts {u : Text} (h : IsIdent u) : u.starts isIdentStart = true := by
  obtain ⟨c, v, rfl, hc, _⟩ := h
  exact hc

end IsIdent

/-- A text of characters of names ends with one. -/
theorem ends_of_all {p : Char → Bool} {u : Text} (hne : u ≠ []) (h : ∀ x ∈ u, p x = true) :
    u.ends p = true := by
  rw [Text.ends, List.getLast?_eq_some_getLast hne]
  exact h _ (List.getLast_mem hne)

theorem clear_of_not_starts {u r : Text} (h : r.starts isIdentChar = false) : Clear u r :=
  fun _ => h

theorem Clear.not_starts {u r : Text} (h : Clear u r) (hne : u ≠ [])
    (hu : ∀ x ∈ u, isIdentChar x = true) : r.starts isIdentChar = false := h (ends_of_all hne hu)

theorem ident_eq_some_iff {t r : Text} :
    ident t = some r ↔ ∃ u, IsIdent u ∧ t = u ++ r ∧ Clear u r := by
  rw [ident, seq_eq_some_iff]
  constructor
  · rintro ⟨v, hv, hvr⟩
    obtain ⟨c, hc, rfl⟩ := char_eq_some_iff.1 hv
    obtain ⟨s, hs, rfl, hr⟩ := run_eq_some_iff.1 hvr
    exact ⟨c :: s, ⟨c, s, rfl, hc, hs⟩, rfl, clear_of_not_starts hr⟩
  · rintro ⟨u, hu, rfl, hr⟩
    have hr' := hr.not_starts hu.ne_nil hu.all
    obtain ⟨c, v, rfl, hc, hv⟩ := hu
    exact ⟨v ++ r, char_eq_some_iff.2 ⟨c, hc, rfl⟩, run_eq_some_iff.2 ⟨v, hv, rfl, hr'⟩⟩

/-- A whole word stands where the word stands and does not run on. -/
theorem wholeWord_eq_some_iff {w t r : Text} (hne : w ≠ []) (hw : ∀ x ∈ w, isIdentChar x = true) :
    wholeWord w t = some r ↔ t = w ++ r ∧ Clear w r := by
  have hstop (v : Text) : butNot (char isIdentChar) some v = some r ↔
      v = r ∧ v.starts isIdentChar = false := by
    cases v with
    | nil => simp [butNot, char]
    | cons c v => by_cases h : isIdentChar c <;> simp [butNot, char, h]
  rw [wholeWord, seq_eq_some_iff]
  constructor
  · rintro ⟨v, hv, hvr⟩
    obtain ⟨rfl, hr⟩ := (hstop v).1 hvr
    exact ⟨word_eq_some.1 hv, clear_of_not_starts hr⟩
  · rintro ⟨rfl, hr⟩
    exact ⟨r, word_eq_some.2 rfl, (hstop r).2 ⟨rfl, hr.not_starts hne hw⟩⟩

/-! ## dotted names -/

inductive Dotted (P : Text → Prop) : Text → Prop
  | one {u : Text} : P u → Dotted P u
  | dot {u v : Text} : P u → Dotted P v → Dotted P (u ++ '.' :: v)

def dotted (p : Scan) : Scan := p.seq (many ((char (· == '.')).seq p))

section
variable {P : Text → Prop} {p : Scan}

/-- what may follow a piece of a dotted name: nothing, or a dot and a dotted name -/
def DotTail (P : Text → Prop) (s : Text) : Prop := s = [] ∨ ∃ v, s = '.' :: v ∧ Dotted P v

theorem Dotted.append_tail {u s : Text} (hu : P u) (hs : DotTail P s) : Dotted P (u ++ s) := by
  rcases hs with rfl | ⟨v, rfl, hv⟩
  · rw [List.append_nil]
    exact .one hu
  · exact .dot hu hv

theorem Dotted.exists_tail {t : Text} (h : Dotted P t) : ∃ u s, t = u ++ s ∧ P u ∧ DotTail P s := by
  cases h with
  | one hu => exact ⟨t, [], by simp, hu, .inl rfl⟩
  | dot hu hv => exact ⟨_, _, rfl, hu, .inr ⟨_, rfl, hv⟩⟩

theorem Dotted.ne_nil (hne : ∀ {u}, P u → u ≠ []) {t : Text} (h : Dotted P t) : t ≠ [] := by
  cases h with
  | one hu => exact hne hu
  | dot _ _ => simp

theorem clear_append {s u r : Text} (hne : u ≠ []) : Clear (s ++ u) r ↔ Clear u r := by
  rw [Clear, Clear, Text.ends_append s hne]

theorem exists_dotTail (hne : ∀ {u}, P u → u ≠ [])
    (h : ∀ {t r}, p t = some r → ∃ u, P u ∧ t = u ++ r ∧ Clear u r) (t : Text) :
    ∃ s, DotTail P s ∧ t = s ++ rest ((char (· == '.')).seq p) t ∧
      (s ≠ [] → Clear s (rest ((char (· == '.')).seq p) t)) := by
  fun_induction rest ((char (· == '.')).seq p) t with
  | case1 t _ => exact ⟨[], .inl rfl, rfl, by simp⟩
  | case2 t w hw hlt ih =>
    obtain ⟨x, hx, hxw⟩ := seq_eq_some_iff.1 hw
    obtain ⟨c, hc, rfl⟩ := char_eq_some_iff.1 hx
    obtain rfl : c = '.' := by simpa using hc
    obtain ⟨u, hu, rfl, hcl⟩ := h hxw
    obtain ⟨s, hs, hws, hcs⟩ := ih
    refine ⟨'.' :: (u ++ s), .inr ⟨_, rfl, .append_tail hu hs⟩, ?_, fun _ => ?_⟩
    · rw [List.cons_append, List.append_assoc, ← hws]
    · by_cases hnil : s = []
      · subst hnil
        rw [List.append_nil, show ('.' :: u : Text) = ['.'] ++ u from rfl, clear_append (hne hu)]
        rwa [hws] at hcl
      · rw [show ('.' :: (u ++ s) : Text) = ('.' :: u) ++ s from rfl, clear_append hnil]
        exact hcs hnil
  | case3 t w hw hlt => exact ⟨[], .inl rfl, rfl, by simp⟩

theorem dotted_eq_some (hne : ∀ {u}, P u → u ≠ [])
    (h : ∀ {t r}, p t = some r → ∃ u, P u ∧ t = u ++ r ∧ Clear u r) {t r : Text}
    (ht : dotted p t = some r) : ∃ u, Dotted P u ∧ t = u ++ r ∧ Clear u r := by
  obtain ⟨v, hv, hvr⟩ := seq_eq_some_iff.1 ht
  rw [many, Option.some.injEq] at hvr
  subst hvr
  obtain ⟨u, hu, rfl, hcl⟩ := h hv
  obtain ⟨s, hs, hvs, hcs⟩ := exists_dotTail hne h v
  refine ⟨u ++ s, .append_tail hu hs, ?_, ?_⟩
  · rw [List.append_assoc, ← hvs]
  · by_cases hnil : s = []
    · subst hnil
      rwa [hvs, List.nil_append, ← List.append_nil u] at hcl
    · rw [clear_append hnil]
      exact hcs hnil

theorem dotted_append (hp : p.Consumes) (hne : ∀ {u}, P u → u ≠ [])
    (h : ∀ {u r}, P u → Clear u r → p (u ++ r) = some r)
    {u r : Text} (hu : Dotted P u) (hr : Clear u r) (hdot : r.starts (· == '.') = false) :
    dotted p (u ++ r) = some r := by
  induction hu with
  | one hu =>
    have hnone : (char (· == '.')).seq p r = none := by
      cases r with
      | nil => rfl
      | cons c r =>
        rw [Text.starts_cons] at hdot
        simp only [Scan.seq, char, hdot]
        rfl
    exact seq_eq_some_iff.2 ⟨r, h hu hr, by rw [many, rest_of_none hnone]⟩
  | @dot u v hu hv ih =>
    have hvr : Clear v r := by
      rwa [show u ++ '.' :: v = (u ++ ['.']) ++ v by simp, clear_append (hv.ne_nil hne)] at hr
    obtain ⟨w, hw, hwr⟩ := seq_eq_some_iff.1 (ih hvr)
    refine seq_eq_some_iff.2 ⟨'.' :: (v ++ r), ?_, ?_⟩
    · rw [List.append_assoc]
      exact h hu (clear_of_not_starts rfl)
    · have hdotv : (char (· == '.')).seq p ('.' :: (v ++ r)) = some w :=
        seq_eq_some_iff.2 ⟨v ++ r, rfl, hw⟩
      rw [many, rest_of_some ((consumes_char _).seq hp.leaves) hdotv]
      exact hwr

end

abbrev IsFullIdent : Text → Prop := Dotted IsIdent

theorem fullIdent_eq_some {t r : Text} (h : fullIdent t = some r) :
    ∃ u, IsFullIdent u ∧ t = u ++ r ∧ Clear u r :=
  dotted_eq_some IsIdent.ne_nil ident_eq_some_iff.1 h

theorem fullIdent_append {u r : Text} (hu : IsFullIdent u) (hr : Clear u r)
    (hdot : r.starts (· == '.') = false) : fullIdent (u ++ r) = some r :=
  dotted_append consumes_ident IsIdent.ne_nil
    (fun hu hr => ident_eq_some_iff.2 ⟨_, hu, rfl, hr⟩) hu hr hdot

namespace IsFullIdent

theorem starts {u : Text} (h : IsFullIdent u) : u.starts isIdentStart = true := by
  obtain ⟨v, s, rfl, hv, _⟩ := h.exists_tail
  rw [Text.starts_append hv.ne_nil]
  exact hv.starts

theorem ne_nil {u : Text} (h : IsFullIdent u) : u ≠ [] := Dotted.ne_nil IsIdent.ne_nil h

end IsFullIdent

def IsTypeRef (u : Text) : Prop := IsFullIdent u ∨ ∃ v, u = '.' :: v ∧ IsFullIdent v

theorem typeRef_eq_some {t r : Text} (h : typeRef t = some r) :
    ∃ u, IsTypeRef u ∧ t = u ++ r ∧ Clear u r := by
  obtain ⟨v, hv, hvr⟩ := seq_eq_some_iff.1 h
  obtain ⟨u, hu, rfl, hcl⟩ := fullIdent_eq_some hvr
  cases hdot : char (· == '.') t with
  | none =>
    rw [opt, hdot] at hv
    cases hv
    exact ⟨u, .inl hu, rfl, hcl⟩
  | some w =>
    rw [opt, hdot] at hv
    cases hv
    obtain ⟨c, hc, rfl⟩ := char_eq_some_iff.1 hdot
    obtain rfl : c = '.' := by simpa using hc
    refine ⟨'.' :: u, .inr ⟨u, rfl, hu⟩, rfl, ?_⟩
    rwa [show ('.' :: u : Text) = ['.'] ++ u from rfl, clear_append hu.ne_nil]

theorem typeRef_append {u r : Text} (hu : IsTypeRef u) (hr : Clear u r)
    (hdot : r.starts (· == '.') = false) : typeRef (u ++ r) = some r := by
  rcases hu with hu | ⟨v, rfl, hv⟩
  · refine seq_eq_some_iff.2 ⟨u ++ r, opt_char_of_not_starts ?_, fullIdent_append hu hr hdot⟩
    rw [Text.starts_append hu.ne_nil]
    exact Text.not_starts_of_starts (fun c hc => beq_false_of_class rfl hc) hu.starts
  · rw [show ('.' :: v : Text) = ['.'] ++ v from rfl, clear_append hv.ne_nil] at hr
    exact seq_eq_some_iff.2 ⟨v ++ r, opt_char_cons rfl _, fullIdent_append hv hr hdot⟩

/-- an identifier, or a dotted name in parentheses -/
def IsOptionNamePart (u : Text) : Prop := IsIdent u ∨ ∃ v, u = '(' :: (v ++ [')']) ∧ IsTypeRef v

abbrev IsOptionName : Text → Prop := Dotted IsOptionNamePart

theorem IsOptionNamePart.ne_nil {u : Text} (h : IsOptionNamePart u) : u ≠ [] := by
  rcases h with h | ⟨v, rfl, _⟩
  · exact h.ne_nil
  · simp

theorem optionNamePart_append {u r : Text} (hu : IsOptionNamePart u) (hr : Clear u r) :
    optionNamePart (u ++ r) = some r := by
  rcases hu with hu | ⟨v, rfl, hv⟩
  · have hnone : char (· == '(') (u ++ r) = none := by
      obtain ⟨c, v, rfl, hc, _⟩ := hu
      simp [char, beq_false_of_class (d := '(') rfl hc]
    rw [optionNamePart, Scan.or, Scan.seq, hnone]
    exact ident_eq_some_iff.2 ⟨u, hu, rfl, hr⟩
  · have hname := typeRef_append (r := ')' :: r) hv (clear_of_not_starts rfl) rfl
    obtain ⟨w, hw, hwr⟩ := seq_eq_some_iff.1 hname
    have hparens : ((char (· == '(')).seq ((opt (char (· == '.'))).seq
        (fullIdent.seq (char (· == ')'))))) ('(' :: (v ++ [')']) ++ r) = some r :=
      seq_eq_some_iff.2 ⟨v ++ ')' :: r, by simp [char], seq_eq_some_iff.2 ⟨w, hw,
        seq_eq_some_iff.2 ⟨')' :: r, hwr, rfl⟩⟩⟩
    rw [optionNamePart, Scan.or, hparens]
    rfl

theorem optionNamePart_eq_some {t r : Text} (h : optionNamePart t = some r) :
    ∃ u, IsOptionNamePart u ∧ t = u ++ r ∧ Clear u r := by
  rcases Option.or_eq_some_iff.1 h with h | ⟨_, h⟩
  · obtain ⟨v, hv, hvr⟩ := seq_eq_some_iff.1 h
    obtain ⟨c, hc, rfl⟩ := char_eq_some_iff.1 hv
    obtain rfl : c = '(' := by simpa using hc
    obtain ⟨w, hw, hwr⟩ := seq_eq_some_iff.1 hvr
    obtain ⟨x, hx, hxr⟩ := seq_eq_some_iff.1 hwr
    obtain ⟨d, hd, rfl⟩ := char_eq_some_iff.1 hxr
    obtain rfl : d = ')' := by simpa using hd
    obtain ⟨u, hu, rfl, _⟩ := typeRef_eq_some (seq_eq_some_iff.2 ⟨w, hw, hx⟩)
    refine ⟨'(' :: (u ++ [')']), .inr ⟨u, rfl, hu⟩, by simp, ?_⟩
    rw [show ('(' :: (u ++ [')']) : Text) = ('(' :: u) ++ [')'] from rfl, clear_append (by simp)]
    exact fun hends => absurd hends (by decide)
  · obtain ⟨u, hu, rfl, hcl⟩ := ident_eq_some_iff.1 h
    exact ⟨u, .inl hu, rfl, hcl⟩

theorem optionName_eq_some {t r : Text} (h : optionName t = some r) :
    ∃ u, IsOptionName u ∧ t = u ++ r ∧ Clear u r :=
  dotted_eq_some IsOptionNamePart.ne_nil optionNamePart_eq_some h

theorem optionName_append {u r : Text} (hu : IsOptionName u) (hr : Clear u r)
    (hdot : r.starts (· == '.') = false) : optionName (u ++ r) = some r :=
  dotted_append consumes_optionNamePart IsOptionNamePart.ne_nil optionNamePart_append hu hr hdot

/-! ## strings -/

theorem not_of_isQuote {p : Char → Bool} (hp : ∀ c ∈ "\"\x27".toList, p c = false) {c : Char}
    (h : isQuote c) : p c = false := by
  rw [isQuote, Bool.or_eq_true, beq_iff_eq, beq_iff_eq] at h
  rcases h with rfl | rfl <;> exact hp _ (by decide)

/-- what may stand between two quotes `q`: escapes of any character, and characters other than the
quote, a backslash and line ends -/
inductive StringBody (q : Char) : Text → Prop
  | nil : StringBody q []
  | escape {t : Text} (c : Char) : StringBody q t → StringBody q ('\\' :: c :: t)
  | char {c : Char} {t : Text} : c ≠ q → c ≠ '\\' → isLineEnd c = false → StringBody q t →
      StringBody q (c :: t)

def IsString (u : Text) : Prop :=
  ∃ q t, u = q :: (t ++ [q]) ∧ isQuote q = true ∧ StringBody q t

theorem pastQuote_eq_some_iff {q : Char} (hq : q ≠ '\\') {t r : Text} :
    pastQuote q t = some r ↔ ∃ s, StringBody q s ∧ t = s ++ q :: r := by
  constructor
  · intro h
    induction t using pastQuote.induct (q := q) with
    | case1 => simp [pastQuote] at h
    | case2 c t ih =>
      rw [pastQuote] at h
      obtain ⟨s, hs, rfl⟩ := ih h
      exact ⟨'\\' :: c :: s, .escape c hs, rfl⟩
    | case3 t hesc =>
      rw [pastQuote.eq_3 q _ _ hesc, if_pos rfl] at h
      cases h
      exact ⟨[], .nil, rfl⟩
    | case4 c t hesc hne hend =>
      rw [pastQuote.eq_3 q _ _ hesc, if_neg hne, if_pos hend] at h
      simp at h
    | case5 c t hesc hne hend ih =>
      rw [pastQuote.eq_3 q _ _ hesc, if_neg hne, if_neg hend] at h
      obtain ⟨s, hs, rfl⟩ := ih h
      rw [Bool.or_eq_true, not_or, decide_eq_true_eq, Bool.not_eq_true] at hend
      exact ⟨c :: s, .char hne hend.1 hend.2 hs, rfl⟩
  · rintro ⟨s, hs, rfl⟩
    induction hs with
    | nil =>
      rw [List.nil_append, pastQuote.eq_3 q q r (fun c t h _ => hq h), if_pos rfl]
    | escape c _ ih =>
      rw [List.cons_append, List.cons_append, pastQuote]
      exact ih
    | char hne hback hend _ ih =>
      rw [List.cons_append, pastQuote.eq_3 q _ _ (fun c t h _ => hback h), if_neg hne,
        if_neg (by simp [hback, hend])]
      exact ih

theorem stringLit_eq_some_iff {t r : Text} :
    stringLit t = some r ↔ ∃ u, IsString u ∧ t = u ++ r := by
  have hq {q : Char} (h : isQuote q = true) : q ≠ '\\' := by
    rintro rfl
    exact absurd h (by decide)
  constructor
  · intro h
    cases t with
    | nil => simp [stringLit] at h
    | cons q t =>
      simp only [stringLit] at h
      split at h
      · rename_i hquote
        obtain ⟨s, hs, rfl⟩ := (pastQuote_eq_some_iff (hq hquote)).1 h
        exact ⟨q :: (s ++ [q]), ⟨q, s, rfl, hquote, hs⟩, by simp⟩
      · simp at h
  · rintro ⟨u, ⟨q, s, rfl, hquote, hs⟩, rfl⟩
    rw [List.cons_append, stringLit, if_pos hquote, List.append_assoc]
    exact (pastQuote_eq_some_iff (hq hquote)).2 ⟨s, hs, rfl⟩

end ProtoDocs
