import ProtoDocs.Proofs.Grammar.Items
import ProtoDocs.Proofs.Grammar.Layout

/-!
# Reading tokens

Where a text goes on with a token, after a gap or at once, the reader of tokens of this kind reads
it and leaves the text at the next token.  A text that begins with another word is refused.

* `Solid`                 a token that no gap could begin with;
* `Ahead.next`            a part after a gap is read where the part would be read without;
* `Begins.ident`, `Ahead.ident` and so on   one kind of token each, without and with a gap in front;
* `keyword_refuses`, `mark_refuses`   a reader that begins with a word or mark refuses other ones.
-/

namespace ProtoDocs

open Lexeme Reader Scan

/-- the token is there, and does not begin with a blank or a slash -/
def Solid (u : Text) : Prop := u.starts (fun c => !isSpace c && c != '/') = true

instance (u : Text) : Decidable (Solid u) := inferInstanceAs (Decidable (_ = true))

theorem Solid.of_starts {p : Char → Bool} {u : Text} (h : u.starts p = true)
    (hp : ∀ c ∈ " \t\r\n\uFEFF/".toList, p c = false) : Solid u := by
  refine Text.starts_mono (fun c hc => ?_) h
  rw [Bool.and_eq_true, Bool.not_eq_true', Bool.eq_false_iff, bne_iff_ne]
  constructor
  · intro hs
    have hnot : p c = false := not_of_isSpace (fun d hd => hp d (List.mem_append_left ['/'] hd)) hs
    simp [hc] at hnot
  · rintro rfl
    simp [hc] at hp

theorem comment_of_not_starts {t : Text} (h : t.starts (· == '/') = false) : comment t = none := by
  unfold comment
  split
  · simp at h
  · simp at h
  · rfl

theorem Solid.firm {u : Text} (h : Solid u) (t : Text) : Firm (u ++ t) := by
  have hstart := Text.starts_append_of h t
  constructor
  · exact Text.not_starts_of_starts (fun c hc => by simp_all) hstart
  · exact comment_of_not_starts (Text.not_starts_of_starts (fun c hc => by simp_all) hstart)

theorem Solid.ne_nil {u : Text} (h : Solid u) : u ≠ [] := by
  rintro rfl
  simp [Solid] at h

namespace Begins

variable {rest t u v : Text} {us : List Text}

theorem ahead (h : Begins rest (u :: us) t) : Ahead rest (u :: us) t := by
  obtain ⟨s, rfl, hc, hs⟩ := h
  exact .cons .nil hc hs

theorem firm (h : Begins rest (u :: us) t) (hu : Solid u) : Firm t := by
  obtain ⟨s, rfl, _⟩ := h
  exact hu.firm s

/-- Where a token stands, a lexeme that reads it as a whole reads it. -/
theorem token {p : Scan} (s : Symbol) (h : Begins rest (u :: us) t)
    (hp : ∀ r, Clear u r → Ahead rest us r → p (u ++ r) = some r) :
    ∃ r, (Reader.token s p t).result = some (u, r) ∧ Ahead rest us r := by
  obtain ⟨r, rfl, hc, hr⟩ := h
  exact ⟨r, by simp [result_token, hp r hc hr], hr⟩

end Begins

namespace Ahead

variable {rest t u v : Text} {us : List Text}

/-- What is skipped ahead of a token is its gap. -/
theorem skip (h : Ahead rest (u :: us) t) (hu : Solid u) :
    Begins rest (u :: us) (Reader.skip t).2 := by
  cases h with
  | @cons gap _ s _ hgap hclear hs =>
    rw [skip_gap hgap, skip_of_firm (hu.firm s)]
    exact ⟨s, rfl, hclear, hs⟩

theorem next {α : Type} {p : Reader α} {a : α} {P : Text → Prop} (h : Ahead rest (u :: us) t)
    (hu : Solid u)
    (hp : ∀ s, Begins rest (u :: us) s → ∃ r, (p s).result = some (a, r) ∧ P r) :
    ∃ r, (Reader.next p t).result = some (a, r) ∧ P r := by
  rw [result_next]
  exact hp _ (h.skip hu)

/-- A text goes on with the gap in front of a token or with the token. -/
theorem not_starts {p : Char → Bool} (h : Ahead rest (v :: us) t) (hslash : p '/' = false)
    (hspace : ∀ c, isSpace c → p c = false) (hne : v ≠ []) (hv : v.starts p = false) :
    t.starts p = false := by
  cases h with
  | @cons gap _ s _ hgap _ _ =>
    cases gap with
    | nil => rwa [List.nil_append, Text.starts_append hne]
    | cons c gap => exact hgap.starts hslash hspace

end Ahead

/-! ## the word in front -/

theorem Keyword.isIdent_word (k : Keyword) : IsIdent k.word := by
  cases k <;> exact ⟨_, _, rfl, by decide, by decide⟩

theorem Label.isIdent_word (l : Label) : IsIdent l.word := by
  cases l <;> exact ⟨_, _, rfl, by decide, by decide⟩

theorem ImportModifier.isIdent_word (m : ImportModifier) : IsIdent m.word := by
  cases m <;> exact ⟨_, _, rfl, by decide, by decide⟩

theorem isIdent_stream : IsIdent "stream".toList := ⟨_, _, rfl, by decide, by decide⟩

theorem IsIdent.solid {u : Text} (h : IsIdent u) : Solid u := .of_starts h.starts (by decide)

theorem IsIdent.firstWord_eq {u : Text} (h : IsIdent u) : firstWord u = u :=
  List.takeWhile_eq_self_iff.2 h.all

theorem firstWord_append {u r : Text} (hne : u ≠ []) (hr : Clear u r) :
    firstWord (u ++ r) = firstWord u := by
  unfold firstWord
  by_cases hall : ∀ x ∈ u, isIdentChar x = true
  · have hr' : r.takeWhile isIdentChar = [] := by
      have := hr.not_starts hne hall
      cases r with
      | nil => rfl
      | cons c r => simpa using this
    rw [List.takeWhile_append_of_pos hall, hr', List.append_nil, List.takeWhile_eq_self_iff.2 hall]
  · rw [List.takeWhile_append, if_neg]
    intro hlen
    have htake : u.takeWhile isIdentChar <+: u := List.takeWhile_prefix _
    exact hall (List.takeWhile_eq_self_iff.1 (htake.eq_of_length hlen))

theorem Begins.firstWord_eq {rest t u : Text} {us : List Text} (h : Begins rest (u :: us) t)
    (hne : u ≠ []) : firstWord t = firstWord u := by
  obtain ⟨r, rfl, hr, _⟩ := h
  exact firstWord_append hne hr

theorem IsIdent.wholeWord_append {w : Text} (h : IsIdent w) {r : Text} (hr : Clear w r) :
    wholeWord w (w ++ r) = some r :=
  (wholeWord_eq_some_iff h.ne_nil h.all).2 ⟨rfl, hr⟩

theorem IsIdent.wholeWord_refuses {w t : Text} (hw : IsIdent w) (h : firstWord t ≠ w) :
    wholeWord w t = none := by
  rw [Option.eq_none_iff_forall_ne_some]
  intro r hr
  obtain ⟨rfl, hclear⟩ := (wholeWord_eq_some_iff hw.ne_nil hw.all).1 hr
  exact h ((firstWord_append hw.ne_nil hclear).trans hw.firstWord_eq)

theorem keyword_refuses {k : Keyword} {t : Text} (h : firstWord t ≠ k.word) :
    (Reader.keyword k t).result = none := by
  have hnone : Lexeme.keyword k t = none := k.isIdent_word.wholeWord_refuses h
  rw [Reader.keyword, result_bind, result_token, hnone]
  rfl

theorem mark_refuses {P : Char → Bool} {c : Char} {t : Text} (h : t.starts P = true)
    (hc : P c = false) : (mark c t).result = none := by
  rw [Option.eq_none_iff_forall_ne_some]
  intro x hx
  rw [mark_eq_some.1 hx, Text.starts_cons, hc] at h
  cases h

theorem label_refuses {t : Text} (h : ∀ l : Label, firstWord t ≠ l.word) :
    (Reader.label t).result = none := by
  have hword (l : Label) : wholeWord l.word t = none := l.isIdent_word.wholeWord_refuses (h l)
  have hnone : Lexeme.label t = none :=
    (or_of_none (hword .optional) _).trans
      ((or_of_none (hword .required) _).trans (hword .repeated))
  rw [Reader.label, result_bind, result_token, hnone]
  rfl

theorem importModifier_refuses {t : Text} (h : ∀ m : ImportModifier, firstWord t ≠ m.word) :
    (Reader.importModifier t).result = none := by
  have hword (m : ImportModifier) : wholeWord m.word t = none :=
    m.isIdent_word.wholeWord_refuses (h m)
  have hnone : Lexeme.importModifier t = none :=
    (or_of_none (hword .weak) _).trans (hword .shared)
  rw [Reader.importModifier, result_bind, result_token, hnone]
  rfl

theorem stream_refuses {t : Text} (h : firstWord t ≠ "stream".toList) :
    (Reader.token .stream Lexeme.stream t).result = none := by
  have hnone : Lexeme.stream t = none := isIdent_stream.wholeWord_refuses h
  rw [result_token, hnone]
  rfl

/-! ## words -/

section
variable {rest t u v : Text} {us : List Text}

theorem Begins.keyword {k : Keyword} (h : Begins rest (k.word :: us) t) :
    ∃ r, (Reader.keyword k t).result = some ((), r) ∧ Ahead rest us r := by
  obtain ⟨r, hr, ha⟩ := h.token (.keyword k) (p := Lexeme.keyword k)
    fun r hr _ => k.isIdent_word.wholeWord_append hr
  exact ⟨r, bind_eq_some.2 ⟨_, r, hr, rfl⟩, ha⟩

theorem Ahead.keyword {k : Keyword} (h : Ahead rest (k.word :: us) t) :
    ∃ r, (Reader.next (Reader.keyword k) t).result = some ((), r) ∧ Ahead rest us r :=
  h.next k.isIdent_word.solid fun _ hs => hs.keyword

theorem Begins.mark {c : Char} (h : Begins rest ([c] :: us) t) :
    ∃ r, (Reader.mark c t).result = some ((), r) ∧ Ahead rest us r := by
  obtain ⟨r, rfl, _, ha⟩ := h
  exact ⟨r, mark_eq_some.2 rfl, ha⟩

theorem Ahead.mark {c : Char} (h : Ahead rest ([c] :: us) t) (hc : Solid [c] := by decide) :
    ∃ r, (Reader.next (Reader.mark c) t).result = some ((), r) ∧ Ahead rest us r :=
  h.next hc fun _ hs => hs.mark

theorem Begins.ident (h : Begins rest (u :: us) t) (hu : IsIdent u) :
    ∃ r, (Reader.ident t).result = some (u, r) ∧ Ahead rest us r :=
  h.token .ident fun _ hr _ => ident_eq_some_iff.2 ⟨u, hu, rfl, hr⟩

theorem Ahead.ident (h : Ahead rest (u :: us) t) (hu : IsIdent u) :
    ∃ r, (Reader.next Reader.ident t).result = some (u, r) ∧ Ahead rest us r :=
  h.next hu.solid fun _ hs => hs.ident hu

theorem Begins.label {l : Label} (h : Begins rest (l.word :: us) t) :
    ∃ r, (Reader.label t).result = some (l, r) ∧ Ahead rest us r := by
  obtain ⟨r, hr, ha⟩ := h.token .label (p := Lexeme.label) fun r hr _ => by
    have hself := l.isIdent_word.wholeWord_append hr
    have hfirst := (firstWord_append l.isIdent_word.ne_nil hr).trans l.isIdent_word.firstWord_eq
    have hother (l' : Label) (hne : l.word ≠ l'.word) : wholeWord l'.word (l.word ++ r) = none :=
      l'.isIdent_word.wholeWord_refuses (by rwa [hfirst])
    cases l with
    | optional => exact or_of_some hself _
    | required => exact (or_of_none (hother .optional (by decide)) _).trans (or_of_some hself _)
    | repeated =>
      exact (or_of_none (hother .optional (by decide)) _).trans
        ((or_of_none (hother .required (by decide)) _).trans hself)
  refine ⟨r, bind_eq_some.2 ⟨_, r, hr, ?_⟩, ha⟩
  cases l <;> rfl

/-- A label is read where there is one, if no label could be read in its place. -/
theorem Begins.optionalLabel {l : Option Label}
    (h : Begins rest ((l.map Label.word).toList ++ u :: us) t) (hne : u ≠ [])
    (hu : ∀ l : Label, firstWord u ≠ l.word) :
    ∃ r, (Reader.optional Reader.label t).result = some (l, r) ∧ Ahead rest (u :: us) r := by
  cases l with
  | none =>
    refine ⟨t, optional_of_none (label_refuses ?_), Begins.ahead h⟩
    rw [Begins.firstWord_eq h hne]
    exact hu
  | some l =>
    obtain ⟨r, hr, ha⟩ := Begins.label h
    exact ⟨r, optional_of_some hr, ha⟩

theorem Begins.importModifier {m : ImportModifier} (h : Begins rest (m.word :: us) t) :
    ∃ r, (Reader.importModifier t).result = some (m, r) ∧ Ahead rest us r := by
  obtain ⟨r, hr, ha⟩ := h.token .importModifier (p := Lexeme.importModifier) fun r hr _ => by
    have hself := m.isIdent_word.wholeWord_append hr
    have hfirst := (firstWord_append m.isIdent_word.ne_nil hr).trans m.isIdent_word.firstWord_eq
    cases m with
    | weak => exact or_of_some hself _
    | shared =>
      refine (or_of_none (ImportModifier.weak.isIdent_word.wholeWord_refuses ?_) _).trans hself
      rw [hfirst]
      decide
  refine ⟨r, bind_eq_some.2 ⟨_, r, hr, ?_⟩, ha⟩
  cases m <;> rfl

theorem Begins.stream (h : Begins rest ("stream".toList :: us) t) :
    ∃ r, (Reader.token .stream Lexeme.stream t).result = some ("stream".toList, r) ∧
      Ahead rest us r :=
  h.token .stream fun _ hr _ => isIdent_stream.wholeWord_append hr

end

/-! ## values -/

theorem Quoted.isString {v u : Text} (h : Quoted v u) : IsString u := by
  obtain ⟨q, hq, hv, rfl⟩ := h
  exact ⟨q, v, rfl, hq, hv⟩

theorem Quoted.unquoted {v u : Text} (h : Quoted v u) : unquoted u = v := by
  obtain ⟨q, _, _, rfl⟩ := h
  simp [ProtoDocs.unquoted]

theorem IsString.solid {u : Text} (h : IsString u) : Solid u := .of_starts h.starts (by decide)

theorem IsFullIdent.solid {u : Text} (h : IsFullIdent u) : Solid u :=
  .of_starts h.starts (by decide)

theorem IsTypeRef.solid {u : Text} (h : IsTypeRef u) : Solid u := by
  rcases h with h | ⟨v, rfl, _⟩
  · exact h.solid
  · rfl

theorem IsNatural.solid {u : Text} (h : IsNatural u) : Solid u := .of_starts h.starts (by decide)

theorem IsInteger.solid {u : Text} (h : IsInteger u) : Solid u := by
  rcases h with h | ⟨v, rfl, _⟩
  · exact h.solid
  · rfl

theorem IsInteger.ends {u : Text} (h : IsInteger u) : u.ends isIdentChar = true := by
  rcases h with h | ⟨v, rfl, hv⟩
  · exact h.ends
  · have hne : v ≠ [] := by
      rintro rfl
      exact absurd hv.starts (by decide)
    rw [show ('-' :: v : Text) = ['-'] ++ v from rfl, Text.ends_append _ hne]
    exact hv.ends

theorem IsOptionName.solid {u : Text} (h : IsOptionName u) : Solid u := by
  obtain ⟨v, s, rfl, hv, _⟩ := h.exists_tail
  refine Text.starts_append_of ?_ s
  rcases hv with hv | ⟨w, rfl, _⟩
  · exact hv.solid
  · rfl

theorem IsConstant.solid {u : Text} (h : IsConstant u) : Solid u := by
  rcases h with h | ⟨s, v, rfl, hs, hv⟩
  · exact .of_starts h.starts (by decide)
  · rcases hs with rfl | ⟨c, rfl, hc⟩
    · exact .of_starts (plain_starts hv) (by decide)
    · exact .of_starts (p := isSign) hc (by decide)

section
variable {rest t u v : Text} {us : List Text}

theorem Begins.string (h : Begins rest (u :: us) t) (hu : Quoted v u) :
    ∃ r, (Reader.string t).result = some (v, r) ∧ Ahead rest us r := by
  obtain ⟨r, hr, ha⟩ := h.token .stringLit (p := stringLit)
    fun r _ _ => stringLit_eq_some_iff.2 ⟨u, hu.isString, rfl⟩
  exact ⟨r, bind_eq_some.2 ⟨_, r, hr, by rw [hu.unquoted]; rfl⟩, ha⟩

theorem Ahead.string (h : Ahead rest (u :: us) t) (hu : Quoted v u) :
    ∃ r, (Reader.next Reader.string t).result = some (v, r) ∧ Ahead rest us r :=
  h.next hu.isString.solid fun _ hs => hs.string hu

theorem Ahead.fieldNumber {n : Nat} (h : Ahead rest (u :: us) t) (hu : SpellsNatural n u) :
    ∃ r, (Reader.next Reader.fieldNumber t).result = some (n, r) ∧ Ahead rest us r := by
  refine h.next hu.1.solid fun s hs => ?_
  obtain ⟨r, hr, ha⟩ := hs.token .fieldNumber (p := Lexeme.fieldNumber)
    fun r hr _ => intLit_append hu.1 (hr hu.1.ends)
  exact ⟨r, bind_eq_some.2 ⟨_, r, hr, by rw [hu.2]; rfl⟩, ha⟩

theorem Ahead.enumNumber {n : Int} (h : Ahead rest (u :: us) t) (hu : SpellsInteger n u) :
    ∃ r, (Reader.next Reader.enumNumber t).result = some (n, r) ∧ Ahead rest us r := by
  refine h.next hu.1.solid fun s hs => ?_
  obtain ⟨r, hr, ha⟩ := hs.token .enumNumber (p := Lexeme.enumNumber)
    fun r hr _ => enumNumber_append hu.1 (hr hu.1.ends)
  exact ⟨r, bind_eq_some.2 ⟨_, r, hr, by rw [hu.2]; rfl⟩, ha⟩

/-- In front of a token that does not begin with a dot, no dotted name goes on. -/
theorem Ahead.not_dot (h : Ahead rest (v :: us) t) (hne : v ≠ [])
    (hv : v.starts (· == '.') = false) : t.starts (· == '.') = false := by
  exact h.not_starts rfl (fun _ => not_of_isSpace (p := (· == '.')) (by decide)) hne hv

theorem Begins.typeRef (h : Begins rest (u :: v :: us) t) (hu : IsTypeRef u) (hne : v ≠ [])
    (hv : v.starts (· == '.') = false) :
    ∃ r, (Reader.typeRef t).result = some (.ofWritten u, r) ∧ Ahead rest (v :: us) r := by
  obtain ⟨r, hr, ha⟩ := h.token .typeRef (p := Lexeme.typeRef)
    fun r hr ha => typeRef_append hu hr (ha.not_dot hne hv)
  exact ⟨r, bind_eq_some.2 ⟨_, r, hr, rfl⟩, ha⟩

theorem Ahead.typeRef (h : Ahead rest (u :: v :: us) t) (hu : IsTypeRef u) (hne : v ≠ [])
    (hv : v.starts (· == '.') = false) :
    ∃ r, (Reader.next Reader.typeRef t).result = some (.ofWritten u, r) ∧
      Ahead rest (v :: us) r :=
  h.next hu.solid fun _ hs => hs.typeRef hu hne hv

theorem Ahead.fullIdent (h : Ahead rest (u :: v :: us) t) (hu : IsFullIdent u) (hne : v ≠ [])
    (hv : v.starts (· == '.') = false) :
    ∃ r, (Reader.next (Reader.token .fullIdent Lexeme.fullIdent) t).result = some (u, r) ∧
      Ahead rest (v :: us) r :=
  h.next hu.solid fun _ hs =>
    hs.token .fullIdent fun _ hr ha => fullIdent_append hu hr (ha.not_dot hne hv)

/-- In front of a token that does not begin like it, no string goes on behind blanks. -/
theorem Ahead.not_quote (h : Ahead rest (v :: us) t) (hsolid : Solid v)
    (hv : v.starts isQuote = false) : (pastSpace t).starts isQuote = false := by
  cases h with
  | @cons gap _ s _ hgap _ _ =>
    have hspace : (v ++ s).starts isSpace = false := (hsolid.firm s).1
    clear * - hgap hsolid hv hspace
    induction hgap with
    | nil =>
      rw [List.nil_append, pastSpace_eq_self hspace, Text.starts_append hsolid.ne_nil]
      exact hv
    | space hc _ ih =>
      rw [List.cons_append, pastSpace_space hc]
      exact ih
    | line hc _ _ _ =>
      obtain ⟨d, rfl⟩ := CommentBefore.exists_slash (r := []) (.inl ⟨hc, by simp⟩)
      rfl
    | block hc _ _ =>
      obtain ⟨d, rfl⟩ := CommentBefore.exists_slash (r := []) (.inr hc)
      rfl

/-- a mark in front of which the value of an option has come to its end -/
def EndsValue (c : Char) : Prop := Solid [c] ∧ isNumberChar c = false ∧ isQuote c = false

instance (c : Char) : Decidable (EndsValue c) := inferInstanceAs (Decidable (_ ∧ _))

theorem Ahead.constant {c : Char} (h : Ahead rest (u :: [c] :: us) t) (hu : IsConstant u)
    (hc : EndsValue c) :
    ∃ r, (Reader.next (Reader.token .constant Lexeme.constant) t).result = some (u, r) ∧
      Ahead rest ([c] :: us) r := by
  refine h.next hu.solid fun s hs => hs.token .constant fun r _ ha => ?_
  refine constant_append hu ?_ (ha.not_quote hc.1 hc.2.2)
  exact ha.not_starts rfl (fun _ => not_of_isSpace (by decide)) (by simp) hc.2.1

/-- An option is read in front of a mark. -/
theorem Begins.assignment {s : Setting} {c : Char} (h : Begins rest (s.tokens ++ [c] :: us) t)
    (hs : s.WellFormed) (hc : EndsValue c) :
    ∃ r, (Reader.assignment t).result = some (s, r) ∧ Ahead rest ([c] :: us) r := by
  obtain ⟨t₁, h₁, ha⟩ := h.token .optionName (p := optionName)
    fun r hr ha => optionName_append hs.1 hr (ha.not_dot (by simp) rfl)
  obtain ⟨t₂, h₂, ha⟩ := ha.mark
  obtain ⟨t₃, h₃, ha⟩ := ha.constant hs.2 hc
  refine ⟨t₃, ?_, ha⟩
  simp only [Reader.assignment, result_bind, h₁, h₂, h₃, Option.bind_some, result_pure]

theorem Ahead.assignment {s : Setting} {c : Char} (h : Ahead rest (s.tokens ++ [c] :: us) t)
    (hs : s.WellFormed) (hc : EndsValue c) :
    ∃ r, (Reader.next Reader.assignment t).result = some (s, r) ∧ Ahead rest ([c] :: us) r :=
  h.next hs.1.solid fun _ h => h.assignment hs hc

end

/-! ## options -/

section
variable {rest t : Text} {us : List Text}

theorem Ahead.fieldOption {s : MemberOption} {c : Char} (h : Ahead rest (s.tokens ++ [c] :: us) t)
    (hs : s.WellFormed) (hc : EndsValue c) :
    ∃ r, (Reader.next Reader.fieldOption t).result = some (s, r) ∧ Ahead rest ([c] :: us) r := by
  obtain ⟨r, hr, ha⟩ := h.assignment hs.1 hc
  refine ⟨r, ?_, ha⟩
  obtain ⟨setting, comments⟩ := s
  obtain rfl : comments = [] := hs.2
  rw [result_next] at hr ⊢
  rw [Reader.fieldOption, result_named, result_bind, hr]
  rfl

theorem exists_endsValue (ss : List MemberOption) (us : List Text) :
    ∃ (c : Char) (vs : List Text), EndsValue c ∧
      ss.flatMap (fun s => [','] :: s.tokens) ++ [']'] :: us = [c] :: vs := by
  cases ss with
  | nil => exact ⟨']', us, by decide, rfl⟩
  | cons s ss => exact ⟨',', _, by decide, rfl⟩

theorem Ahead.moreOptions {ss : List MemberOption}
    (h : Ahead rest (ss.flatMap (fun s => [','] :: s.tokens) ++ [']'] :: us) t)
    (hs : ∀ s ∈ ss, s.WellFormed) :
    ∃ r, (repeated (do Reader.next (Reader.mark ','); Reader.next Reader.fieldOption) t).1 =
      (ss, r) ∧ Ahead rest ([']'] :: us) r := by
  induction ss generalizing t with
  | nil =>
    refine ⟨t, repeated_of_none ?_, h⟩
    obtain ⟨r, hr, _⟩ := h.skip (by decide)
    rw [result_bind, result_next, hr]
    rfl
  | cons s ss ih =>
    obtain ⟨c, vs, hc, hnext⟩ := exists_endsValue ss us
    rw [List.flatMap_cons, List.append_assoc, List.cons_append] at h
    obtain ⟨t₁, h₁, ha⟩ := h.mark
    rw [hnext] at ha
    obtain ⟨t₂, h₂, ha⟩ := ha.fieldOption (hs s List.mem_cons_self) hc
    rw [← hnext] at ha
    obtain ⟨r, hr, ha⟩ := ih ha fun s hmem => hs s (List.mem_cons_of_mem _ hmem)
    refine ⟨r, ?_, ha⟩
    have hsome : ((do Reader.next (Reader.mark ','); Reader.next Reader.fieldOption :
        Reader MemberOption) t).result = some (s, t₂) := by
      rw [result_bind, h₁, ← h₂]
      rfl
    rw [repeated_of_some hsome, hr]

theorem Begins.fieldOptions {s : MemberOption} {ss : List MemberOption}
    (h : Begins rest (optionTokens (s :: ss) ++ us) t) (hs : ∀ s' ∈ s :: ss, s'.WellFormed) :
    ∃ r, (Reader.fieldOptions t).result = some (s :: ss, r) ∧ Ahead rest us r := by
  obtain ⟨c, vs, hc, hnext⟩ := exists_endsValue ss us
  simp only [optionTokens, List.cons_append, List.append_assoc, List.nil_append] at h
  obtain ⟨t₁, h₁, ha⟩ := h.mark
  rw [hnext] at ha
  obtain ⟨t₂, h₂, ha⟩ := ha.fieldOption (hs s List.mem_cons_self) hc
  rw [← hnext] at ha
  obtain ⟨t₃, h₃, ha⟩ := ha.moreOptions fun s hmem => hs s (List.mem_cons_of_mem _ hmem)
  obtain ⟨t₄, h₄, ha⟩ := ha.mark
  refine ⟨t₄, ?_, ha⟩
  simp only [Reader.fieldOptions, result_named, result_bind, h₁, h₂, result_many, h₃, h₄,
    Option.bind_some, result_pure]

theorem Ahead.memberOptions {ss : List MemberOption} {c : Char}
    (h : Ahead rest (optionTokens ss ++ [c] :: us) t) (hs : ∀ s ∈ ss, s.WellFormed)
    (hc : Solid [c]) (hbracket : c ≠ '[') :
    ∃ r, (Reader.next Reader.memberOptions t).result = some (ss, r) ∧
      Ahead rest ([c] :: us) r := by
  cases ss with
  | nil =>
    refine h.next hc fun s hs => ⟨s, ?_, hs.ahead⟩
    obtain ⟨u, rfl, _⟩ := hs
    have hnone : (Reader.fieldOptions ([c] ++ u)).result = none := by
      have hmark : (Reader.mark '[' ([c] ++ u)).result = none := by
        simp [Reader.mark, Scan.char, hbracket]
      rw [Reader.fieldOptions, result_named, result_bind, hmark]
      rfl
    rw [Reader.memberOptions, result_bind, optional_of_none hnone]
    rfl
  | cons s ss =>
    refine h.next (u := ['[']) (by decide) fun t' ht' => ?_
    obtain ⟨r, hr, ha⟩ := Begins.fieldOptions ht' hs
    refine ⟨r, ?_, ha⟩
    rw [Reader.memberOptions, result_bind, optional_of_some hr]
    rfl

end

/-! ## sides of methods -/

theorem TypeRef.ofName_name (t : Text) : (TypeRef.ofName t).name = t := by
  unfold TypeRef.ofName
  cases h : Scalar.ofName? t with
  | none => rfl
  | some s => exact Scalar.name_of_ofName? h

theorem TypeRef.ofWritten_of_starts {t : Text} (h : t.starts (· == '.') = false) :
    TypeRef.ofWritten t = .ofName t := by
  unfold TypeRef.ofWritten
  split
  · simp at h
  · rfl

theorem IsFullIdent.not_dot {u : Text} (h : IsFullIdent u) : u.starts (· == '.') = false :=
  Text.not_starts_of_starts (fun _ hc => beq_false_of_class rfl hc) h.starts

theorem SpellsName.ofWritten_name {n u : Text} (h : SpellsName n u) (hn : IsFullIdent n) :
    (TypeRef.ofWritten u).name = n := by
  rcases h with rfl | rfl
  · rw [TypeRef.ofWritten_of_starts hn.not_dot, TypeRef.ofName_name]
  · rfl

theorem SpellsName.isTypeRef {n u : Text} (h : SpellsName n u) (hn : IsFullIdent n) :
    IsTypeRef u := by
  rcases h with rfl | rfl
  · exact .inl hn
  · exact .inr ⟨n, rfl, hn⟩

theorem SpellsName.firstWord_eq {n u : Text} (h : SpellsName n u) :
    firstWord u = firstWord n ∨ firstWord u = [] := by
  rcases h with rfl | rfl
  · exact .inl rfl
  · exact .inr rfl

section
variable {rest t : Text} {us vs : List Text}

theorem Ahead.side {s : Side} (h : Ahead rest (us ++ vs) t) (hs : s.Tokens us)
    (hwf : s.WellFormed) :
    ∃ r, (Reader.next sideInParens t).result = some (s, r) ∧ Ahead rest vs r := by
  cases hs with
  | @plain type u hu =>
    obtain ⟨hname, hstream⟩ := hwf
    have htype := hu.isTypeRef hname
    refine h.next (u := ['(']) (by decide) fun s hs => ?_
    obtain ⟨t₁, h₁, ha⟩ := Begins.mark hs
    have hbegins := ha.skip htype.solid
    have hnone : (Reader.token .stream Lexeme.stream (Reader.skip t₁).2).result = none := by
      refine stream_refuses ?_
      rw [hbegins.firstWord_eq htype.solid.ne_nil]
      rcases hu.firstWord_eq with h | h
      · rw [h]
        exact hstream rfl
      · rw [h]
        decide
    obtain ⟨t₂, h₂, ha⟩ := hbegins.ahead.typeRef htype (by simp) rfl
    obtain ⟨t₃, h₃, ha⟩ := ha.mark
    refine ⟨t₃, ?_, ha⟩
    have hside : (Reader.next side t₁).result = some (⟨type, false⟩, t₂) := by
      rw [result_next, side, result_named, result_bind, optional_of_none hnone, Option.bind_some,
        result_bind, h₂, Option.bind_some, hu.ofWritten_name hname]
      rfl
    simp only [sideInParens, result_bind, h₁, hside, h₃, Option.bind_some, result_pure]
  | @stream type u hu =>
    obtain ⟨hname, -⟩ := hwf
    have htype := hu.isTypeRef hname
    refine h.next (u := ['(']) (by decide) fun s hs => ?_
    obtain ⟨t₁, h₁, ha⟩ := Begins.mark hs
    obtain ⟨t₂, h₂, ha⟩ := (ha.skip isIdent_stream.solid).stream
    obtain ⟨t₃, h₃, ha⟩ := ha.typeRef htype (by simp) rfl
    obtain ⟨t₄, h₄, ha⟩ := ha.mark
    refine ⟨t₄, ?_, ha⟩
    have hside : (Reader.next side t₁).result = some (⟨type, true⟩, t₃) := by
      rw [result_next, side, result_named, result_bind, optional_of_some h₂, Option.bind_some,
        result_bind, h₃, Option.bind_some, hu.ofWritten_name hname]
      rfl
    simp only [sideInParens, result_bind, h₁, hside, h₄, Option.bind_some, result_pure]

end

end ProtoDocs
