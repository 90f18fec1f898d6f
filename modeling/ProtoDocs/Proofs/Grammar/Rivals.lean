import ProtoDocs.Proofs.Grammar.Lasting

/-!
# Fields with a keyword for their type

A word that begins another declaration may be the type of a field, or begin it.  The reader of the
other declaration is tried first, and fails behind the word: where it looks for a brace or a bracket,
the field has its name or an equals sign.  Only an option, a reserved range and an extension range can
be taken for such a field.

* `type_word`            behind the word, the type goes on with a dot or the name follows;
* `itemLedBy_refuses_field`, `group_refuses_field`   the readers that fail on every field;
* `setting_refuses_field`     the fields on which the reader of options fails;
* `itemAt_field`, `itemAt_enumValue`   a field or an enum value is read at its place if it has no rival.
-/

namespace ProtoDocs

open Lexeme (isIdentChar isIdentStart)
open Reader Scan

section
variable {k : Keyword} {t r s v v₀ x y : Text} {name : Text} {type : TypeRef}

/-! ## words in front -/

theorem exists_of_firstWord (h : firstWord t = k.word) :
    ∃ v, t = k.word ++ v ∧ v.starts isIdentChar = false := by
  have hrun : run isIdentChar t = some (t.dropWhile isIdentChar) := rfl
  obtain ⟨u, -, -, hr⟩ := run_eq_some_iff.1 hrun
  refine ⟨t.dropWhile isIdentChar, ?_, hr⟩
  rw [← h]
  exact List.takeWhile_append_dropWhile.symm

theorem firstWord_below (t b : Text) : firstWord (t ++ '\n' :: b) = firstWord t := by
  unfold firstWord
  rw [List.takeWhile_append]
  split
  · rename_i hlen
    have hall : t.takeWhile isIdentChar = t := (List.takeWhile_prefix _).eq_of_length hlen
    rw [hall]
    simp [isIdentChar]
  · rfl

def dotIdent : Scan := (char (· == '.')).seq Lexeme.ident

theorem consumes_dotIdent : dotIdent.Consumes :=
  (consumes_char _).seq Lexeme.consumes_ident.leaves

theorem IsIdent.append_not_dot (hw : IsIdent s) (v : Text) : (s ++ v).starts (· == '.') = false := by
  rw [Text.starts_append hw.ne_nil]
  exact hw.not_dot

theorem skip_dot (v : Text) : skip ('.' :: v) = ([], '.' :: v) :=
  skip_of_firm (Solid.firm (u := ['.']) (by decide) v)

theorem typeRef_word (hw : IsIdent s) (hv : v.starts isIdentChar = false) :
    Lexeme.typeRef (s ++ v) = some (rest dotIdent v) := by
  refine seq_eq_some_iff.2 ⟨s ++ v, opt_char_of_not_starts (hw.append_not_dot v), ?_⟩
  exact seq_eq_some_iff.2 ⟨v, ident_eq_some_iff.2 ⟨s, hw, rfl, clear_of_not_starts hv⟩, rfl⟩

theorem ident_parts (h : (ident t).result = some (name, x)) :
    t = name ++ x ∧ IsIdent name ∧ Clear name x := by
  obtain ⟨rfl, hread⟩ := (token_eq_some Lexeme.consumes_ident.leaves).1 h
  obtain ⟨u, hu, he, hclear⟩ := ident_eq_some_iff.1 hread
  obtain rfl : name = u := List.append_cancel_right he
  exact ⟨rfl, hu, hclear⟩

/-- A written type begins with the first word of its name, unless it begins with a dot. -/
theorem firstWord_type (h : (typeRef t).result = some (type, v)) (hdot : t.starts (· == '.') = false) :
    firstWord type.name = firstWord t ∧ t = type.name ++ v := by
  obtain ⟨u, w, hu, h⟩ := bind_eq_some.1 h
  cases h
  obtain ⟨rfl, hread⟩ := (token_eq_some Lexeme.consumes_typeRef.leaves).1 hu
  obtain ⟨u', hu', he, hclear⟩ := typeRef_eq_some hread
  obtain rfl : u = u' := List.append_cancel_right he
  have hne : u ≠ [] := hu'.solid.ne_nil
  rw [Text.starts_append hne] at hdot
  rw [TypeRef.ofWritten_of_starts hdot, TypeRef.ofName_name]
  exact ⟨(firstWord_append hne hclear).symm, rfl⟩

theorem next_ident_dot {z : Text} : (next ident ('.' :: z)).result = none := by
  rw [result_next, skip_dot]
  rfl

/-- Behind the word that begins a type, the name of the field follows, or the type goes on with a
dot. -/
theorem type_word (hv : v₀.starts isIdentChar = false)
    (htype : (typeRef (k.word ++ v₀)).result = some (type, v))
    (hname : (next ident v).result = some (name, x)) :
    (v₀ = v ∧ type.name = k.word) ∨
      ∃ z, v₀ = '.' :: z ∧ Lexeme.typeRef v₀ = some v ∧ type.name ≠ k.word := by
  have hread := typeRef_word k.isIdent_word hv
  obtain ⟨-, htext⟩ := firstWord_type htype (k.isIdent_word.append_not_dot v₀)
  obtain rfl : rest dotIdent v₀ = v := by
    obtain ⟨u, w, hu, h⟩ := bind_eq_some.1 htype
    cases h
    rw [result_token, hread] at hu
    exact congrArg Prod.snd (Option.some.inj hu)
  cases hd : dotIdent v₀ with
  | none =>
    rw [rest_of_none hd] at htext ⊢
    exact .inl ⟨rfl, (List.append_cancel_right htext).symm⟩
  | some u =>
    rw [rest_of_some consumes_dotIdent hd] at htext ⊢
    obtain ⟨w, hw, hu⟩ := seq_eq_some_iff.1 hd
    obtain ⟨c, hc, rfl⟩ := char_eq_some_iff.1 hw
    obtain rfl : c = '.' := by simpa using hc
    refine .inr ⟨w, rfl, ?_, fun h => ?_⟩
    · exact seq_eq_some_iff.2 ⟨w, opt_char_cons rfl w, seq_eq_some_iff.2 ⟨u, hu, rfl⟩⟩
    · rw [h] at htext
      have hlen := congrArg List.length (List.append_cancel_left htext)
      have hle := (consumes_dotIdent.leaves.rest_suffix u).length_le
      have hlt := (consumes_dotIdent _ _ hd).2
      omega

/-! ## what a field is read from -/

theorem field_parts {f : Field} (h : (field t).result = some (.field f, r)) :
    ∃ t₁ v x y z u, (Reader.optional label t).result = some (f.label, t₁) ∧
      (next typeRef t₁).result = some (f.type, v) ∧ (next ident v).result = some (f.name, x) ∧
      (next (mark '=') x).result = some ((), y) ∧ (next fieldNumber y).result = some (f.number, z) ∧
      (next memberOptions z).result = some (f.options, u) ∧
      (next (mark ';') u).result = some ((), r) := by
  rw [field, result_named] at h
  obtain ⟨_, t₁, h₁, h⟩ := bind_eq_some.1 h
  obtain ⟨_, v, h₂, h⟩ := bind_eq_some.1 h
  obtain ⟨_, x, h₃, h⟩ := bind_eq_some.1 h
  obtain ⟨_, y, h₄, h⟩ := bind_eq_some.1 h
  obtain ⟨_, z, h₅, h⟩ := bind_eq_some.1 h
  obtain ⟨_, u, h₆, h⟩ := bind_eq_some.1 h
  obtain ⟨_, w, h₇, h⟩ := bind_eq_some.1 h
  cases h
  exact ⟨t₁, v, x, y, z, u, h₁, h₂, h₃, h₄, h₅, h₆, h₇⟩

theorem optional_label_keyword (h : firstWord t = k.word) :
    (Reader.optional label t).result = some (none, t) :=
  optional_of_none (label_refuses fun l hl => l.word_ne_keyword k (hl.symm.trans h))

theorem keyword_word (hv : v.starts isIdentChar = false) :
    (keyword k (k.word ++ v)).result = some ((), v) := by
  have hread : Lexeme.keyword k (k.word ++ v) = some v :=
    k.isIdent_word.wholeWord_append (clear_of_not_starts hv)
  rw [keyword, result_bind, result_token, hread]
  rfl

/-! ## what the other readers come upon -/

def Braced {α : Type} (p : Reader α) : Prop := ∀ t, t.starts (· == '{') = false → (p t).result = none

theorem braced_body (b : Symbol) (item : ItemReader) : Braced (body b item) := by
  intro t ht
  rw [Option.eq_none_iff_forall_ne_some]
  intro z hz
  obtain ⟨u, rfl, -⟩ := body_eq_some.1 hz
  cases ht

theorem braced_nestedBody : Braced nestedBody := by
  intro t ht
  rw [Option.eq_none_iff_forall_ne_some]
  intro z hz
  obtain ⟨u, rfl, -⟩ := nestedBody_eq_some.1 hz
  cases ht

section
variable {α β : Type} {p : Reader α}

theorem Braced.next_mark {d : Char} (hp : Braced p) (hne : d ≠ '{')
    (h : (next (mark d) x).result = some ((), y)) : (next p x).result = none := by
  rw [result_next, mark_eq_some] at h
  rw [result_next, hp]
  rw [h]
  simpa using hne

theorem starts_of_next_ident (h : (next ident v).result = some (name, x)) :
    (skip v).2.starts isIdentStart = true := by
  rw [result_next] at h
  obtain ⟨ht, hname, -⟩ := ident_parts h
  rw [ht]
  exact Text.starts_append_of hname.starts x

theorem Braced.of_ident (hp : Braced p) (h : (next ident v).result = some (name, x)) :
    (next p v).result = none := by
  rw [result_next, hp]
  exact Text.not_starts_of_starts (fun c hc => beq_false_of_class rfl hc) (starts_of_next_ident h)

theorem named_body_refuses (hp : Braced p) (f : Text → α → Reader β)
    (hname : (next ident v).result = some (name, x))
    (hmark : (next (mark '=') x).result = some ((), y))
    (hv : v₀ = v ∨ ∃ z, v₀ = '.' :: z) :
    ((next ident >>= fun n => next p >>= f n) v₀).result = none := by
  rcases hv with rfl | ⟨z, rfl⟩
  · rw [result_bind, hname, Option.bind_some, result_bind, hp.next_mark (by decide) hmark]
    rfl
  · rw [result_bind, next_ident_dot]
    rfl

end

/-- What is skipped in front of a text begins with nothing that could begin another token. -/
theorem not_starts_of_skip {P Q : Char → Bool} (h : (skip t).2.starts P = true)
    (hQ : ∀ c, Q c = true → Lexeme.isSpace c = false ∧ c ≠ '/' ∧ P c = false) :
    t.starts Q = false := by
  cases t with
  | nil => rfl
  | cons c t =>
    rw [Text.starts_cons, Bool.eq_false_iff]
    intro hc
    obtain ⟨hspace, hslash, hP⟩ := hQ c hc
    have hfirm : Firm (c :: t) := Solid.firm (u := [c]) (by simp [Solid, hspace, hslash]) t
    rw [skip_of_firm hfirm, Text.starts_cons, hP] at h
    cases h

/-- Where a name and an equals sign stand, the name does not go on with a dot. -/
theorem exists_name (hname : (next ident v).result = some (name, x))
    (hmark : (next (mark '=') x).result = some ((), y)) :
    (skip v).2 = name ++ x ∧ IsIdent name ∧ Clear name x ∧ x.starts (· == '.') = false := by
  rw [result_next] at hname
  obtain ⟨ht, hu, hclear⟩ := ident_parts hname
  rw [result_next, mark_eq_some] at hmark
  have heq : (skip x).2.starts (· == '=') = true := by rw [hmark]; rfl
  exact ⟨ht, hu, hclear, not_starts_of_skip heq fun c hc => by rw [beq_iff_eq.1 hc]; decide⟩

theorem next_typeRef_name (hname : (next ident v).result = some (name, x))
    (hmark : (next (mark '=') x).result = some ((), y)) :
    (next typeRef v).result = some (.ofWritten name, x) := by
  obtain ⟨ht, hident, hclear, hdot⟩ := exists_name hname hmark
  have hread : Lexeme.typeRef (name ++ x) = some x := typeRef_append (.inl (.one hident)) hclear hdot
  rw [result_next, ht]
  exact bind_eq_some.2 ⟨name, x, (token_eq_some Lexeme.consumes_typeRef.leaves).2 ⟨rfl, hread⟩, rfl⟩

theorem field_word {f : Field} (h : (field t).result = some (.field f, r))
    (hfirst : firstWord t = k.word) :
    f.label = none ∧ firstWord f.type.name = k.word ∧
    ∃ v₀ v x y z u, (keyword k t).result = some ((), v₀) ∧
      ((v₀ = v ∧ f.type.name = k.word) ∨
        ∃ z, v₀ = '.' :: z ∧ Lexeme.typeRef v₀ = some v ∧ f.type.name ≠ k.word) ∧
      (next ident v).result = some (f.name, x) ∧ (next (mark '=') x).result = some ((), y) ∧
      (next fieldNumber y).result = some (f.number, z) ∧
      (next memberOptions z).result = some (f.options, u) ∧
      (next (mark ';') u).result = some ((), r) := by
  obtain ⟨t₁, v, x, y, z, u, h₁, h₂, h₃, h₄, h₅, h₆, h₇⟩ := field_parts h
  have hlabel : f.label = none ∧ t₁ = t := by
    rw [optional_label_keyword hfirst] at h₁
    obtain ⟨hl, ht⟩ := Prod.mk.inj (Option.some.inj h₁)
    exact ⟨hl.symm, ht.symm⟩
  obtain ⟨hlabel, rfl⟩ := hlabel
  rw [result_next, skip_of_firm (firm_of_firstWord hfirst)] at h₂
  obtain ⟨v₀, rfl, hv⟩ := exists_of_firstWord hfirst
  have htype := (firstWord_type h₂ (k.isIdent_word.append_not_dot v₀)).1
  exact ⟨hlabel, htype.trans hfirst, v₀, v, x, y, z, u, keyword_word hv, type_word hv h₂ h₃,
    h₃, h₄, h₅, h₆, h₇⟩

/-- Blocks and map fields are not read where a field is. -/
theorem itemLedBy_refuses_field {f : Field}
    (hk : k ∈ [Keyword.message, .enum, .oneof, .map, .extend])
    (h : (field t).result = some (.field f, r)) : (itemLedBy k t).result = none := by
  by_cases hfirst : firstWord t = k.word
  · obtain ⟨-, -, v₀, v, x, y, z, u, hkey, hv, hname, hmark, -⟩ := field_word h hfirst
    have hv' : v₀ = v ∨ ∃ z, v₀ = '.' :: z :=
      hv.imp (fun h => h.1) fun ⟨z, hz, _⟩ => ⟨z, hz⟩
    simp only [List.mem_cons, List.not_mem_nil, or_false] at hk
    rcases hk with rfl | rfl | rfl | rfl | rfl
    · refine ofBlock_of_none ?_
      rw [message, result_named, result_bind, hkey]
      exact named_body_refuses braced_nestedBody _ hname hmark hv'
    · refine ofBlock_of_none ?_
      rw [enum, result_named, result_bind, hkey]
      exact named_body_refuses (braced_body _ _) _ hname hmark hv'
    · refine ofBlock_of_none ?_
      rw [oneof, result_named, result_bind, hkey]
      exact named_body_refuses (braced_body _ _) _ hname hmark hv'
    · -- a map has an angle bracket behind its word
      have hangle : (next (mark '<') v₀).result = none := by
        rw [result_next]
        rcases hv' with rfl | ⟨z, rfl⟩
        · exact mark_refuses (starts_of_next_ident hname) rfl
        · rw [skip_dot]
          rfl
      refine ofStatement_of_none ?_
      rw [mapField, result_named, result_bind, hkey, Option.bind_some, result_bind, hangle]
      rfl
    · -- what is extended is the name of the field, or the type behind the word
      refine ofBlock_of_none ?_
      have htype : ∃ type w, (next typeRef v₀).result = some (type, w) ∧
          (next (body .extendBody (oneOf [ofBlock (group nestedBody), ofStatement field,
            emptyStatement])) w).result = none := by
        rcases hv with ⟨rfl, -⟩ | ⟨z, rfl, hread, -⟩
        · exact ⟨_, x, next_typeRef_name hname hmark, (braced_body _ _).next_mark (by decide) hmark⟩
        · refine ⟨.ofWritten (Text.upTo ('.' :: z) v), v, ?_, (braced_body _ _).of_ident hname⟩
          rw [result_next, skip_dot, typeRef, result_bind, result_token, hread]
          rfl
      obtain ⟨type, w, htype, hbody⟩ := htype
      rw [extend, result_named, result_bind, hkey, Option.bind_some, result_bind, htype,
        Option.bind_some, result_bind, hbody]
      rfl
  · exact itemLedBy_refuses hfirst

/-- A group is not read where a field is: behind the same tokens, it has a brace. -/
theorem group_refuses_field {f : Field} (h : (field t).result = some (.field f, r)) :
    (group nestedBody t).result = none := by
  obtain ⟨t₁, v, x, y, z, u, h₁, h₂, h₃, h₄, h₅, h₆, h₇⟩ := field_parts h
  rw [group, result_named, result_bind, h₁, Option.bind_some, result_bind]
  cases hkey : (next (keyword .group) t₁).result with
  | none => rfl
  | some a =>
    obtain ⟨_, v₀⟩ := a
    rw [result_next] at h₂ hkey
    have hfirst : firstWord (skip t₁).2 = Keyword.group.word := by
      by_contra hne
      rw [keyword_refuses hne] at hkey
      cases hkey
    obtain ⟨v₁, ht, hv⟩ := exists_of_firstWord hfirst
    rw [ht] at h₂ hkey
    rw [keyword_word hv] at hkey
    cases hkey
    rw [Option.bind_some, result_bind]
    rcases type_word hv h₂ h₃ with ⟨rfl, -⟩ | ⟨z, rfl, -⟩
    · simp only [result_bind, h₃, h₄, h₅, h₆, Option.bind_some,
        braced_nestedBody.next_mark (by decide) h₇, Option.bind_none]
    · rw [next_ident_dot]
      rfl

theorem firstWord_of_group {k : Keyword} {x : Element × Text}
    (h : (group nestedBody t).result = some x) (hfirst : firstWord t = k.word) : k = .group := by
  rw [group, result_named] at h
  obtain ⟨_, u, hu, h⟩ := bind_eq_some.1 h
  obtain ⟨_, v, hv, -⟩ := bind_eq_some.1 h
  rw [optional_label_keyword hfirst] at hu
  cases hu
  rw [result_next, skip_of_firm (firm_of_firstWord hfirst)] at hv
  by_contra hne
  rw [keyword_refuses] at hv
  · cases hv
  · rw [hfirst]
    exact fun hword => hne (Keyword.word_injective hword)

/-! ## options -/

theorem memberOptions_cases {os : List MemberOption} {z u : Text}
    (h : (next memberOptions z).result = some (os, u)) :
    (os ≠ [] ∧ (skip z).2.starts (· == '[') = true) ∨ (os = [] ∧ u = (skip z).2) := by
  rw [result_next] at h
  refine (memberOptions_eq_some.1 h).imp (fun hf => ?_) fun ⟨_, hnil, hu⟩ => ⟨hnil, hu⟩
  have hne : Gives fieldOptions (· ≠ []) :=
    .named (.step fun _ => .step fun _ => .step fun _ => .step fun _ =>
      .pure (List.cons_ne_nil _ _))
  obtain ⟨w, hw⟩ := exists_of_fieldOptions hf
  refine ⟨hne _ _ _ hf, ?_⟩
  rw [hw]
  rfl

theorem next_constant_number {n : Nat} {z : Text} (h : (next fieldNumber y).result = some (n, z))
    (hz : (skip z).2.starts (fun c => c == '[' || c == ';') = true) :
    ∃ v, (next (token .constant Lexeme.constant) y).result = some (v, z) := by
  rw [result_next] at h ⊢
  obtain ⟨u, w, hu, h⟩ := bind_eq_some.1 h
  cases h
  obtain ⟨ht, hread⟩ := (token_eq_some Lexeme.consumes_intLit.leaves).1 hu
  obtain ⟨d, hd, he⟩ := intLit_eq_some hread
  obtain rfl : u = d := List.append_cancel_right he
  -- the bracket or the semicolon ends the number and is no further string
  have hnumber : z.starts isNumberChar = false := by
    refine not_starts_of_skip hz fun c hc => ⟨?_, ?_, ?_⟩
    · rw [Bool.eq_false_iff]
      intro hspace
      rw [not_of_isSpace (p := isNumberChar) (by decide) hspace] at hc
      cases hc
    · exact beq_eq_false_iff_ne.1 (beq_false_of_class (p := isNumberChar) rfl hc)
    · rw [beq_false_of_class (d := '[') rfl hc, beq_false_of_class (d := ';') rfl hc]
      rfl
  have hquote : (Lexeme.pastSpace z).starts Lexeme.isQuote = false := by
    have hstart := starts_pastSpace_of_skip (Q := fun c => !Lexeme.isQuote c) hz
      (fun _ => not_isQuote_of (P := fun c => c == '[' || c == ';') (by decide)) rfl
    exact Text.not_starts_of_starts (fun c hc => by simpa using hc) hstart
  have hconstant : Lexeme.constant (u ++ z) = some z :=
    constant_append (.inr ⟨[], u, rfl, .inl rfl, .inl (.inr hd)⟩) hnumber hquote
  rw [ht]
  exact ⟨u, (token_eq_some Lexeme.consumes_constant.leaves).2 ⟨rfl, hconstant⟩⟩

/-- An option is not read where a field with the word for options in front is, unless that word is the
type of the field and the field has no options. -/
theorem setting_refuses_field {f : Field} (h : (field t).result = some (.field f, r))
    (hfirst : firstWord t = Keyword.option.word) :
    (setting t).result = none ↔ f.type.name ≠ Keyword.option.word ∨ f.options ≠ [] := by
  obtain ⟨-, -, v₀, v, x, y, z, u, hkey, hv, hname, hmark, hnumber, hoptions, hend⟩ :=
    field_word h hfirst
  rw [setting, result_named, result_bind, hkey, Option.bind_some, result_bind]
  rcases hv with ⟨rfl, hword⟩ | ⟨w, rfl, -, hword⟩
  · have hassign (hz : (skip z).2.starts (fun c => c == '[' || c == ';') = true) :
        ∃ s, (next assignment v₀).result = some (s, z) := by
      obtain ⟨value, hvalue⟩ := next_constant_number hnumber hz
      obtain ⟨ht, hident, hclear, hdot⟩ := exists_name hname hmark
      have hread : Lexeme.optionName (f.name ++ x) = some x :=
        optionName_append (.one (.inl hident)) hclear hdot
      have htoken := (token_eq_some (s := .optionName) Lexeme.consumes_optionName.leaves).2
        ⟨rfl, hread⟩
      rw [result_next, ht]
      exact ⟨⟨f.name, value⟩, bind_eq_some.2 ⟨_, x, htoken, bind_eq_some.2 ⟨(), y, hmark,
        bind_eq_some.2 ⟨value, z, hvalue, rfl⟩⟩⟩⟩
    rcases memberOptions_cases hoptions with ⟨hne, hbracket⟩ | ⟨hnil, rfl⟩
    · obtain ⟨s, hs⟩ := hassign (Text.starts_mono (fun c hc => by simp [hc]) hbracket)
      have hmark : (next (mark ';') z).result = none := by
        rw [result_next]
        exact mark_refuses hbracket rfl
      rw [hs, Option.bind_some, result_bind, hmark]
      exact ⟨fun _ => .inr hne, fun _ => rfl⟩
    · rw [result_next, skip_of_firm (firm_skip z), mark_eq_some] at hend
      obtain ⟨s, hs⟩ := hassign (by rw [hend]; rfl)
      have hmark : (next (mark ';') z).result = some ((), r) := by
        rw [result_next, mark_eq_some]
        exact hend
      rw [hs, Option.bind_some, result_bind, hmark]
      simp [hword, hnil]
  · have hnone : (next assignment ('.' :: w)).result = none := by
      rw [result_next, skip_dot]
      rfl
    rw [hnone]
    exact ⟨fun _ => .inl hword, fun _ => rfl⟩

/-! ## items -/

/-- the statement cannot be taken for ranges: it is no field in a message that begins with a word for
ranges, and no enum value of such a name -/
def Statement.NoRanges (p : Place) : Statement → Prop
  | .field f => p = .message → f.label = none →
      ∀ k ∈ [Keyword.reserved, .extensions], firstWord f.type.name ≠ k.word
  | .enumValue v => v.name ≠ Keyword.reserved.word
  | _ => True

theorem itemAt_field {p : Place} {f : Field} (hp : p.admits (.field f) = true)
    (h : (field t).result = some (.field f, r)) (hranges : Statement.NoRanges p (.field f))
    (hoption : Keyword.option ∈ p.keywords → (setting t).result = none) :
    (itemAt p t).result = some (some (.statement [] (.field f)), r) := by
  have hrefused (k : Keyword) (hk : k ∈ p.keywords) : (itemLedBy k t).result = none := by
    -- where fields are, a keyword begins a block or a map field, an option, or ranges
    have hkind : k ∈ [Keyword.message, .enum, .oneof, .map, .extend] ∨ k = .option ∨
        (p = .message ∧ k ∈ [Keyword.reserved, .extensions]) := by
      cases p with
      | message =>
        have hall : ∀ k ∈ Place.message.keywords, k ∈ [Keyword.message, .enum, .oneof, .map, .extend] ∨
            k = .option ∨ (Place.message = .message ∧ k ∈ [Keyword.reserved, .extensions]) := by decide
        exact hall k hk
      | oneof => exact .inr (.inl (List.mem_singleton.1 hk))
      | extend => cases hk
      | _ => cases hp
    rcases hkind with hk | rfl | ⟨hmessage, hk⟩
    · exact itemLedBy_refuses_field hk h
    · exact ofStatement_of_none (hoption hk)
    · refine itemLedBy_refuses fun hfirst => ?_
      obtain ⟨hlabel, hword, -⟩ := field_word h hfirst
      exact hranges hmessage hlabel k hk hword
  obtain ⟨hothers, -⟩ := p.admits_field hp
  rw [itemAt_eq, oneOf_refused hrefused, hothers,
    oneOf_of_none (ofBlock_of_none (group_refuses_field h))]
  exact oneOf_of_some (ofStatement_of_some h)

/-- An option is not read where an enum value is: behind the word, it has an equals sign. -/
theorem setting_refuses_enumValue {v : EnumValue} (h : (enumValue t).result = some (.enumValue v, r)) :
    firstWord t = v.name ∧ (setting t).result = none := by
  rw [enumValue, result_named] at h
  obtain ⟨name, x, hname, h⟩ := bind_eq_some.1 h
  obtain ⟨_, y, hmark, h⟩ := bind_eq_some.1 h
  have hv : name = v.name := by
    obtain ⟨_, _, _, h⟩ := bind_eq_some.1 h
    obtain ⟨_, _, _, h⟩ := bind_eq_some.1 h
    obtain ⟨_, _, _, h⟩ := bind_eq_some.1 h
    cases h
    rfl
  obtain ⟨rfl, hu, hclear⟩ := ident_parts hname
  have hword : firstWord (name ++ x) = name :=
    (firstWord_append hu.ne_nil hclear).trans hu.firstWord_eq
  refine ⟨hword.trans hv, ?_⟩
  by_cases hoption : name = Keyword.option.word
  · subst hoption
    have hequals : (next assignment x).result = none := by
      rw [result_next, mark_eq_some] at hmark
      rw [result_next, hmark]
      rfl
    rw [setting, result_named, result_bind,
      keyword_word (hclear.not_starts hu.ne_nil hu.all), Option.bind_some, result_bind, hequals]
    rfl
  · have hnone : (keyword .option (name ++ x)).result = none :=
      keyword_refuses (by rwa [hword])
    rw [setting, result_named, result_bind, hnone]
    rfl

theorem itemAt_enumValue {p : Place} {v : EnumValue} (hp : p.admits (.enumValue v) = true)
    (h : (enumValue t).result = some (.enumValue v, r))
    (hranges : Statement.NoRanges p (.enumValue v)) :
    (itemAt p t).result = some (some (.statement [] (.enumValue v)), r) := by
  obtain rfl : p = .enum := by
    cases p <;> first | rfl | cases hp
  obtain ⟨hword, hsetting⟩ := setting_refuses_enumValue h
  have hrefused (k : Keyword) (hk : k ∈ Place.enum.keywords) : (itemLedBy k t).result = none := by
    simp only [Place.keywords, List.mem_cons, List.not_mem_nil, or_false] at hk
    rcases hk with rfl | rfl
    · exact ofStatement_of_none hsetting
    · exact itemLedBy_refuses fun hfirst => hranges (hword.symm.trans hfirst)
  rw [itemAt_eq, oneOf_refused hrefused]
  exact oneOf_of_some (ofStatement_of_some h)

theorem itemAt_of_led {p : Place} {e : Option Element} (hk : k ∈ p.keywords)
    (h : (itemLedBy k t).result = some (e, r)) : (itemAt p t).result = some (e, r) := by
  refine itemAt_keyword hk ?_ h
  by_contra hfirst
  rw [itemLedBy_refuses hfirst] at h
  cases h

/-- Where a field is read and options may stand, no option is. -/
theorem setting_refuses_of_itemAt {p : Place} {f : Field} (hp : Keyword.option ∈ p.keywords)
    (h : (itemAt p t).result = some (some (.statement [] (.field f)), r)) :
    (setting t).result = none := by
  rw [Option.eq_none_iff_forall_ne_some]
  intro x hs
  have hread : (itemAt p t).result = some (some (.statement [] x.1), x.2) :=
    itemAt_of_led hp (ofStatement_of_some hs)
  rw [h] at hread
  have hfield : Statement.field f = x.1 := by
    have hinj := congrArg Prod.fst (Option.some.inj hread)
    simpa using hinj
  have hkind := statementLike_gives (.setting ⟨[], []⟩) t x.1 x.2 hs
  rw [← hfield] at hkind
  cases hkind

end

/-! ## items with lines below -/

section
variable {p : Place} {t r : Text} {escape : Prop}

theorem itemAt_statement_below {s : Statement} (hclosed : s.ClosedText escape)
    (hranges : s.NoRanges p) (hend : t.ends (· == '\\') = false ∨ escape)
    (h : (itemAt p t).result = some (some (.statement [] s), r)) (b : Text) :
    (itemAt p (t ++ '\n' :: b)).result = some (some (.statement [] s), r ++ '\n' :: b) := by
  cases itemAt_readsItems p t _ r h with
  | statement hp hs =>
    have hbelow := statementLike_lasts s t s r b hend hs trivial hclosed
    cases hk : s.keyword? with
    | some k =>
      exact itemAt_of_led (p.admits_keyword hp hk)
        (itemLedBy_statement hk ▸ ofStatement_of_some hbelow)
    | none =>
      cases s with
      | field f =>
        refine itemAt_field hp hbelow hranges fun hmem => ?_
        by_cases hfirst : firstWord (t ++ '\n' :: b) = Keyword.option.word
        · -- whether an option is read there can be told from the field
          have hfirst' : firstWord t = Keyword.option.word := by
            rwa [firstWord_below] at hfirst
          exact (setting_refuses_field hbelow hfirst).2
            ((setting_refuses_field hs hfirst').1 (setting_refuses_of_itemAt hmem h))
        · rw [setting, result_named, result_bind, keyword_refuses hfirst]
          rfl
      | enumValue v => exact itemAt_enumValue hp hbelow hranges
      | _ => cases hk

end
end ProtoDocs
