import ProtoDocs.Proofs.Grammar.Layout
import ProtoDocs.Proofs.Grammar.Numeral

/-!
# What is well-formed can be written

Every well-formed row of elements has a text: numbers in decimal, one space between tokens, and
a line end behind every comment.

* `exists_spellsNatural`, `exists_spellsInteger`   every number in range has a spelling;
* `exists_begins`      tokens can be laid out;
* `exists_written`     elements can be written.
-/

namespace ProtoDocs

open Lexeme Number

/-! ## numbers -/

theorem exists_spellsNatural {n : Nat} (h : n < 0x100000000) : ∃ u, SpellsNatural n u := by
  obtain ⟨hnatural, hvalue⟩ := natural?_of_mem (u := Nat.toDigits 10 n) List.mem_cons_self
  obtain ⟨hinteger, hnumber⟩ := value?_of_mem (v := n) (u := Nat.toDigits 10 n) List.mem_cons_self
  refine ⟨Nat.toDigits 10 n, hnatural, ?_⟩
  have hexact := Slot.field.number_eq hinteger
  rw [hnumber, exactOrZero_some, if_pos ⟨by omega, by omega⟩] at hexact
  exact Int.ofNat.inj hexact

theorem exists_spellsInteger {n : Int} (h : -0x80000000 ≤ n ∧ n < 0x80000000) :
    ∃ u, SpellsInteger n u := by
  obtain ⟨u, hu⟩ : ∃ u, u ∈ spellings n := by
    unfold spellings
    split
    · exact ⟨_, List.mem_cons_self⟩
    · exact ⟨_, List.mem_cons_self⟩
  obtain ⟨hinteger, hvalue⟩ := value?_of_mem hu
  refine ⟨u, hinteger, ?_⟩
  show Slot.enumValue.number u = n
  rw [Slot.number_eq _ hinteger, hvalue, exactOrZero_some]
  exact if_pos h

/-! ## tokens in a row -/

theorem clear_space (u t : Text) : Clear u (' ' :: t) := clear_of_not_starts rfl

theorem clear_mark {c : Char} (hc : isIdentChar c = false) (t : Text) : Clear [c] t := by
  intro h
  simp [Text.ends, hc] at h

theorem exists_ahead (rest : Text) (us : List Text) {c : Char} (hc : isIdentChar c = false) :
    ∃ t, Ahead rest (us ++ [[c]]) (' ' :: t) := by
  induction us with
  | nil => exact ⟨[c] ++ rest, .cons (g := [' ']) (.space rfl .nil) (clear_mark hc rest) .nil⟩
  | cons u us ih =>
    obtain ⟨t, ht⟩ := ih
    exact ⟨u ++ ' ' :: t, .cons (g := [' ']) (.space rfl .nil) (clear_space u t) ht⟩

/-- Tokens up to a mark can be laid out, with spaces between them. -/
theorem exists_begins (rest : Text) (us : List Text) {c : Char} (hc : isIdentChar c = false) :
    ∃ t, Begins rest (us ++ [[c]]) t := by
  cases us with
  | nil => exact ⟨[c] ++ rest, rest, rfl, clear_mark hc rest, .nil⟩
  | cons u us =>
    obtain ⟨t, ht⟩ := exists_ahead rest us hc
    exact ⟨u ++ ' ' :: t, ' ' :: t, rfl, clear_space u t, ht⟩

/-! ## declarations -/

theorem TypeRef.exists_spelling (type : TypeRef) : ∃ u, type.Spelling u := by
  cases type with
  | scalar s => exact ⟨s.name, rfl⟩
  | named n => exact ⟨n, .inl rfl⟩

theorem Side.exists_tokens (s : Side) : ∃ us, s.Tokens us := by
  rcases s with ⟨type, _ | _⟩
  · exact ⟨_, .plain (.inl rfl)⟩
  · exact ⟨_, .stream (.inl rfl)⟩

theorem Statement.exists_written {s : Statement} (h : s.WellFormed) (rest : Text) :
    ∃ t, s.Written t rest := by
  have htokens (us : List Text) (hs : s.Tokens (us ++ [[';']])) : ∃ t, s.Written t rest := by
    obtain ⟨t, ht⟩ := exists_begins rest us (c := ';') rfl
    exact ⟨t, .tokens hs ht⟩
  have hranges {word ranges : Text} (hs : s.rangeWord? = some (word, ranges)) :
      ∃ t, s.Written t rest :=
    ⟨_, .ranges (b := []) hs (.space (c := ' ') rfl .nil) (clear_space word ranges) (by simp) rfl⟩
  cases s with
  | language v =>
    obtain ⟨u, hu⟩ := h
    exact htokens [_, _, _] (.language hu)
  | edition v =>
    obtain ⟨u, hu⟩ := h
    exact htokens [_, _, _] (.edition hu)
  | package name => exact htokens [_, _] (.package name)
  | importing path modifier =>
    obtain ⟨u, hu⟩ := h
    refine htokens (Keyword.importing.word ::
      ((modifier.map ImportModifier.word).toList ++ [u])) ?_
    simpa using Tokens.importing modifier hu
  | setting o => exact htokens (_ :: o.tokens) (.setting o)
  | field f =>
    obtain ⟨_, hnumber, _, _⟩ := h
    obtain ⟨type, htype⟩ := f.type.exists_spelling
    obtain ⟨number, hnumber⟩ := exists_spellsNatural hnumber
    refine htokens ((f.label.map Label.word).toList ++
      (type :: f.name :: ['='] :: number :: optionTokens f.options)) ?_
    simpa using Tokens.field htype hnumber
  | mapField m =>
    obtain ⟨_, hnumber, _, _⟩ := h
    obtain ⟨key, hkey⟩ := m.key.exists_spelling
    obtain ⟨value, hvalue⟩ := m.value.exists_spelling
    obtain ⟨number, hnumber⟩ := exists_spellsNatural hnumber
    exact htokens (_ :: _ :: _ :: _ :: _ :: _ :: _ :: _ :: _ :: optionTokens m.options)
      (.mapField hkey hvalue hnumber)
  | enumValue v =>
    obtain ⟨_, _, _, hnumber, _⟩ := h
    obtain ⟨number, hnumber⟩ := exists_spellsInteger hnumber
    exact htokens (_ :: _ :: _ :: optionTokens v.options) (.enumValue hnumber)
  | reserved ranges => exact hranges rfl
  | extensions ranges => exact hranges rfl

theorem Heading.exists_tokens {h : Heading} (hwf : h.WellFormed) : ∃ us, h.Tokens us := by
  cases h with
  | message name => exact ⟨_, .message name⟩
  | enum name => exact ⟨_, .enum name⟩
  | service name => exact ⟨_, .service name⟩
  | method name input output =>
    obtain ⟨us, hus⟩ := input.exists_tokens
    obtain ⟨vs, hvs⟩ := output.exists_tokens
    exact ⟨_, .method hus hvs⟩
  | oneof name => exact ⟨_, .oneof name⟩
  | group name number label options =>
    obtain ⟨number, hnumber⟩ := exists_spellsNatural hwf.2.1
    exact ⟨_, .group label options hnumber⟩
  | extend type => exact ⟨_, .extend (.inl rfl)⟩

/-- Well-formed elements can be written in front of any text. -/
theorem exists_written {p : Place} {es : List Element} (h : WellFormed p es) (rest : Text) :
    ∃ t, Written es t rest := by
  induction h generalizing rest with
  | nil p => exact ⟨rest, .nil⟩
  | comment hc _ ih =>
    obtain ⟨t, ht⟩ := ih rest
    refine ⟨_ ++ '\n' :: t, .comment ?_ (.filler rfl ht)⟩
    exact hc.imp (fun hline => ⟨hline, fun _ => rfl⟩) id
  | statement _ hs _ ih =>
    obtain ⟨u, hu⟩ := ih rest
    obtain ⟨t, ht⟩ := Statement.exists_written hs u
    exact ⟨t, .statement ht hu⟩
  | block _ hh _ _ ihbody ih =>
    obtain ⟨u, hu⟩ := ih rest
    obtain ⟨inside, hinside⟩ := ihbody ('}' :: u)
    obtain ⟨us, hus⟩ := Heading.exists_tokens hh
    obtain ⟨t, ht⟩ := exists_begins inside us (c := '{') rfl
    exact ⟨t, .block hus ht hinside hu⟩

end ProtoDocs
