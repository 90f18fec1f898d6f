import ProtoDocs.Proofs.Grammar.Choice
import ProtoDocs.Proofs.Grammar.Closed

/-!
# Statements and the lines below

A statement or heading that is read off a text is read off it with further lines below, and as the
same, unless it leaves something open in its raw text.

* `Reader.Lasts`       what the reader reads, it reads with lines below; for readers without raw text
                       this is found by instance search;
* `Reader.Opens`       the reader takes no slash, so that a comment left open is not taken for its token;
* `Reader.LastsIf`     the same as `Lasts` where values have a property and a mark follows;
* `Statement.ClosedText`, `Heading.ClosedText`   a declaration leaves nothing open;
* `statementLike_lasts`, `headingLike_lasts`   closed declarations last.
-/

namespace ProtoDocs

open Lexeme (isQuote isSpace pastSpace)
open Reader

/-! ## gaps -/

section
variable {t : Text}

theorem Firm.below (h : Firm t) (hne : t ≠ []) (hopen : ¬ ['/', '*'] <+: t) (b : Text) :
    Firm (t ++ '\n' :: b) := by
  refine ⟨?_, Lexeme.comment_below h.2 hopen⟩
  rw [Text.starts_append hne]
  exact h.1

theorem skip_below (hne : (skip t).2 ≠ []) (hopen : ¬ ['/', '*'] <+: (skip t).2) (b : Text) :
    (skip (t ++ '\n' :: b)).2 = (skip t).2 ++ '\n' :: b := by
  obtain ⟨g, hg, ht⟩ := exists_gap hne
  have hfirm : Firm ((skip t).2 ++ '\n' :: b) := (firm_skip t).below hne hopen b
  calc (skip (t ++ '\n' :: b)).2
      = (skip (g ++ ((skip t).2 ++ '\n' :: b))).2 := by rw [← List.append_assoc, ← ht]
    _ = (skip t).2 ++ '\n' :: b := by rw [skip_gap hg, skip_of_firm hfirm]

theorem Solid.not_opening (h : Solid t) : ¬ ['/', '*'] <+: t := by
  rintro ⟨w, rfl⟩
  simp [Solid] at h

theorem Solid.skip_below (h : Solid (skip t).2) (b : Text) :
    (skip (t ++ '\n' :: b)).2 = (skip t).2 ++ '\n' :: b :=
  ProtoDocs.skip_below h.ne_nil h.not_opening b

end

namespace Reader

variable {α β : Type}

/-! ## readers without raw text -/

/-- what the reader reads off a text, it reads with lines below -/
class Lasts (p : Reader α) : Prop where
  below : ∀ {t x r} (b : Text), (p t).result = some (x, r) →
    (p (t ++ '\n' :: b)).result = some (x, r ++ '\n' :: b)

/-- the reader takes no slash that is not skipped -/
class Opens (p : Reader α) : Prop where
  refuses : ∀ {u}, Firm ('/' :: u) → (p ('/' :: u)).result = none

theorem Opens.solid {p : Reader α} [Consumes p] [Opens p] {t r : Text} {x : α} (ht : Firm t)
    (h : (p t).result = some (x, r)) : Solid t := by
  cases t with
  | nil => exact absurd (Consumes.shorter h) (by simp)
  | cons c t =>
    have hslash : c ≠ '/' := by
      rintro rfl
      rw [Opens.refuses ht] at h
      cases h
    have hspace : isSpace c = false := ht.1
    simp [Solid, hspace, hslash]

instance (a : α) : Lasts (Pure.pure a : Reader α) where
  below b h := by
    cases h
    rfl

instance (p : Reader α) (f : α → Reader β) [Lasts p] [∀ a, Lasts (f a)] : Lasts (p >>= f) where
  below b h := by
    obtain ⟨a, u, hp, hf⟩ := bind_eq_some.1 h
    exact bind_eq_some.2 ⟨a, _, Lasts.below b hp, Lasts.below b hf⟩

instance (s : Symbol) (p : Reader α) [Lasts p] : Lasts (named s p) where
  below b h := by
    rw [result_named] at h ⊢
    exact Lasts.below b h

instance (c : Char) : Lasts (mark c) where
  below b h := by
    rw [mark_eq_some.1 h]
    exact mark_eq_some.2 rfl

instance (p : Reader α) (f : α → Reader β) [Opens p] : Opens (p >>= f) where
  refuses h := by
    rw [result_bind, Opens.refuses h]
    rfl

instance (p : Reader α) (f : Option α → Reader β) [Opens p] [∀ a, Opens (f a)] :
    Opens (Reader.optional p >>= f) where
  refuses h := by
    rw [result_bind, optional_of_none (Opens.refuses h)]
    exact Opens.refuses h

instance (s : Symbol) (p : Reader α) [Opens p] : Opens (named s p) where
  refuses h := by
    rw [result_named]
    exact Opens.refuses h

instance (p : Reader α) [Opens p] : Opens (next p) where
  refuses h := by
    rw [result_next, skip_of_firm h]
    exact Opens.refuses h

/-- What is read behind a gap is read with lines below, if it begins with a token. -/
instance (p : Reader α) [Lasts p] [Opens p] [Consumes p] : Lasts (next p) where
  below b h := by
    rw [result_next] at h ⊢
    rw [(Opens.solid (firm_skip _) h).skip_below]
    exact Lasts.below b h

theorem result_next_bind (p : Reader α) (f : α → Reader β) (t : Text) :
    ((next p >>= f) t).result = ((p >>= f) (skip t).2).result := by
  rw [result_bind, result_bind, result_next]

/-- It may be that what stands behind a gap begins with something that need not be there. -/
instance (p : Reader α) (f : Option α → Reader β) [Lasts (Reader.optional p >>= f)]
    [Opens (Reader.optional p >>= f)] [Consumes (Reader.optional p >>= f)] :
    Lasts (next (Reader.optional p) >>= f) where
  below b h := by
    rw [result_next_bind] at h ⊢
    rw [(Opens.solid (firm_skip _) h).skip_below]
    exact Lasts.below b h

/-- what the reader refuses, it refuses with lines below -/
class Stays (p : Reader α) : Prop extends Lasts p where
  refuses : ∀ {t} (b : Text), (p t).result = none → (p (t ++ '\n' :: b)).result = none

instance (p : Reader α) (f : α → β) [Stays p] : Stays (p >>= fun a => Pure.pure (f a)) where
  refuses {t} b h := by
    have hp : (p t).result = none := by
      rw [result_bind] at h
      cases hx : (p t).result with
      | none => rfl
      | some x => simp [hx] at h
    rw [result_bind, Stays.refuses b hp]
    rfl

instance (p : Reader α) [Stays p] : Lasts (Reader.optional p) where
  below {t x r} b hx := by
    cases hp : (p t).result with
    | none =>
      rw [optional_of_none hp] at hx
      cases hx
      exact optional_of_none (Stays.refuses b hp)
    | some y =>
      rw [optional_of_some (a := y.1) (r := y.2) hp] at hx
      cases hx
      exact optional_of_some (Lasts.below b hp)

/-! ### tokens -/

theorem lasts_token (s : Symbol) {p : Scan} (hp : p.Leaves)
    (h : ∀ {t r} b, p t = some r → p (t ++ '\n' :: b) = some (r ++ '\n' :: b)) :
    Lasts (token s p) where
  below {t x r} b hx := by
    obtain ⟨rfl, hr⟩ := (token_eq_some hp).1 hx
    have hbelow := h b hr
    rw [List.append_assoc] at hbelow ⊢
    exact (token_eq_some hp).2 ⟨rfl, hbelow⟩

theorem opens_token (s : Symbol) {p : Scan} (h : ∀ u, p ('/' :: u) = none) :
    Opens (token s p) where
  refuses {u} _ := by
    rw [result_token, h u]
    rfl

section
open Scan Lexeme

instance (k : Keyword) : Lasts (keyword k) := by
  have := lasts_token (.keyword k) (consumes_keyword k).leaves
    fun _ => (steady_wholeWord k.isIdent_word).of_some
  unfold keyword
  infer_instance

instance : Lasts Reader.ident := lasts_token _ consumes_ident.leaves fun _ => steady_ident.of_some

instance : Lasts (token .fullIdent Lexeme.fullIdent) :=
  lasts_token _ consumes_fullIdent.leaves fun _ => steady_fullIdent.of_some

instance : Lasts (token .typeRef Lexeme.typeRef) :=
  lasts_token _ consumes_typeRef.leaves fun _ => steady_typeRef.of_some

instance : Lasts (token .optionName Lexeme.optionName) :=
  lasts_token _ consumes_optionName.leaves fun _ => steady_optionName.of_some

instance : Lasts (token .fieldNumber Lexeme.fieldNumber) :=
  lasts_token _ consumes_intLit.leaves fun _ => steady_intLit.of_some

instance : Lasts (token .enumNumber Lexeme.enumNumber) :=
  lasts_token _ consumes_enumNumber.leaves fun _ => steady_enumNumber.of_some

instance : Lasts (token .stringLit Lexeme.stringLit) :=
  lasts_token _ consumes_stringLit.leaves fun b h => stringLit_of_some h ('\n' :: b)

instance (k : Keyword) : Opens (keyword k) := by
  have := opens_token (.keyword k) (p := Lexeme.keyword k) (by cases k <;> intro u <;> rfl)
  unfold keyword
  infer_instance

instance : Opens Reader.ident := opens_token _ fun _ => rfl

instance : Opens (token .fullIdent Lexeme.fullIdent) := opens_token _ fun _ => rfl

instance : Opens (token .typeRef Lexeme.typeRef) := opens_token _ fun _ => rfl

instance : Opens (token .optionName Lexeme.optionName) := opens_token _ fun _ => rfl

instance : Opens (token .fieldNumber Lexeme.fieldNumber) := opens_token _ fun _ => rfl

instance : Opens (token .enumNumber Lexeme.enumNumber) := opens_token _ fun _ => rfl

instance : Opens (token .stringLit Lexeme.stringLit) := opens_token _ fun _ => rfl

instance : Opens (token .constant Lexeme.constant) := opens_token _ fun _ => rfl

instance : Opens (token .label Lexeme.label) := opens_token _ fun _ => rfl

instance : Opens (token .stream Lexeme.stream) := opens_token _ fun _ => rfl

instance : Opens (token .importModifier Lexeme.importModifier) := opens_token _ fun _ => rfl

theorem stays_token (s : Symbol) {p : Scan} (hp : p.Leaves) (h : ∀ b, p.Steady b) :
    Stays (token s p) where
  toLasts := lasts_token s hp fun b => (h b).of_some
  refuses {t} b hnone := by
    rw [result_token, Option.map_eq_none_iff] at hnone
    rw [result_token, (h b).of_none hnone]
    rfl

instance : Stays (token .label Lexeme.label) :=
  stays_token _ consumes_label.leaves fun _ => (steady_wholeWord Label.optional.isIdent_word).or
    ((steady_wholeWord Label.required.isIdent_word).or
      (steady_wholeWord Label.repeated.isIdent_word))

instance : Stays (token .importModifier Lexeme.importModifier) :=
  stays_token _ consumes_importModifier.leaves fun _ =>
    (steady_wholeWord ImportModifier.weak.isIdent_word).or
      (steady_wholeWord ImportModifier.shared.isIdent_word)

instance : Stays (token .stream Lexeme.stream) :=
  stays_token _ consumes_stream.leaves fun _ => steady_wholeWord isIdent_stream

end

/-! ### statements and headings -/

theorem opens_mark {c : Char} (hc : c ≠ '/') : Opens (mark c) where
  refuses _ := mark_refuses (P := (· == '/')) rfl (beq_eq_false_iff_ne.2 hc)

instance : Opens (mark '=') := opens_mark (by decide)

instance : Opens (mark ';') := opens_mark (by decide)

instance : Opens (mark ',') := opens_mark (by decide)

instance : Opens (mark '<') := opens_mark (by decide)

instance : Opens (mark '>') := opens_mark (by decide)

instance : Opens (mark '(') := opens_mark (by decide)

instance : Opens (mark ')') := opens_mark (by decide)

instance : Opens (mark ']') := opens_mark (by decide)

instance : Lasts string := by unfold string; infer_instance

instance : Opens string := by unfold string; infer_instance

instance : Lasts typeRef := by unfold typeRef; infer_instance

instance : Opens typeRef := by unfold typeRef; infer_instance

instance : Lasts fieldNumber := by unfold fieldNumber; infer_instance

instance : Opens fieldNumber := by unfold fieldNumber; infer_instance

instance : Lasts enumNumber := by unfold enumNumber; infer_instance

instance : Opens enumNumber := by unfold enumNumber; infer_instance

instance : Stays label := by unfold label; infer_instance

instance : Opens label := by unfold label; infer_instance

instance : Stays importModifier := by unfold importModifier; infer_instance

instance : Opens importModifier := by unfold importModifier; infer_instance

instance : Lasts language := by unfold language; infer_instance

instance : Lasts edition := by unfold edition; infer_instance

instance : Lasts package := by unfold package; infer_instance

instance : Lasts importing := by unfold importing; infer_instance

instance : Lasts side := by unfold side; infer_instance

instance : Opens side := by unfold side; infer_instance

instance : Lasts sideInParens := by unfold sideInParens; infer_instance

instance : Opens sideInParens := by unfold sideInParens; infer_instance

/-! ## readers with raw text -/

/-- What the reader reads off a text, it reads with lines below, if the value has the property `C` and
what is left the property `R`.  No backslash stands at the end of the text, unless `escape` says that
this was thought of. -/
def LastsIf (escape : Prop) (R : Text → Prop) (C : α → Prop) (p : Reader α) : Prop :=
  ∀ t x r b, (t.ends (· == '\\') = false ∨ escape) → (p t).result = some (x, r) → R r → C x →
    (p (t ++ '\n' :: b)).result = some (x, r ++ '\n' :: b)

/-- where the reader succeeds, the text has the property `S` if what is left has `R` -/
def Leads (R S : Text → Prop) (p : Reader α) : Prop :=
  ∀ t x r, (p t).result = some (x, r) → R r → S t

namespace LastsIf

variable {escape : Prop} {R S : Text → Prop} {C : α → Prop} {p : Reader α}

theorem of_lasts [Lasts p] : LastsIf escape R C p := fun _ _ _ b _ h _ _ => Lasts.below b h

theorem bind [Leaves p] {D : β → Prop} {f : α → Reader β} (hp : LastsIf escape S C p)
    (hf : ∀ a, LastsIf escape R D (f a)) (hR : ∀ a, Leads R S (f a))
    (hC : ∀ a, Gives (f a) fun x => D x → C a) : LastsIf escape R D (p >>= f) := by
  intro t x r b hend h hr hx
  obtain ⟨a, u, hu, h⟩ := bind_eq_some.1 h
  have hend' := hend.imp_left (Text.ends_of_suffix (Leaves.suffix hu))
  exact bind_eq_some.2 ⟨a, _, hp t a u b hend hu (hR a u x r h hr) (hC a u x r h hx),
    hf a u x r b hend' h hr hx⟩

/-- In front of raw text, all is read as without lines below. -/
theorem step [Leaves p] [Lasts p] {D : β → Prop} {f : α → Reader β}
    (hf : ∀ a, LastsIf escape R D (f a)) : LastsIf escape R D (p >>= f) :=
  bind (S := fun _ => True) (C := fun _ => True) of_lasts hf (fun _ _ _ _ _ _ => trivial)
    fun _ _ _ _ _ _ => trivial

theorem named {s : Symbol} (h : LastsIf escape R C p) : LastsIf escape R C (Reader.named s p) := by
  intro t x r b hend hx
  rw [result_named] at hx ⊢
  exact h t x r b hend hx

theorem next [Consumes p] [Opens p] (h : LastsIf escape R C p) :
    LastsIf escape R C (Reader.next p) := by
  intro t x r b hend hx
  rw [result_next] at hx ⊢
  rw [(Opens.solid (firm_skip _) hx).skip_below]
  exact h _ x r b (hend.imp_left (Text.ends_of_suffix (skip_suffix t))) hx

/-- Values in a row last if each does, and none could be read where they end. -/
theorem many [Consumes p] (h : LastsIf escape S C p) (hlead : Leads (fun _ => True) S p)
    (hR : ∀ r, R r → S r) (hstop : ∀ r b, R r → (p (r ++ '\n' :: b)).result = none) :
    LastsIf escape R (fun xs => ∀ x ∈ xs, C x) (Reader.many p) := by
  have hrow (t : Text) (b : Text) (hend : t.ends (· == '\\') = false ∨ escape)
      (hr : R (repeated p t).1.2) (hC : ∀ x ∈ (repeated p t).1.1, C x) :
      (repeated p (t ++ '\n' :: b)).1 =
        ((repeated p t).1.1, (repeated p t).1.2 ++ '\n' :: b) := by
    -- on the length of the text: value by value, up to where `hstop` says that none begins
    induction hn : t.length using Nat.strong_induction_on generalizing t with
    | _ n ih =>
    subst hn
    cases hp : (p t).result with
    | none =>
      rw [repeated_of_none hp] at hr ⊢
      exact repeated_of_none (hstop t b hr)
    | some y =>
      obtain ⟨y, u⟩ := y
      have hsuffix : u <:+ t := Leaves.suffix hp
      have hu := ih u.length (Consumes.shorter hp) u
        (hend.imp_left (Text.ends_of_suffix hsuffix))
      rw [repeated_of_some hp] at hr hC ⊢
      rw [List.forall_mem_cons] at hC
      have hRu : S u := by
        cases hnext : (p u).result with
        | none =>
          rw [repeated_of_none hnext] at hr
          exact hR u hr
        | some z => exact hlead u z.1 z.2 hnext trivial
      rw [repeated_of_some (h t y u b hend hp hRu hC.1), hu hr hC.2 rfl]
  intro t xs r b hend hx hr hC
  rw [result_many] at hx ⊢
  obtain ⟨hxs, hrest⟩ := Prod.mk.inj (Option.some.inj hx)
  rw [hrow t b hend (by rwa [hrest]) (by rwa [hxs]), hxs, hrest]

end LastsIf

/-! ### options -/

/-- what stands behind the value of an option or the options of a member, apart from a gap -/
def isMark (c : Char) : Bool := c == ';' || c == ',' || c == ']' || c == '{'

def Marked (t : Text) : Prop := (skip t).2.starts isMark = true

theorem Marked.solid {t : Text} (h : Marked t) : Solid (skip t).2 := .of_starts h (by decide)

variable {p : Reader α}

theorem leads_pure {R : Text → Prop} (a : α) : Leads R R (Pure.pure a : Reader α) := by
  intro t x r h hr
  cases h
  exact hr

theorem leads_class {c : Char} {P : Char → Bool} (hc : P c = true) {R : Text → Prop}
    {f : Unit → Reader β} :
    Leads R (fun t => (skip t).2.starts P = true) (next (mark c) >>= f) := by
  intro t x r h _
  obtain ⟨_, u, hu, -⟩ := bind_eq_some.1 h
  rw [result_next, mark_eq_some] at hu
  rw [hu]
  exact hc

theorem leads_mark {c : Char} (hc : isMark c = true) {R : Text → Prop} {f : Unit → Reader β} :
    Leads R Marked (next (mark c) >>= f) := leads_class hc

/-- What values in a row lead to is what one of them does, or what stands behind them if there are
none. -/
theorem Leads.many [Consumes p] {R S : Text → Prop} {f : List α → Reader β}
    (hp : Leads (fun _ => True) S p) (hf : Leads R S (f [])) :
    Leads R S (Reader.many p >>= f) := by
  intro t x r h hr
  cases hnext : (p t).result with
  | none =>
    rw [result_bind, result_many, repeated_of_none hnext] at h
    exact hf t x r h hr
  | some y => exact hp t y.1 y.2 hnext trivial

theorem starts_pastSpace_of_skip {P Q : Char → Bool} {t : Text} (h : (skip t).2.starts P = true)
    (hPQ : ∀ c, P c = true → Q c = true) (hslash : Q '/' = true) :
    (pastSpace t).starts Q = true := by
  rw [skip.eq_def] at h
  split at h
  · exact Text.starts_mono hPQ h
  · rename_i r hr
    obtain ⟨c, hc, hbefore⟩ := comment_eq_some_iff.1 hr
    obtain ⟨d, rfl⟩ := hbefore.exists_slash
    rw [hc]
    exact hslash

theorem not_isQuote_of {P : Char → Bool} (hP : ∀ c ∈ "\"\x27".toList, P c = false) {c : Char}
    (hc : P c = true) : (!isQuote c) = true := by
  rw [Bool.not_eq_true', Bool.eq_false_iff]
  intro hq
  rw [not_of_isQuote hP hq] at hc
  cases hc

variable {escape : Prop}

theorem constant_lasts :
    LastsIf escape Marked (Closed escape) (token .constant Lexeme.constant) := by
  intro t v r b hend h hr hv
  obtain ⟨rfl, hread⟩ := (token_eq_some Lexeme.consumes_constant.leaves).1 h
  have hbelow := constant_below (b := b) hread hv hend
    (starts_pastSpace_of_skip hr (fun _ => not_isQuote_of (by decide)) rfl)
  rw [List.append_assoc] at hbelow ⊢
  exact (token_eq_some Lexeme.consumes_constant.leaves).2 ⟨rfl, hbelow⟩

theorem assignment_lasts :
    LastsIf escape Marked (fun s => Closed escape s.value) assignment :=
  .step fun _ => .step fun _ => .bind constant_lasts.next (fun _ => .of_lasts)
    (fun _ => leads_pure _) fun _ => .pure id

instance : Opens assignment := by unfold assignment; infer_instance

instance : Opens fieldOption := by unfold fieldOption; infer_instance

theorem fieldOption_lasts :
    LastsIf escape Marked (fun o => Closed escape o.value) fieldOption :=
  .named (.bind assignment_lasts (fun _ => .of_lasts) (fun _ => leads_pure _) fun _ => .pure id)

theorem fieldOptions_lasts :
    LastsIf escape (fun _ => True) (fun os => ∀ o ∈ os, Closed escape o.value) fieldOptions := by
  have hmore : LastsIf escape (fun r => (skip r).2.starts (· == ']') = true)
      (fun os => ∀ o ∈ os, Closed escape o.value)
      (many (do next (mark ','); next fieldOption)) := by
    refine .many (S := Marked) (.step fun _ => fieldOption_lasts.next) (leads_mark rfl) ?_ ?_
    · intro r hr
      exact Text.starts_mono (fun c hc => by rw [beq_iff_eq.1 hc]; rfl) hr
    · intro r b hr
      have hsolid : Solid (skip r).2 := .of_starts hr (by decide)
      have hmark : (next (mark ',') (r ++ '\n' :: b)).result = none := by
        rw [result_next, hsolid.skip_below]
        exact mark_refuses (Text.starts_append_of hr _) rfl
      rw [result_bind, hmark]
      rfl
  refine .named (.step fun _ => .bind fieldOption_lasts.next (fun o => ?_)
    (fun o => (leads_mark rfl).many (leads_mark rfl)) fun o => .step fun _ => .step fun _ => .pure ?_)
  · refine .bind hmore (fun _ => .of_lasts) (fun _ => leads_class rfl)
      fun _ => .step fun _ => .pure fun hos => ?_
    rw [List.forall_mem_cons] at hos
    exact hos.2
  · intro hos
    rw [List.forall_mem_cons] at hos
    exact hos.1

theorem exists_of_fieldOptions {t : Text} {x : List MemberOption × Text}
    (h : (fieldOptions t).result = some x) : ∃ u, t = '[' :: u := by
  rw [fieldOptions, result_named] at h
  obtain ⟨_, u, hu, -⟩ := bind_eq_some.1 h
  exact ⟨u, mark_eq_some.1 hu⟩

theorem memberOptions_eq_some {t r : Text} {os : List MemberOption} :
    (memberOptions t).result = some (os, r) ↔
      (fieldOptions t).result = some (os, r) ∨
        (fieldOptions t).result = none ∧ os = [] ∧ r = t := by
  rw [memberOptions, result_bind]
  cases hf : (fieldOptions t).result with
  | none =>
    rw [optional_of_none hf]
    simp [eq_comm]
  | some x =>
    rw [optional_of_some (a := x.1) (r := x.2) hf]
    simp [Prod.ext_iff]

theorem memberOptions_lasts :
    LastsIf escape Marked (fun os => ∀ o ∈ os, Closed escape o.value) (next memberOptions) := by
  intro t os r b hend h hr hos
  have hend' := hend.imp_left (Text.ends_of_suffix (skip_suffix t))
  rw [result_next] at h ⊢
  rcases memberOptions_eq_some.1 h with hf | ⟨-, rfl, rfl⟩
  · have hsolid : Solid (skip t).2 := by
      obtain ⟨u, hu⟩ := exists_of_fieldOptions hf
      rw [hu]
      rfl
    have hlasts : LastsIf escape _ _ fieldOptions := fieldOptions_lasts
    rw [hsolid.skip_below]
    exact memberOptions_eq_some.2 (.inl (hlasts _ _ _ b hend' hf trivial hos))
  · -- the mark that follows is no bracket
    have hmark : (skip t).2.starts isMark = true := by
      rw [Marked, skip_of_firm (firm_skip t)] at hr
      exact hr
    have hsolid : Solid (skip t).2 := .of_starts hmark (by decide)
    have hnone : (fieldOptions ((skip t).2 ++ '\n' :: b)).result = none := by
      have hbracket : (mark '[' ((skip t).2 ++ '\n' :: b)).result = none :=
        mark_refuses (Text.starts_append_of hmark _) rfl
      rw [fieldOptions, result_named, result_bind, hbracket]
      rfl
    rw [hsolid.skip_below]
    exact memberOptions_eq_some.2 (.inr ⟨hnone, rfl, rfl⟩)

/-! ### ranges -/

/-- What begins like a comment is taken for ranges as far as it does so. -/
theorem opening_of_rangeBody {w r : Text} (h : Lexeme.rangeBody (w ++ r) = some r)
    (hopen : ['/', '*'] <+: w ++ r) : ['/', '*'] <+: w := by
  have hitem : (Lexeme.stringLit.or (Scan.char (· != ';'))).Consumes :=
    Lexeme.consumes_stringLit.or (Scan.consumes_char _)
  obtain ⟨z, hz⟩ := hopen
  have hr : r <:+ z := by
    rw [← hz] at h
    obtain ⟨u, hu, hrest⟩ := Scan.seq_eq_some_iff.1 h
    obtain rfl : '*' :: z = u := Option.some.inj hu
    rw [← Option.some.inj hrest, Scan.rest_of_some hitem (r := z) rfl]
    exact hitem.leaves.rest_suffix z
  have hlen := congrArg List.length hz
  have hle := hr.length_le
  simp only [List.length_append, List.length_cons, List.length_nil] at hlen
  exact List.prefix_of_prefix_length_le ⟨z, hz⟩ (List.prefix_append w r)
    (by simp only [List.length_cons, List.length_nil]; omega)

theorem ranges_lasts :
    LastsIf escape Marked (fun v => ¬ ['/', '*'] <+: v ∧ (escape → RangeText v)) (next ranges) := by
  intro t v r b hend h hr hv
  rw [result_next] at h ⊢
  obtain ⟨w, u, hw, h⟩ := bind_eq_some.1 h
  cases h
  obtain ⟨ht, hread⟩ := (token_eq_some Lexeme.consumes_rangeBody.leaves).1 hw
  obtain ⟨hopen, htext⟩ := hv
  have hne : r ≠ [] := by
    rintro rfl
    have hsolid := hr.solid
    rw [skip_of_firm ⟨rfl, rfl⟩] at hsolid
    exact absurd hsolid (by decide)
  have hopen' : ¬ ['/', '*'] <+: (skip t).2 := by
    rw [ht]
    exact fun h => hopen (Text.prefix_trim (by decide) (by decide) (opening_of_rangeBody hread h))
  have hend' : (w ++ r).ends (· == '\\') = false ∨ RangeText w.trim := by
    rw [← ht]
    exact (hend.imp_left (Text.ends_of_suffix (skip_suffix t))).imp_right htext
  have hbelow := rangeBody_below (b := b) hread hne hend'
  rw [skip_below (by rw [ht]; simp [hne]) hopen', ht]
  rw [List.append_assoc] at hbelow ⊢
  exact bind_eq_some.2 ⟨w, _, (token_eq_some Lexeme.consumes_rangeBody.leaves).2 ⟨rfl, hbelow⟩, rfl⟩

end Reader

/-! ## declarations -/

/-- the raw text in the statement leaves nothing open -/
def Statement.ClosedText (escape : Prop) : Statement → Prop
  | .setting s => Closed escape s.value
  | .field f => ∀ o ∈ f.options, Closed escape o.value
  | .mapField m => ∀ o ∈ m.options, Closed escape o.value
  | .enumValue v => ∀ o ∈ v.options, Closed escape o.value
  | .reserved ranges | .extensions ranges =>
    ¬ ['/', '*'] <+: ranges ∧ (escape → RangeText ranges)
  | _ => True

def Heading.ClosedText (escape : Prop) : Heading → Prop
  | .group _ _ _ options => ∀ o ∈ options, Closed escape o.value
  | _ => True

section
variable {escape : Prop}

theorem statementLike_lasts (s : Statement) :
    LastsIf escape (fun _ => True) (Statement.ClosedText escape) (statementLike s) := by
  cases s with
  | language version => exact .of_lasts (p := language)
  | edition version => exact .of_lasts (p := edition)
  | package name => exact .of_lasts (p := package)
  | importing path modifier => exact .of_lasts (p := importing)
  | setting s =>
    exact .named (.step fun _ => .bind assignment_lasts.next (fun _ => .of_lasts)
      (fun _ => leads_mark rfl) fun _ => .step fun _ => .pure id)
  | field f =>
    exact .named (.step fun _ => .step fun _ => .step fun _ => .step fun _ => .step fun _ =>
      .bind memberOptions_lasts (fun _ => .of_lasts) (fun _ => leads_mark rfl)
        fun _ => .step fun _ => .pure id)
  | mapField m =>
    exact .named (.step fun _ => .step fun _ => .step fun _ => .step fun _ => .step fun _ =>
      .step fun _ => .step fun _ => .step fun _ => .step fun _ =>
        .bind memberOptions_lasts (fun _ => .of_lasts) (fun _ => leads_mark rfl)
          fun _ => .step fun _ => .pure id)
  | enumValue v =>
    exact .named (.step fun _ => .step fun _ => .step fun _ =>
      .bind memberOptions_lasts (fun _ => .of_lasts) (fun _ => leads_mark rfl)
        fun _ => .step fun _ => .pure id)
  | reserved ranges =>
    exact .named (.step fun _ => .bind ranges_lasts (fun _ => .of_lasts)
      (fun _ => leads_mark rfl) fun _ => .step fun _ => .pure id)
  | extensions ranges =>
    exact .named (.step fun _ => .bind ranges_lasts (fun _ => .of_lasts)
      (fun _ => leads_mark rfl) fun _ => .step fun _ => .pure id)

theorem headingLike_lasts (h : Heading) :
    LastsIf escape Marked (Heading.ClosedText escape) (headingLike h) := by
  cases h with
  | message name => exact .step fun _ => .of_lasts
  | enum name => exact .step fun _ => .of_lasts
  | service name => exact .step fun _ => .of_lasts
  | method name input output => exact .step fun _ => .of_lasts
  | oneof name => exact .step fun _ => .of_lasts
  | group name number label options =>
    exact .step fun _ => .step fun _ => .step fun _ => .step fun _ => .step fun _ =>
      .bind memberOptions_lasts (fun _ => .of_lasts) (fun _ => leads_pure _) fun _ => .pure id
  | extend type => exact .step fun _ => .of_lasts

end
end ProtoDocs
