import ProtoDocs.Proofs.Element.Attach
import ProtoDocs.Proofs.Grammar.Names

/-!
# The shape of parsed files

Whatever text is read, the elements at each place are of the kinds that the place admits.  Their
names are identifiers, their types dotted names without a dot in front, the comments among them are
comments as they can be written, their options have names and values, and nothing is attached to
anything yet.

* `Statement.ProperOptions`, `Heading.ProperOptions`   the options of a declaration are proper;
* `statementLike_options`, `headingLike_options`   what holds of all assignments holds of all options;
* `Shaped p es`      at the place `p`, the elements `es` are such, and so is everything in them;
* `Reading.shaped`   what is read at a place is;
* `parse_shaped`     a file is.
-/

namespace ProtoDocs

open Reader

def Setting.Proper (s : Setting) : Prop := IsOptionName s.name ∧ s.value ≠ []

/-- a proper option that no comments are attached to -/
def MemberOption.Proper (o : MemberOption) : Prop := o.toSetting.Proper ∧ o.comments = []

/-- the option that the statement is, or those in its brackets, are proper -/
def Statement.ProperOptions : Statement → Prop
  | .setting s => s.Proper
  | .field f => ∀ o ∈ f.options, o.Proper
  | .mapField m => ∀ o ∈ m.options, o.Proper
  | .enumValue v => ∀ o ∈ v.options, o.Proper
  | _ => True

def Heading.ProperOptions : Heading → Prop
  | .group _ _ _ options => ∀ o ∈ options, o.Proper
  | _ => True

/-- At the place, each element is of a kind that the place admits, and what is in a block is of the
kinds that the block admits.  Names are identifiers and types dotted names.  A comment is two
slashes and a text on one line, or all up to the first end of a block.  Options have names and
values.  No comments are attached, neither to the declarations nor to the options in their
brackets. -/
inductive Shaped : Place → List Element → Prop
  | nil {p : Place} : Shaped p []
  | comment {p : Place} {c : Text} {es : List Element} : IsLineComment c ∨ IsBlockComment c →
      Shaped p es → Shaped p (.comment c :: es)
  | statement {p : Place} {s : Statement} {es : List Element} : p.admits s = true → s.Named →
      s.ProperOptions → Shaped p es → Shaped p (.statement [] s :: es)
  | block {p : Place} {h : Heading} {body es : List Element} : p.admitsBlock h = true → h.Named →
      h.ProperOptions → Shaped h.place body → Shaped p es → Shaped p (.block [] h body :: es)

/-! ## options -/

namespace Reader

variable {α : Type}

theorem Gives.imp {p : Reader α} {P Q : α → Prop} (hp : Gives p P) (h : ∀ a, P a → Q a) :
    Gives p Q := fun t a r ha => h a (hp t a r ha)

theorem Gives.optional {p : Reader α} {P : α → Prop} (hp : Gives p P) :
    Gives (Reader.optional p) fun o => ∀ a ∈ o, P a := by
  refine .orElse (.bind hp fun a ha => .pure ?_) (.pure (by simp))
  rintro b ⟨⟩
  exact ha

theorem Gives.repeated {p : Reader α} {P : α → Prop} (hp : Gives p P) (t : Text) :
    ∀ a ∈ (Reader.repeated p t).1.1, P a := by
  fun_induction Reader.repeated p t with
  | case1 t tried h => simp
  | case2 t a r tried h hlt as s more heq ih =>
    rw [heq] at ih
    rw [List.forall_mem_cons]
    exact ⟨hp t a r (by rw [h]), ih⟩
  | case3 t a r tried h hlt => simp

theorem Gives.many {p : Reader α} {P : α → Prop} (hp : Gives p P) :
    Gives (Reader.many p) fun as => ∀ a ∈ as, P a := by
  intro t as r h
  obtain rfl : (Reader.repeated p t).1.1 = as := congrArg Prod.fst (Option.some.inj h)
  exact hp.repeated t

theorem assignment_gives : Gives assignment Setting.Proper := by
  have hvalue : Gives (token .constant Lexeme.constant) (· ≠ []) := by
    intro t v r h
    obtain ⟨-, hread⟩ := (token_eq_some Lexeme.consumes_constant.leaves).1 h
    have hlt := (Lexeme.consumes_constant _ _ hread).2
    rintro rfl
    simp at hlt
  exact .bind (.token optionName_eq_some) fun _ hn => .step fun _ => .bind hvalue.next
    fun _ hv => .pure ⟨hn, hv⟩

theorem memberOptions_gives {P : Setting → Prop} (hP : Gives assignment P) :
    Gives memberOptions fun os => ∀ o ∈ os, P o.toSetting ∧ o.comments = [] := by
  have hone : Gives (next fieldOption) fun o => P o.toSetting ∧ o.comments = [] :=
    .next (.named (.bind hP fun _ hs => .pure ⟨hs, rfl⟩))
  have hall : Gives fieldOptions fun os => ∀ o ∈ os, P o.toSetting ∧ o.comments = [] := by
    refine .named (.step fun _ => .bind hone fun o ho => ?_)
    refine .bind (Gives.many (.step fun _ => hone)) fun os hos => .step fun _ => .pure ?_
    rw [List.forall_mem_cons]
    exact ⟨ho, hos⟩
  refine .bind hall.optional fun os hos => .pure ?_
  cases os with
  | none => simp
  | some os => exact hos os rfl

end Reader

def Statement.options : Statement → List MemberOption
  | .setting s => [{ s with comments := [] }]
  | .field f => f.options
  | .mapField m => m.options
  | .enumValue v => v.options
  | _ => []

def Heading.options : Heading → List MemberOption
  | .group _ _ _ options => options
  | _ => []

section
variable {P : Setting → Prop} (hP : Gives assignment P)
include hP

theorem statementLike_options (s : Statement) :
    Gives (statementLike s) fun s' => ∀ o ∈ s'.options, P o.toSetting ∧ o.comments = [] := by
  have hoptions := (memberOptions_gives hP).next
  cases s with
  | setting s =>
    refine .named (.step fun _ => .bind hP.next fun s hs => .step fun _ => .pure ?_)
    exact List.forall_mem_singleton.2 ⟨hs, rfl⟩
  | field f =>
    exact .named (.step fun _ => .step fun _ => .step fun _ => .step fun _ => .step fun _ =>
      .bind hoptions fun _ ho => .step fun _ => .pure ho)
  | mapField m =>
    exact .named (.step fun _ => .step fun _ => .step fun _ => .step fun _ => .step fun _ =>
      .step fun _ => .step fun _ => .step fun _ => .step fun _ => .bind hoptions fun _ ho =>
        .step fun _ => .pure ho)
  | enumValue v =>
    exact .named (.step fun _ => .step fun _ => .step fun _ => .bind hoptions fun _ ho =>
      .step fun _ => .pure ho)
  | _ =>
    -- statements of the other kinds have no options
    refine (statementLike_gives _).imp fun s' hkind => ?_
    cases s' <;> first | exact List.forall_mem_nil _ | simp [Statement.ctorIdx] at hkind

theorem headingLike_options (h : Heading) :
    Gives (headingLike h) fun h' => ∀ o ∈ h'.options, P o.toSetting ∧ o.comments = [] := by
  cases h with
  | group name number label options =>
    exact .step fun _ => .step fun _ => .step fun _ => .step fun _ => .step fun _ =>
      .bind (memberOptions_gives hP).next fun _ ho => .pure ho
  | _ =>
    refine (headingLike_gives _).imp fun h' hkind => ?_
    cases h' <;> first | exact List.forall_mem_nil _ | simp [Heading.ctorIdx] at hkind

end

theorem statementLike_proper (s : Statement) : Gives (statementLike s) Statement.ProperOptions := by
  refine (statementLike_options assignment_gives s).imp fun s' h => ?_
  cases s' with
  | setting o => exact (h _ List.mem_cons_self).1
  | field f => exact h
  | mapField m => exact h
  | enumValue v => exact h
  | _ => trivial

theorem headingLike_proper (h : Heading) : Gives (headingLike h) Heading.ProperOptions := by
  refine (headingLike_options assignment_gives h).imp fun h' hoptions => ?_
  cases h' with
  | group name number label options => exact hoptions
  | _ => trivial

/-! ## files -/

/-- What is skipped in front of a token are comments. -/
theorem comments_skip (t : Text) : ∀ c ∈ (skip t).1, IsLineComment c ∨ IsBlockComment c := by
  fun_induction skip t with
  | case1 t h => simp
  | case2 t r h comments u heq ih =>
    obtain ⟨c, hcr, hc⟩ := comment_eq_some_iff.1 h
    rw [heq] at ih
    rw [hcr, Text.upTo_append, List.forall_mem_cons]
    exact ⟨hc.imp_left And.left, ih⟩

/-- The comments in front of an element change nothing. -/
theorem Shaped.of_skip {p : Place} {es : List Element} (h : Shaped p es) (t : Text) :
    Shaped p ((skip t).1.map .comment ++ es) := by
  have hc := comments_skip t
  generalize (skip t).1 = cs at hc ⊢
  induction cs with
  | nil => exact h
  | cons c cs ih =>
    rw [List.forall_mem_cons] at hc
    exact .comment hc.1 (ih hc.2)

theorem Reading.shaped {p : Place} {t r : Text} {es : List Element} (h : Reading p t es r) :
    Shaped p es := by
  induction h with
  | @stop p t _ => simpa using Shaped.nil.of_skip (p := p) t
  | @empty p t _ _ _ _ _ ih => exact ih.of_skip t
  | @statement p s t _ _ _ hp hs _ ih =>
    exact Shaped.of_skip (.statement hp (statementLike_named _ _ _ _ hs)
      (statementLike_proper _ _ _ _ hs) ih) t
  | @block p h t _ _ _ _ _ _ hp hh _ _ _ _ ihbody ih =>
    exact Shaped.of_skip (.block hp (headingLike_named _ _ _ _ hh)
      (headingLike_proper _ _ _ _ hh) ihbody ih) t
  | @bare p h t _ _ _ _ hp _ hh _ _ _ ih =>
    exact Shaped.of_skip (.block hp (headingLike_named _ _ _ _ hh)
      (headingLike_proper _ _ _ _ hh) .nil ih) t

/-! ## parts of files -/

namespace Shaped

variable {p : Place} {es : List Element} {e : Element}

theorem bare (h : Shaped p es) : bare es = es := by
  induction h with
  | nil => rfl
  | comment _ _ ih => rw [ProtoDocs.bare, ih, Element.bare]
  | statement _ _ _ _ ih => rw [ProtoDocs.bare, ih, Element.bare]
  | block _ _ _ _ _ ihbody ih => rw [ProtoDocs.bare, ih, Element.bare, ihbody]

theorem of_mem (h : Shaped p es) (he : e ∈ es) : Shaped p [e] := by
  induction h with
  | nil => simp at he
  | comment hc _ ih =>
    rcases List.mem_cons.1 he with rfl | he
    · exact .comment hc .nil
    · exact ih he
  | statement hp hs ho _ ih =>
    rcases List.mem_cons.1 he with rfl | he
    · exact .statement hp hs ho .nil
    · exact ih he
  | block hp hh ho hbody _ _ ih =>
    rcases List.mem_cons.1 he with rfl | he
    · exact .block hp hh ho hbody .nil
    · exact ih he

theorem of_block {cs : List Text} {h : Heading} {body : List Element}
    (hb : Shaped p [.block cs h body]) : Shaped h.place body := by
  cases hb with
  | block _ _ _ hbody _ => exact hbody

theorem body_bare (h : Shaped p [e.bare]) : ∃ q, Shaped q (ProtoDocs.bare e.body) := by
  cases e with
  | comment c => exact ⟨p, .nil⟩
  | statement cs s => exact ⟨p, .nil⟩
  | block cs hd body => exact ⟨_, h.of_block⟩

theorem levelAt {path : List Nat} {level : List Element} (h : Shaped p es)
    (hlevel : levelAt path es = some level) : ∃ q, Shaped q level := by
  induction path generalizing p es with
  | nil =>
    cases hlevel
    exact ⟨p, h⟩
  | cons i path ih =>
    obtain ⟨cs, hd, body, hmem, hbody⟩ := levelAt_cons hlevel
    exact ih (h.of_mem hmem).of_block hbody

/-- What is found in a file with comments attached is a part of the file, up to these comments. -/
theorem find?_attach {kind : Kind} {name : Text} (h : Shaped p es)
    (he : find? kind name (attach es) = some e) : ∃ q, Shaped q [e.bare] := by
  have hattach : ProtoDocs.bare (attach es) = es := (bare_attachAfter [] es).trans h.bare
  have hfound : find? kind name es = some e.bare := by
    rw [← hattach, find?_bare, he]
    rfl
  obtain ⟨path, level, hlevel, hmem⟩ := exists_levelAt_of_find? es hfound
  obtain ⟨q, hq⟩ := h.levelAt hlevel
  exact ⟨q, hq.of_mem hmem⟩

end Shaped

/-! ## all files -/

/-- **Every parsed file has this shape**, at all depths. -/
theorem parse_shaped {source : Text} {es : List Element} (h : parse source = .ok es) :
    Shaped .file es :=
  (parse_reading h).shaped

theorem parse_shaped_sampleFile : parse sampleText = .ok sampleFile ∧ Shaped .file sampleFile :=
  have h := parse_eq_ok.2 (items_written sampleFile_written sampleFile_wellFormed (.inl rfl))
  ⟨h, parse_shaped h⟩

end ProtoDocs
