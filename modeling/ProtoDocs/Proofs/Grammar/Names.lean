import ProtoDocs.Proofs.Element.Everywhere
import ProtoDocs.Proofs.Grammar.Spans

/-!
# Names in parsed files

Wherever a name stands in a parsed file, it is an identifier, and wherever a type does, it is a
dotted name without a dot in front.

* `Statement.Named`, `Heading.Named`   the names and types of a declaration are such;
* `statementLike_named`, `headingLike_named`   what the readers of declarations give is;
* `parse_everywhere`   what holds of all that these readers give holds of all declarations of a file;
* `parse_named`        the names and types of a file are such.
-/

namespace ProtoDocs

open Reader

/-- the names and types in a statement are identifiers and dotted names -/
def Statement.Named : Statement → Prop
  | .package name => IsFullIdent name
  | .field f => IsIdent f.name ∧ IsFullIdent f.type.name
  | .mapField m => IsIdent m.name ∧ IsFullIdent m.key.name ∧ IsFullIdent m.value.name
  | .enumValue v => IsIdent v.name
  | _ => True

def Heading.Named : Heading → Prop
  | .message name => IsIdent name
  | .enum name => IsIdent name
  | .service name => IsIdent name
  | .method name input output => IsIdent name ∧ IsFullIdent input.type ∧ IsFullIdent output.type
  | .oneof name => IsIdent name
  | .group name _ _ _ => IsIdent name
  | .extend type => IsFullIdent type

namespace Reader

variable {α : Type}

theorem Gives.next {p : Reader α} {P : α → Prop} (h : Gives p P) : Gives (next p) P := by
  intro t a r ha
  rw [result_next] at ha
  exact h _ a r ha

theorem Gives.token {s : Symbol} {p : Scan} {P : Text → Prop}
    (h : ∀ {t r}, p t = some r → ∃ u, P u ∧ t = u ++ r ∧ Clear u r) : Gives (token s p) P := by
  intro t a r ha
  rw [result_token, Option.map_eq_some_iff] at ha
  obtain ⟨r', hr, he⟩ := ha
  cases he
  obtain ⟨u, hu, rfl, _⟩ := h hr
  rwa [Text.upTo_append]

theorem ident_gives : Gives ident IsIdent := .token ident_eq_some_iff.1

theorem typeRef_gives : Gives typeRef fun t => IsFullIdent t.name := by
  refine Gives.bind (P := IsTypeRef) (.token typeRef_eq_some) fun t ht => .pure ?_
  rcases ht with ht | ⟨v, rfl, hv⟩
  · rw [TypeRef.ofWritten_of_starts ht.not_dot, TypeRef.ofName_name]
    exact ht
  · exact hv

theorem sideInParens_gives : Gives sideInParens fun s => IsFullIdent s.type := by
  have hside : Gives side fun s => IsFullIdent s.type :=
    .named (.step fun _ => .bind typeRef_gives.next fun _ ht => .pure ht)
  exact .step fun _ => .bind hside.next fun _ hs => .step fun _ => .pure hs

end Reader

theorem statementLike_named (s : Statement) : Gives (statementLike s) Statement.Named := by
  have hname : Gives (next ident) IsIdent := ident_gives.next
  have htype : Gives (next typeRef) fun t => IsFullIdent t.name := typeRef_gives.next
  cases s with
  | package name =>
    exact .named (.step fun _ => .bind (Gives.token fullIdent_eq_some).next fun _ hn =>
      .step fun _ => .pure hn)
  | field f =>
    exact .named (.step fun _ => .bind htype fun _ ht => .bind hname fun _ hn =>
      .step fun _ => .step fun _ => .step fun _ => .step fun _ => .pure ⟨hn, ht⟩)
  | mapField m =>
    exact .named (.step fun _ => .step fun _ => .bind htype fun _ hk => .step fun _ =>
      .bind htype fun _ hv => .step fun _ => .bind hname fun _ hn => .step fun _ => .step fun _ =>
        .step fun _ => .step fun _ => .pure ⟨hn, hk, hv⟩)
  | enumValue v =>
    exact .named (.bind ident_gives fun _ hn => .step fun _ => .step fun _ => .step fun _ =>
      .step fun _ => .pure hn)
  | language _ =>
    exact .named (.step fun _ => .step fun _ => .step fun _ => .step fun _ => .pure trivial)
  | edition _ =>
    exact .named (.step fun _ => .step fun _ => .step fun _ => .step fun _ => .pure trivial)
  | importing _ _ =>
    exact .named (.step fun _ => .step fun _ => .step fun _ => .step fun _ => .pure trivial)
  | setting _ => exact .named (.step fun _ => .step fun _ => .step fun _ => .pure trivial)
  | reserved _ => exact .named (.step fun _ => .step fun _ => .step fun _ => .pure trivial)
  | extensions _ => exact .named (.step fun _ => .step fun _ => .step fun _ => .pure trivial)

theorem headingLike_named (h : Heading) : Gives (headingLike h) Heading.Named := by
  have hname : Gives (next ident) IsIdent := ident_gives.next
  cases h with
  | message _ => exact .step fun _ => .bind hname fun _ hn => .pure hn
  | enum _ => exact .step fun _ => .bind hname fun _ hn => .pure hn
  | service _ => exact .step fun _ => .bind hname fun _ hn => .pure hn
  | oneof _ => exact .step fun _ => .bind hname fun _ hn => .pure hn
  | method _ _ _ =>
    exact .step fun _ => .bind hname fun _ hn => .bind sideInParens_gives.next fun _ hin =>
      .step fun _ => .bind sideInParens_gives.next fun _ hout => .pure ⟨hn, hin, hout⟩
  | group _ _ _ _ =>
    exact .step fun _ => .step fun _ => .bind hname fun _ hn => .step fun _ => .step fun _ =>
      .step fun _ => .pure hn
  | extend _ => exact .step fun _ => .bind typeRef_gives.next fun _ ht => .pure ht

theorem Spans.everywhere {P : Statement → Prop} {Q : Heading → Prop}
    (hP : ∀ s, Gives (statementLike s) P) (hQ : ∀ h, Gives (headingLike h) Q) {es : List Element}
    {text rest : Text} (h : Spans es text rest) : Everywhere P Q es := by
  induction h with
  | nil => exact .nil
  | filler _ _ ih => exact ih
  | comment _ _ ih => exact .comment ih
  | statement hs _ ih => exact .statement (hP _ _ _ _ hs) ih
  | block hh _ _ _ _ ihbody ih => exact .block (hQ _ _ _ _ hh) ihbody ih
  | bare _ hh _ _ _ ih => exact .block (hQ _ _ _ _ hh) .nil ih

/-- What holds of all that the readers of declarations give holds of all declarations of a file. -/
theorem parse_everywhere {P : Statement → Prop} {Q : Heading → Prop}
    (hP : ∀ s, Gives (statementLike s) P) (hQ : ∀ h, Gives (headingLike h) Q) {source : Text}
    {es : List Element} (h : parse source = .ok es) : Everywhere P Q es := by
  obtain ⟨text, _, hes⟩ := items_spans (parse_eq_ok.1 h)
  exact hes.everywhere hP hQ

/-- All names in a file are identifiers, and all its types dotted names. -/
theorem parse_named {source : Text} {es : List Element} (h : parse source = .ok es) :
    Everywhere Statement.Named Heading.Named es :=
  parse_everywhere statementLike_named headingLike_named h

end ProtoDocs
