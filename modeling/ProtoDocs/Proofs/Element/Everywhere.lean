import ProtoDocs.Proofs.Element.Attach

/-!
# Properties of all declarations

A property of statements and one of headings may hold of a whole tree.  Attaching comments changes
neither, and what is found in a tree is a part of it.

* `Everywhere P Q es`     every statement has the property `P` and every heading `Q`, at all depths;
* `Everywhere.attach`     also with comments attached;
* `Everywhere.find?`      also of an element that is found.
-/

namespace ProtoDocs

variable {P : Statement → Prop} {Q : Heading → Prop}

/-- every statement among the elements and in their bodies has the property `P`, and every heading
the property `Q`, whatever the comments -/
inductive Everywhere (P : Statement → Prop) (Q : Heading → Prop) : List Element → Prop
  | nil : Everywhere P Q []
  | comment {t : Text} {es : List Element} : Everywhere P Q es → Everywhere P Q (.comment t :: es)
  | statement {cs : List Text} {s : Statement} {es : List Element} : P s → Everywhere P Q es →
      Everywhere P Q (.statement cs s :: es)
  | block {cs : List Text} {h : Heading} {body es : List Element} : Q h → Everywhere P Q body →
      Everywhere P Q es → Everywhere P Q (.block cs h body :: es)

namespace Everywhere

variable {es : List Element} {e : Element}

theorem attachAfter (h : Everywhere P Q es) (run : List Text) :
    Everywhere P Q (attachAfter run es) := by
  induction h generalizing run with
  | nil =>
    rw [ProtoDocs.attachAfter]
    exact .nil
  | comment _ ih =>
    rw [ProtoDocs.attachAfter]
    exact .comment (ih _)
  | statement hs _ ih =>
    rw [ProtoDocs.attachAfter, Element.attachAs]
    · exact .statement hs (ih _)
    · simp
  | block hh _ _ ihbody ih =>
    rw [ProtoDocs.attachAfter, Element.attachAs]
    · exact .block hh (ihbody _) (ih _)
    · simp

theorem attach (h : Everywhere P Q es) : Everywhere P Q (attach es) := h.attachAfter []

theorem of_mem (h : Everywhere P Q es) (he : e ∈ es) : Everywhere P Q [e] := by
  induction h with
  | nil => simp at he
  | comment _ ih =>
    rcases List.mem_cons.1 he with rfl | he
    · exact .comment .nil
    · exact ih he
  | statement hs _ ih =>
    rcases List.mem_cons.1 he with rfl | he
    · exact .statement hs .nil
    · exact ih he
  | block hh hbody _ _ ih =>
    rcases List.mem_cons.1 he with rfl | he
    · exact .block hh hbody .nil
    · exact ih he

theorem body (h : Everywhere P Q [e]) : Everywhere P Q e.body := by
  cases h with
  | comment _ => exact .nil
  | statement _ _ => exact .nil
  | block _ hbody _ => exact hbody

theorem levelAt {path : List Nat} {level : List Element} (h : Everywhere P Q es)
    (hlevel : levelAt path es = some level) : Everywhere P Q level := by
  induction path generalizing es with
  | nil =>
    cases hlevel
    exact h
  | cons i path ih =>
    obtain ⟨cs, hd, body, hmem, hbody⟩ := levelAt_cons hlevel
    exact ih (h.of_mem hmem).body hbody

/-- What is found is a part of the tree. -/
theorem find? {kind : Kind} {name : Text} (h : Everywhere P Q es)
    (he : find? kind name es = some e) : Everywhere P Q [e] := by
  obtain ⟨path, level, hlevel, hmem⟩ := exists_levelAt_of_find? es he
  exact (h.levelAt hlevel).of_mem hmem

end Everywhere
end ProtoDocs
