import ProtoDocs.Grammar.Symbol

/-!
# Attempts

What a reader tried in vain, as far as an error report needs it: only the furthest place counts,
and at that place the named parts that were looked for. A place is the number of characters from
there to the end of the text, so fewer characters are further.

* `Attempts`          the furthest place and what was tried there;
* `Attempts.join`     one attempt after another: the further place wins, one place adds up;
* `Attempts.blame`    the attempts of a named part that failed.

`Attempts.join_assoc` says that it does not matter how the attempts of a reading are grouped.
-/

namespace ProtoDocs

/-- the named parts tried in vain at the furthest place, and the characters left there -/
structure Attempts where
  left : Nat
  tried : List Symbol
  deriving DecidableEq, Repr

namespace Attempts

def none : Attempts := ⟨0, []⟩

def one (left : Nat) (s : Symbol) : Attempts := ⟨left, [s]⟩

/-- the attempts of two readings, one after the other -/
def join (a b : Attempts) : Attempts :=
  if b.tried = [] then a
  else if a.tried = [] then b
  else if a.left < b.left then a
  else if b.left < a.left then b
  else ⟨a.left, a.tried ++ b.tried⟩

/-- the attempts of the part `s` that began where `left` characters are left and failed: a part that
got no further than its own beginning stands for all that was tried inside it, unless that is exactly
one, and then it is that one -/
def blame (s : Symbol) (left : Nat) (inside : Attempts) : Attempts :=
  match inside.tried with
  | [] => one left s
  | [_] => inside
  | _ => if inside.left < left then inside else one left s

@[simp] theorem join_none (a : Attempts) : a.join none = a := by
  simp [join, none]

theorem join_of_nil_left {a b : Attempts} (ha : a.tried = []) (hb : b.tried ≠ []) :
    a.join b = b := by
  simp [join, ha, hb]

theorem join_of_nil_right {a b : Attempts} (hb : b.tried = []) : a.join b = a := by
  simp [join, hb]

theorem tried_join_ne_nil {a b : Attempts} (hb : b.tried ≠ []) : (a.join b).tried ≠ [] := by
  simp only [join, hb, if_false]
  split
  · exact hb
  · split
    · assumption
    · split <;> simp [hb]

theorem join_assoc (a b c : Attempts) : (a.join b).join c = a.join (b.join c) := by
  by_cases hc : c.tried = []
  · rw [join_of_nil_right hc, join_of_nil_right hc]
  by_cases hb : b.tried = []
  · rw [join_of_nil_right hb, join_of_nil_left hb hc]
  by_cases ha : a.tried = []
  · rw [join_of_nil_left ha hb, join_of_nil_left ha (tried_join_ne_nil hc)]
  have hab := tried_join_ne_nil (a := a) hb
  have hbc := tried_join_ne_nil (a := b) hc
  rw [join, if_neg hc, if_neg hab, join.eq_def a (b.join c), if_neg hbc, if_neg ha]
  simp only [join, if_neg hb, if_neg hc, if_neg ha]
  rcases Nat.lt_trichotomy a.left b.left with h | h | h <;>
    rcases Nat.lt_trichotomy b.left c.left with h' | h' | h' <;>
    grind

end Attempts
end ProtoDocs
