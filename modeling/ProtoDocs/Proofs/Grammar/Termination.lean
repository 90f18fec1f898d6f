import ProtoDocs.Proofs.Grammar.Equations

/-!
# The grammar comes to an end

What is needed of a grammar for matching to come to an end is evaluated for all rules: which of them
take something, how deep rules are entered on the same text, and that the phrases keep to a bound.

* `Rule.all`            every rule, `Rule.mem_all` says that the list leaves none out;
* `Rule.takes`          the rules that take at least one character;
* `Rule.rank`           enough depth for a rule until something is taken;
* `Rule.grammar`        the rules with these;
* `grammar_terminates`  on every text, matching goes forward and comes to an end.
-/

namespace ProtoDocs

open Phrase

namespace Rule

def all : List Rule :=
  Symbol.all.map named ++ [space, identChar, intLit, exponent, floatLit, aggregate, listValue,
    rawComment, optionNamePart, emptyStatement, fileElement, messageElement, oneofElement,
    extendElement, enumElement, serviceElement, rpcTail]

theorem mem_all (r : Rule) : r ∈ all := by
  cases r with
  | named s => exact List.mem_append_left _ (List.mem_map_of_mem s.mem_all)
  | _ => decide

/-- the rule takes at least one character; a file may be empty, and its end is -/
def takes : Rule → Bool
  | named .file | named .endOfInput => false
  | _ => true

/-- enough depth for a rule until something is taken, if no more than `n` rules are entered, each
in the one before -/
def rankAt : Nat → Rule → Nat
  | 0, _ => 0
  | n + 1, r => r.body.height takes (rankAt n)

/-- enough depth for a rule until something is taken; longer rows of rules take something -/
def rank : Rule → Nat := rankAt 5

def bound : Nat := 150

def grammar : Grammar Rule where
  body := body
  takes := takes
  rank := rank
  bound := bound
  takes_body r := by
    have hall : ∀ r ∈ all, takes r = true → r.body.takes takes = true := by decide +kernel
    exact hall r r.mem_all
  rank_body r := by
    have hall : ∀ r ∈ all, r.body.height takes rank ≤ rank r := by decide +kernel
    exact hall r r.mem_all
  guarded_body r := by
    have hall : ∀ r ∈ all, r.body.guarded takes rank bound = true := by decide +kernel
    exact hall r r.mem_all

theorem rank_lt_bound (r : Rule) : rank r < bound := by
  have hall : ∀ r ∈ all, rank r < bound := by decide +kernel
  exact hall r r.mem_all

/-- The bound for each character, and once more, is enough depth for a rule. -/
theorem run_eq_scan (r : Rule) {t : Text} {n : Nat} (hn : bound * (t.length + 1) ≤ n) :
    run body n (.rule r) t = some (r.scan t) := by
  refine grammar.run_eq_scan (e := .rule r) scan_eq rfl (Nat.le_trans ?_ hn)
  show bound * t.length + (rank r + 1) ≤ bound * (t.length + 1)
  rw [Nat.mul_add_one]
  exact Nat.add_le_add_left r.rank_lt_bound _

end Rule

/-- The reader of files leaves nothing of the sources that are accepted. -/
theorem left_file (source : Text) :
    Reader.file.left source = (parse source).toOption.map fun _ => [] := by
  rw [Reader.left, parse]
  cases hfile : (Reader.file source).result with
  | none => rfl
  | some x =>
    obtain ⟨-, hleft⟩ := Reader.file_eq_some.1 hfile
    exact congrArg some hleft

/-- **On every text, matching goes forward and comes to an end.**  The phrases of the rules are
matched as they are written, on what is left of a text from any position; only the beginning of a
file is not told from other positions, as it is only sought where a text begins.

* A rule that is found leaves a suffix.
* What is repeated takes something, wherever it is found; this includes blanks, comments, and items
  with the gaps in front of them.
* A rule that is entered again while it is matched is entered further on, and there are no endless
  calls of rules within rules.
* The phrases have one solution, which is what the recognisers and readers leave.
* A depth that is linear in the length of the text is not used up, and the matcher then finds the
  solution, on files that are accepted and on those that are rejected. -/
theorem grammar_terminates :
    (∀ (r : Rule) (n : Nat) (t u : Text), run Rule.body n (.rule r) t = some (some u) → u <:+ t) ∧
      (∀ (r : Rule), ∀ e ∈ r.body.loops, ∀ (n : Nat) (t u : Text),
        run Rule.body n e t = some (some u) → u <:+ t ∧ u.length < t.length) ∧
      (∀ (r : Rule) (t u : Text), Relation.TransGen Rule.grammar.Calls (r, t) (r, u) →
        u <:+ t ∧ u.length < t.length) ∧
      (WellFounded fun y x => Rule.grammar.Calls x y) ∧
      (∀ σ : Rule → Scan, (∀ r, σ r = r.body.scan σ) ↔ σ = Rule.scan) ∧
      (∀ (r : Rule) (t : Text) (n : Nat), Rule.bound * (t.length + 1) ≤ n →
        run Rule.body n (.rule r) t = some (r.scan t)) ∧
      ∀ (source : Text) (n : Nat), Rule.bound * (source.length + 1) ≤ n →
        run Rule.body n (.rule (.named .file)) source =
          some ((parse source).toOption.map fun _ => []) := by
  refine ⟨fun r n t u h => (Rule.grammar.run_suffix h).1, ?_, ?_,
    Rule.grammar.wellFounded_calls, ?_, fun r t n => r.run_eq_scan, ?_⟩
  · intro r e he n t u h
    obtain ⟨hsuffix, hshorter⟩ := Rule.grammar.run_suffix h
    exact ⟨hsuffix, hshorter (Rule.grammar.takes_of_mem_loops (Rule.grammar.guarded_body r) he)⟩
  · intro r t u h
    exact Rule.grammar.shorter_of_calls h
  · intro σ
    constructor
    · exact fun hσ => Rule.grammar.scan_unique hσ Rule.scan_eq
    · rintro rfl
      exact Rule.scan_eq
  · intro source n hn
    rw [Rule.run_eq_scan _ hn, ← left_file]
    rfl

def nestedBraces : Text := "{{}}".toList

theorem grammar_terminates_nestedBraces :
    run Rule.body (Rule.bound * 5) (.rule .aggregate) nestedBraces = some (some []) ∧
      Relation.TransGen Rule.grammar.Calls (.aggregate, nestedBraces)
        (.aggregate, nestedBraces.tail) ∧
      nestedBraces.tail <:+ nestedBraces ∧ nestedBraces.tail.length < nestedBraces.length := by
  obtain ⟨-, -, hagain, -, -, hbudget, -⟩ := grammar_terminates
  have hrun := hbudget .aggregate nestedBraces (Rule.bound * 5) (le_refl _)
  have hcall : Rule.grammar.Calls (.aggregate, nestedBraces) (.aggregate, nestedBraces.tail) :=
    .seqRight ⟨1, rfl⟩ (.seqLeft (.star (.altRight (.altRight (.altLeft (.rule _ _))))))
  exact ⟨hrun.trans (by decide +kernel), .single hcall, hagain _ _ _ (.single hcall)⟩

end ProtoDocs
