import Mathlib.Logic.Relation
import ProtoDocs.Proofs.Grammar.Word

/-!
# Grammars that come to an end

A rule of a grammar is a phrase over rules, and matching a text may follow the phrases as they are
written: choices in order, repetitions as often as they can, a rule by its phrase.  Nothing in this
keeps a repetition from taking nothing again and again, or a rule from being entered again where it
has just been entered.  Whether that can happen is seen from the phrases alone.

* `Phrase`, `Phrase.scan`      phrases, and what they recognise if the rules are given;
* `Phrase.run`                 the matcher, with a budget for the depth of its recursion;
* `Phrase.takes`, `Phrase.height`, `Phrase.guarded`   what is seen from the phrases;
* `Grammar`                    rules whose phrases pass;
* `Grammar.run_suffix`         what is matched leaves a suffix, a shorter one where a phrase takes;
* `Grammar.run_eq_scan`        a budget that is linear in the length of the text is not used up;
* `Grammar.wellFounded_calls`  rules are not entered within rules without end;
* `Grammar.shorter_of_calls`   a rule is entered again only further on.
-/

namespace ProtoDocs

namespace Scan

def nil : Scan := some

/-- as many pieces as there are, with `g` skipped in front of each but the first -/
def spaced (g p : Scan) : Scan := (p.seq (many (g.seq p))).or nil

/-- Where one more piece is shorter than the text, repetition goes on behind it. -/
theorem rest_of_shorter {p : Scan} {t u : Text} (h : p t = some u) (hlt : u.length < t.length) :
    rest p t = rest p u := by
  rw [rest, h]
  exact if_pos hlt

end Scan

/-! ## phrases -/

/-- what a rule may be defined by; a spaced repetition skips `g` in front of each further `e` -/
inductive Phrase (R : Type)
  | nothing
  | one (p : Char → Bool)
  | word (w : Text)
  | seq (e f : Phrase R)
  | alt (e f : Phrase R)
  | star (e : Phrase R)
  | spaced (g e : Phrase R)
  | not (e : Phrase R)
  | rule (r : R)

variable {R : Type}

namespace Phrase

/-- what the phrase recognises, where `σ` says what the rules do -/
@[simp] def scan (σ : R → Scan) : Phrase R → Scan
  | nothing => Scan.nil
  | one p => Scan.char p
  | word w => Scan.word w
  | seq e f => (e.scan σ).seq (f.scan σ)
  | alt e f => (e.scan σ).or (f.scan σ)
  | star e => Scan.many (e.scan σ)
  | spaced g e => Scan.spaced (g.scan σ) (e.scan σ)
  | not e => Scan.butNot (e.scan σ) Scan.nil
  | rule r => σ r

/-- The phrase is matched as it is written, with a budget for the depth of the recursion.  There is
no outcome if the budget is used up; else the outcome is what is left, or that nothing was found. -/
def run (body : R → Phrase R) : Nat → Phrase R → Text → Option (Option Text)
  | 0, _, _ => none
  | _ + 1, nothing, t => some (some t)
  | _ + 1, one p, t => some (Scan.char p t)
  | _ + 1, word w, t => some (Scan.word w t)
  | n + 1, seq e f, t =>
    match run body n e t with
    | some (some u) => run body n f u
    | o => o
  | n + 1, alt e f, t =>
    match run body n e t with
    | some none => run body n f t
    | o => o
  | n + 1, star e, t =>
    match run body n e t with
    | some (some u) => run body n (star e) u
    | some none => some (some t)
    | none => none
  | n + 1, spaced g e, t =>
    match run body n e t with
    | some (some u) => run body n (star (seq g e)) u
    | some none => some (some t)
    | none => none
  | n + 1, not e, t =>
    match run body n e t with
    | some (some _) => some none
    | some none => some (some t)
    | none => none
  | n + 1, rule r, t => run body n (body r) t

section
variable {body : R → Phrase R} {n : Nat} {e f g : Phrase R} {t u : Text}

theorem run_seq_eq_some : run body (n + 1) (seq e f) t = some (some u) ↔
    ∃ v, run body n e t = some (some v) ∧ run body n f v = some (some u) := by
  rw [run]
  rcases run body n e t with _ | _ | v <;> simp

theorem run_alt_eq_some : run body (n + 1) (alt e f) t = some (some u) ↔
    run body n e t = some (some u) ∨
      run body n e t = some none ∧ run body n f t = some (some u) := by
  rw [run]
  rcases run body n e t with _ | _ | v <;> simp

theorem run_star_eq_some : run body (n + 1) (star e) t = some (some u) ↔
    run body n e t = some none ∧ t = u ∨
      ∃ v, run body n e t = some (some v) ∧ run body n (star e) v = some (some u) := by
  rw [run]
  rcases run body n e t with _ | _ | v <;> simp

theorem run_spaced_eq_some : run body (n + 1) (spaced g e) t = some (some u) ↔
    run body n e t = some none ∧ t = u ∨
      ∃ v, run body n e t = some (some v) ∧ run body n (star (seq g e)) v = some (some u) := by
  rw [run]
  rcases run body n e t with _ | _ | v <;> simp

theorem run_not_eq_some : run body (n + 1) (not e) t = some (some u) ↔
    run body n e t = some none ∧ t = u := by
  rw [run]
  rcases run body n e t with _ | _ | v <;> simp

end

def loops : Phrase R → List (Phrase R)
  | seq e f => e.loops ++ f.loops
  | alt e f => e.loops ++ f.loops
  | star e => e :: e.loops
  | spaced g e => e :: seq g e :: (g.loops ++ e.loops)
  | not e => e.loops
  | _ => []

/-! ## what is seen from phrases -/

/-- the phrase takes at least one character where it is found, if the rules in `τ` do -/
def takes (τ : R → Bool) : Phrase R → Bool
  | one _ => true
  | word w => !w.isEmpty
  | seq e f => e.takes τ || f.takes τ
  | alt e f => e.takes τ && f.takes τ
  | rule r => τ r
  | _ => false

/-- how much depth is enough until something is taken, where `ρ` says it for the rules -/
def height (τ : R → Bool) (ρ : R → Nat) : Phrase R → Nat
  | seq e f => e.height τ ρ + (if e.takes τ then 0 else f.height τ ρ) + 1
  | alt e f => e.height τ ρ + f.height τ ρ + 1
  | star e => e.height τ ρ + 1
  | spaced _ e => e.height τ ρ + 1
  | not e => e.height τ ρ + 1
  | rule r => ρ r + 1
  | _ => 1

/-- what is repeated takes something, and no part that is matched further on needs more depth than
the bound -/
def guarded (τ : R → Bool) (ρ : R → Nat) (bound : Nat) : Phrase R → Bool
  | seq e f => e.guarded τ ρ bound && f.guarded τ ρ bound && f.height τ ρ ≤ bound
  | alt e f => e.guarded τ ρ bound && f.guarded τ ρ bound
  | star e => e.guarded τ ρ bound && e.takes τ && e.height τ ρ < bound
  | spaced g e =>
    e.takes τ && (seq g e).height τ ρ < bound && e.height τ ρ ≤ bound &&
      g.guarded τ ρ bound && e.guarded τ ρ bound
  | not e => e.guarded τ ρ bound
  | _ => true

theorem height_pos (τ : R → Bool) (ρ : R → Nat) (e : Phrase R) : 0 < e.height τ ρ := by
  cases e <;> exact Nat.succ_pos _

end Phrase

/-- rules with a bound that all their phrases obey, where `takes` are rules that take something and
`rank` is enough depth for a rule -/
structure Grammar (R : Type) where
  body : R → Phrase R
  takes : R → Bool
  rank : R → Nat
  bound : Nat
  takes_body : ∀ r, takes r = true → (body r).takes takes = true
  rank_body : ∀ r, (body r).height takes rank ≤ rank r
  guarded_body : ∀ r, (body r).guarded takes rank bound = true

namespace Grammar

open Phrase

variable (G : Grammar R)

def Matches (e : Phrase R) (t u : Text) : Prop := ∃ n, run G.body n e t = some (some u)

def budget (e : Phrase R) (length : Nat) : Nat :=
  G.bound * length + e.height G.takes G.rank

abbrev Guarded (e : Phrase R) : Prop := e.guarded G.takes G.rank G.bound = true

section
variable {G : Grammar R} {e f g : Phrase R}

theorem guarded_seq_iff : G.Guarded (seq e f) ↔
    G.Guarded e ∧ G.Guarded f ∧ f.height G.takes G.rank ≤ G.bound := by
  simp only [Guarded, guarded, Bool.and_eq_true, decide_eq_true_eq, and_assoc]

theorem guarded_alt_iff : G.Guarded (alt e f) ↔ G.Guarded e ∧ G.Guarded f :=
  Bool.and_eq_true_iff

theorem guarded_star_iff : G.Guarded (star e) ↔
    G.Guarded e ∧ e.takes G.takes = true ∧ e.height G.takes G.rank < G.bound := by
  simp only [Guarded, guarded, Bool.and_eq_true, decide_eq_true_eq, and_assoc]

theorem guarded_spaced_iff : G.Guarded (spaced g e) ↔
    G.Guarded g ∧ G.Guarded e ∧ e.takes G.takes = true ∧
      (seq g e).height G.takes G.rank < G.bound ∧ e.height G.takes G.rank ≤ G.bound := by
  simp only [Guarded, guarded, Bool.and_eq_true, decide_eq_true_eq]
  tauto

/-- Behind the first phrase, a spaced repetition goes on as a repetition of what is skipped and the
phrase. -/
theorem guarded_star_of_spaced (h : G.Guarded (spaced g e)) : G.Guarded (star (seq g e)) := by
  obtain ⟨hg, he, htakes, hseq, hheight⟩ := guarded_spaced_iff.1 h
  refine guarded_star_iff.2 ⟨guarded_seq_iff.2 ⟨hg, he, hheight⟩, ?_, hseq⟩
  rw [Phrase.takes, htakes, Bool.or_true]

end

/-! ## progress -/

/-- What is matched leaves a suffix, and a shorter one if the phrase takes something. -/
theorem run_suffix {n : Nat} {e : Phrase R} {t u : Text}
    (h : run G.body n e t = some (some u)) :
    u <:+ t ∧ (e.takes G.takes = true → u.length < t.length) := by
  -- on the budget: all that is matched inside has less of it
  induction n generalizing e t u with
  | zero => cases h
  | succ n ih =>
    cases e with
    | nothing =>
      cases h
      exact ⟨List.suffix_rfl, fun h => nomatch h⟩
    | one p =>
      have hp := Scan.consumes_char p t u (Option.some.inj h)
      exact ⟨hp.1, fun _ => hp.2⟩
    | word w =>
      have hw := Option.some.inj h
      refine ⟨Scan.leaves_word w t u hw, fun hne => (Scan.consumes_word ?_ t u hw).2⟩
      rintro rfl
      exact nomatch hne
    | seq e f =>
      obtain ⟨v, he, hf⟩ := run_seq_eq_some.1 h
      have hv := (ih he).1.length_le
      have hu := (ih hf).1.length_le
      refine ⟨(ih hf).1.trans (ih he).1, fun htakes => ?_⟩
      rcases Bool.or_eq_true_iff.1 htakes with htakes | htakes
      · exact Nat.lt_of_le_of_lt hu ((ih he).2 htakes)
      · exact Nat.lt_of_lt_of_le ((ih hf).2 htakes) hv
    | alt e f =>
      rcases run_alt_eq_some.1 h with he | ⟨-, hf⟩
      · exact ⟨(ih he).1, fun htakes => (ih he).2 (Bool.and_eq_true_iff.1 htakes).1⟩
      · exact ⟨(ih hf).1, fun htakes => (ih hf).2 (Bool.and_eq_true_iff.1 htakes).2⟩
    | star e =>
      refine ⟨?_, fun htakes => nomatch htakes⟩
      rcases run_star_eq_some.1 h with ⟨-, rfl⟩ | ⟨v, he, hrest⟩
      · exact List.suffix_rfl
      · exact (ih hrest).1.trans (ih he).1
    | spaced g e =>
      refine ⟨?_, fun htakes => nomatch htakes⟩
      rcases run_spaced_eq_some.1 h with ⟨-, rfl⟩ | ⟨v, he, hrest⟩
      · exact List.suffix_rfl
      · exact (ih hrest).1.trans (ih he).1
    | not e =>
      obtain ⟨-, rfl⟩ := run_not_eq_some.1 h
      exact ⟨List.suffix_rfl, fun htakes => nomatch htakes⟩
    | rule r =>
      obtain ⟨hsuffix, hshorter⟩ := ih h
      exact ⟨hsuffix, fun hr => hshorter (G.takes_body r hr)⟩

theorem takes_of_mem_loops {e f : Phrase R} (he : G.Guarded e) (hf : f ∈ e.loops) :
    f.takes G.takes = true := by
  induction e with
  | seq e₁ e₂ ih₁ ih₂ =>
    obtain ⟨he₁, he₂, -⟩ := guarded_seq_iff.1 he
    exact (List.mem_append.1 hf).elim (ih₁ he₁) (ih₂ he₂)
  | alt e₁ e₂ ih₁ ih₂ =>
    obtain ⟨he₁, he₂⟩ := guarded_alt_iff.1 he
    exact (List.mem_append.1 hf).elim (ih₁ he₁) (ih₂ he₂)
  | star e ih =>
    obtain ⟨he, htakes, -⟩ := guarded_star_iff.1 he
    rcases List.mem_cons.1 hf with rfl | hf
    · exact htakes
    · exact ih he hf
  | spaced g e ihg ihe =>
    obtain ⟨hg, he, htakes, -⟩ := guarded_spaced_iff.1 he
    rcases List.mem_cons.1 hf with rfl | hf
    · exact htakes
    rcases List.mem_cons.1 hf with rfl | hf
    · rw [Phrase.takes, htakes, Bool.or_true]
    · exact (List.mem_append.1 hf).elim (ihg hg) (ihe he)
  | not e ih => exact ih he hf
  | nothing => cases hf
  | one p => cases hf
  | word w => cases hf
  | rule r => cases hf

/-! ## the budget -/

/-- If the bound is kept for each character of the text, the matcher comes to an end, and finds what
the rules recognise that obey the phrases. -/
theorem run_eq_scan {σ : R → Scan} (hσ : ∀ r, σ r = (G.body r).scan σ) {n : Nat} {e : Phrase R}
    {t : Text} (he : G.Guarded e) (hn : G.budget e t.length ≤ n) :
    run G.body n e t = some (e.scan σ t) := by
  induction n generalizing e t with
  | zero =>
    have := e.height_pos G.takes G.rank
    rw [budget] at hn
    omega
  | succ n ih =>
    -- behind something that was taken, the bound is left for what comes next
    have hbehind {f : Phrase R} {v : Text} (hf : G.Guarded f)
        (hheight : f.height G.takes G.rank ≤ G.bound) (hv : v.length < t.length) :
        run G.body n f v = some (f.scan σ v) := by
      have hmul : G.bound * (v.length + 1) ≤ G.bound * t.length := Nat.mul_le_mul_left _ hv
      have hpos := e.height_pos G.takes G.rank
      rw [Nat.mul_add_one] at hmul
      rw [budget] at hn
      exact ih hf (by rw [budget]; omega)
    have hfirst {f : Phrase R} (hf : G.Guarded f)
        (hheight : f.height G.takes G.rank < e.height G.takes G.rank) :
        run G.body n f t = some (f.scan σ t) := by
      rw [budget] at hn
      exact ih hf (by rw [budget]; omega)
    cases e with
    | nothing => rfl
    | one p => rfl
    | word w => rfl
    | seq e f =>
      obtain ⟨hge, hgf, hheight⟩ := guarded_seq_iff.1 he
      have hrun := hfirst hge (by rw [height]; omega)
      rw [run, hrun]
      cases hscan : e.scan σ t with
      | none => exact congrArg some (Scan.seq_of_none hscan _).symm
      | some v =>
        have hstep := G.run_suffix (hrun.trans (congrArg some hscan))
        have hf : run G.body n f v = some (f.scan σ v) := by
          by_cases htakes : e.takes G.takes = true
          · exact hbehind hgf hheight (hstep.2 htakes)
          · have hv : G.bound * v.length ≤ G.bound * t.length :=
              Nat.mul_le_mul_left _ hstep.1.length_le
            rw [budget, height, if_neg htakes] at hn
            exact ih hgf (by rw [budget]; omega)
        exact hf.trans (congrArg some (Scan.seq_of_some hscan _).symm)
    | alt e f =>
      obtain ⟨hge, hgf⟩ := guarded_alt_iff.1 he
      have hrun := hfirst hge (by rw [height]; omega)
      rw [run, hrun]
      cases hscan : e.scan σ t with
      | none =>
        have hf := hfirst hgf (by rw [height]; omega)
        exact hf.trans (congrArg some (Scan.or_of_none hscan _).symm)
      | some v => exact congrArg some (Scan.or_of_some hscan _).symm
    | star e =>
      obtain ⟨hge, htakes, hheight⟩ := guarded_star_iff.1 he
      have hrun := hfirst hge (Nat.lt_succ_self _)
      rw [run, hrun]
      cases hscan : e.scan σ t with
      | none => exact congrArg (some ∘ some) (Scan.rest_of_none hscan).symm
      | some v =>
        have hv := (G.run_suffix (hrun.trans (congrArg some hscan))).2 htakes
        refine (hbehind he hheight hv).trans (congrArg (some ∘ some) ?_)
        exact (Scan.rest_of_shorter hscan hv).symm
    | spaced g e =>
      obtain ⟨-, hge, htakes, hheight, -⟩ := guarded_spaced_iff.1 he
      have hrun := hfirst hge (Nat.lt_succ_self _)
      rw [run, hrun]
      cases hscan : e.scan σ t with
      | none =>
        exact congrArg some (Scan.or_of_none (Scan.seq_of_none hscan _) _).symm
      | some v =>
        have hv := (G.run_suffix (hrun.trans (congrArg some hscan))).2 htakes
        have hmany : ((e.scan σ).seq (Scan.many ((g.scan σ).seq (e.scan σ)))) t =
            (star (seq g e)).scan σ v := Scan.seq_of_some hscan _
        exact (hbehind (guarded_star_of_spaced he) hheight hv).trans
          (congrArg some (Scan.or_of_some hmany some).symm)
    | not e =>
      have hrun := hfirst (f := e) he (Nat.lt_succ_self _)
      rw [run, hrun]
      simp only [scan, Scan.butNot]
      cases e.scan σ t <;> rfl
    | rule r =>
      have hrank := G.rank_body r
      have hrun := hfirst (G.guarded_body r) (by rw [height]; omega)
      rw [run, hrun, ← hσ]
      rfl

/-- Only the matcher's own findings obey the phrases. -/
theorem scan_unique {σ σ' : R → Scan} (hσ : ∀ r, σ r = (G.body r).scan σ)
    (hσ' : ∀ r, σ' r = (G.body r).scan σ') : σ = σ' := by
  funext r t
  have hrun := G.run_eq_scan hσ (e := .rule r) rfl (le_refl (G.budget (.rule r) t.length))
  have hrun' := G.run_eq_scan hσ' (e := .rule r) rfl (le_refl (G.budget (.rule r) t.length))
  exact Option.some.inj (hrun.symm.trans hrun')

/-! ## entering rules -/

/-- To match the phrase on `t`, the rule `r` is entered on `u`; of a choice, any phrase may be. -/
inductive Enters : Phrase R → Text → R → Text → Prop
  | rule (r : R) (t : Text) : Enters (rule r) t r t
  | seqLeft {e f : Phrase R} {t u : Text} {r : R} : Enters e t r u → Enters (seq e f) t r u
  | seqRight {e f : Phrase R} {t v u : Text} {r : R} :
      G.Matches e t v → Enters f v r u → Enters (seq e f) t r u
  | altLeft {e f : Phrase R} {t u : Text} {r : R} : Enters e t r u → Enters (alt e f) t r u
  | altRight {e f : Phrase R} {t u : Text} {r : R} : Enters f t r u → Enters (alt e f) t r u
  | star {e : Phrase R} {t u : Text} {r : R} : Enters e t r u → Enters (star e) t r u
  | starNext {e : Phrase R} {t v u : Text} {r : R} :
      G.Matches e t v → Enters (star e) v r u → Enters (star e) t r u
  | spaced {g e : Phrase R} {t u : Text} {r : R} : Enters e t r u → Enters (spaced g e) t r u
  | spacedNext {g e : Phrase R} {t v u : Text} {r : R} :
      G.Matches e t v → Enters (star (seq g e)) v r u → Enters (spaced g e) t r u
  | not {e : Phrase R} {t u : Text} {r : R} : Enters e t r u → Enters (not e) t r u

abbrev Entry (R : Type) : Type := R × Text

def Calls (x y : Entry R) : Prop := G.Enters (G.body x.1) x.2 y.1 y.2

/-- A rule is entered on a suffix, and on the same text only if it needs less depth. -/
theorem Enters.suffix {e : Phrase R} {t u : Text} {r : R} (h : G.Enters e t r u)
    (he : G.Guarded e) :
    u <:+ t ∧ (u.length < t.length ∨ G.rank r < e.height G.takes G.rank) := by
  have hbehind {e : Phrase R} {t v u : Text} {P : Prop} (hv : G.Matches e t v)
      (htakes : e.takes G.takes = true) (hu : u <:+ v) : u <:+ t ∧ (u.length < t.length ∨ P) := by
    obtain ⟨n, hn⟩ := hv
    have hvt := G.run_suffix hn
    exact ⟨hu.trans hvt.1, .inl (Nat.lt_of_le_of_lt hu.length_le (hvt.2 htakes))⟩
  have hinside {e f : Phrase R} {t u : Text} {r : R}
      (h : u <:+ t ∧ (u.length < t.length ∨ G.rank r < e.height G.takes G.rank))
      (hef : e.height G.takes G.rank ≤ f.height G.takes G.rank) :
      u <:+ t ∧ (u.length < t.length ∨ G.rank r < f.height G.takes G.rank) :=
    ⟨h.1, h.2.imp_right fun hlt => Nat.lt_of_lt_of_le hlt hef⟩
  induction h with
  | rule r t => exact ⟨List.suffix_rfl, .inr (Nat.lt_succ_self _)⟩
  | seqLeft _ ih =>
    obtain ⟨he, -⟩ := guarded_seq_iff.1 he
    exact hinside (ih he) (by rw [height]; omega)
  | @seqRight e f t v u r hv _ ih =>
    obtain ⟨-, hf, -⟩ := guarded_seq_iff.1 he
    have hstep := ih hf
    by_cases htakes : e.takes G.takes = true
    · exact hbehind hv htakes hstep.1
    · -- nothing need be taken in front, and the depth counts both phrases
      obtain ⟨n, hn⟩ := hv
      have hvt := (G.run_suffix hn).1
      have hle := hvt.length_le
      refine hinside (e := f) ⟨hstep.1.trans hvt, hstep.2.imp_left fun h => by omega⟩ ?_
      rw [height, if_neg htakes]
      omega
  | altLeft _ ih =>
    obtain ⟨he, -⟩ := guarded_alt_iff.1 he
    exact hinside (ih he) (by rw [height]; omega)
  | altRight _ ih =>
    obtain ⟨-, hf⟩ := guarded_alt_iff.1 he
    exact hinside (ih hf) (by rw [height]; omega)
  | star _ ih =>
    obtain ⟨he, -⟩ := guarded_star_iff.1 he
    exact hinside (ih he) (Nat.le_succ _)
  | starNext hv _ ih =>
    obtain ⟨-, htakes, -⟩ := guarded_star_iff.1 he
    exact hbehind hv htakes (ih he).1
  | spaced _ ih =>
    obtain ⟨-, he, -⟩ := guarded_spaced_iff.1 he
    exact hinside (ih he) (Nat.le_succ _)
  | spacedNext hv _ ih =>
    obtain ⟨-, -, htakes, -⟩ := guarded_spaced_iff.1 he
    exact hbehind hv htakes (ih (guarded_star_of_spaced he)).1
  | not _ ih => exact hinside (ih he) (Nat.le_succ _)

/-- What is entered by calls in a row stands further on, or needs less depth. -/
theorem suffix_of_calls {x y : Entry R} (h : Relation.TransGen G.Calls x y) :
    y.2 <:+ x.2 ∧ (y.2.length < x.2.length ∨ G.rank y.1 < G.rank x.1) := by
  have hcall {x y : Entry R} (h : G.Calls x y) :
      y.2 <:+ x.2 ∧ (y.2.length < x.2.length ∨ G.rank y.1 < G.rank x.1) := by
    obtain ⟨hsuffix, hrank⟩ := Enters.suffix G h (G.guarded_body x.1)
    exact ⟨hsuffix, hrank.imp_right fun h => Nat.lt_of_lt_of_le h (G.rank_body x.1)⟩
  induction h with
  | single h => exact hcall h
  | @tail y z _ hyz ih =>
    obtain ⟨hsuffix, hrank⟩ := hcall hyz
    have hle := hsuffix.length_le
    have hle' := ih.1.length_le
    exact ⟨hsuffix.trans ih.1, by omega⟩

/-- There are no endless calls within calls. -/
theorem wellFounded_calls : WellFounded fun y x => G.Calls x y := by
  refine Subrelation.wf ?_
    (InvImage.wf (fun x => (x.2.length, G.rank x.1)) (Prod.lex Nat.lt_wfRel Nat.lt_wfRel).wf)
  intro y x h
  obtain ⟨hsuffix, hrank⟩ := G.suffix_of_calls (.single h)
  refine Prod.lex_def.2 ?_
  exact hrank.elim .inl fun hrank => (Nat.lt_or_eq_of_le hsuffix.length_le).imp_right (⟨·, hrank⟩)

/-- A rule that is entered again within itself is entered further on. -/
theorem shorter_of_calls {r : R} {t u : Text} (h : Relation.TransGen G.Calls (r, t) (r, u)) :
    u <:+ t ∧ u.length < t.length := by
  obtain ⟨hsuffix, hrank⟩ := G.suffix_of_calls h
  exact ⟨hsuffix, hrank.resolve_right (Nat.lt_irrefl _)⟩

end Grammar
end ProtoDocs
