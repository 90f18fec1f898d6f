import ProtoDocs.Proofs.Markdown.LineComment

/-!
# Descriptions of several comments

Each comment adds to a description on its own: with a space between, or nothing at all if it has
nothing to say.

* `Description.spaced`    two texts with a space between, unless one is empty;
* `join_append_spaced`    joined texts are put together so;
* `describe_cons`         a description grows comment by comment;
* `describe_append`       descriptions are put together, and comments without text do not matter.
-/

namespace ProtoDocs

namespace Description

/-- two texts with a space between them; an empty text adds nothing -/
def spaced (s t : Text) : Text :=
  if s = [] then t else if t = [] then s else s ++ ' ' :: t

theorem nil_spaced (t : Text) : spaced [] t = t := if_pos rfl

theorem spaced_nil (s : Text) : spaced s [] = s := by
  by_cases hs : s = []
  · rw [hs, nil_spaced]
  · rw [spaced, if_neg hs, if_pos rfl]

end Description

open Description

theorem join_append_spaced {ps qs : List Text} (hp : ∀ p ∈ ps, p ≠ []) (hq : ∀ q ∈ qs, q ≠ []) :
    Text.join [' '] (ps ++ qs) = spaced (Text.join [' '] ps) (Text.join [' '] qs) := by
  by_cases hps : ps = []
  · rw [hps, List.nil_append, Text.join_nil, nil_spaced]
  · by_cases hqs : qs = []
    · rw [hqs, List.append_nil, Text.join_nil, spaced_nil]
    · rw [Text.join_append _ hps hqs, spaced, if_neg (Text.join_ne_nil hps hp),
        if_neg (Text.join_ne_nil hqs hq), List.singleton_append]

theorem ne_nil_of_mem_filterMap {comments : List Text} :
    ∀ t ∈ comments.filterMap ofComment?, t ≠ [] := by
  intro t ht
  obtain ⟨comment, _, hc⟩ := List.mem_filterMap.1 ht
  exact (ofComment?_eq_some hc).1

theorem describe_concat (cs ds : List Text) :
    describe (cs ++ ds) = spaced (describe cs) (describe ds) := by
  rw [describe, List.filterMap_append]
  exact join_append_spaced ne_nil_of_mem_filterMap ne_nil_of_mem_filterMap

theorem describe_cons (c : Text) (cs : List Text) :
    describe (c :: cs) = spaced (describe [c]) (describe cs) :=
  describe_concat [c] cs

theorem describe_silent {cs : List Text} (h : ∀ c ∈ cs, describe [c] = []) : describe cs = [] := by
  induction cs with
  | nil => rfl
  | cons c cs ih =>
    rw [List.forall_mem_cons] at h
    rw [describe_cons, h.1, nil_spaced, ih h.2]

theorem not_prefix_shown {d : Text} (hd : d ∈ directives) (t : Text) : ¬d <+: shown t := by
  intro hprefix
  rw [shown] at hprefix
  split at hprefix
  · exact (directives_firm d hd).1 (List.prefix_nil.1 hprefix)
  · rename_i hnot
    rw [isDirective_iff.2 ⟨d, hd, hprefix⟩, Bool.or_true] at hnot
    exact hnot rfl

/-- **Descriptions are put together comment by comment.**  The description of a list of comments and
then another is that of the one, a space, and that of the other, or one of them alone if the other
is empty.  There are no blanks at the ends of a description.  What a single comment adds begins with
no mark of a directive, and comments that add nothing can be put in and left out anywhere. -/
theorem describe_append :
    (∀ cs ds : List Text, describe (cs ++ ds) =
      if describe cs = [] then describe ds
      else if describe ds = [] then describe cs
      else describe cs ++ ' ' :: describe ds) ∧
    (∀ (cs : List Text) (x : Char),
      (describe cs).head? = some x ∨ (describe cs).getLast? = some x → isBlank x = false) ∧
    (∀ (c : Text), ∀ d ∈ ["protolint:".toList, "--8<--".toList, "Next ID:".toList],
      ¬d <+: describe [c]) ∧
    ∀ above silent below : List Text, (∀ c ∈ silent, describe [c] = []) →
      describe (above ++ silent ++ below) = describe (above ++ below) := by
  refine ⟨describe_concat, fun cs x hx => ?_, fun c d hd => ?_, fun above silent below h => ?_⟩
  · exact hx.elim ((describe_tight cs).1 x) ((describe_tight cs).2 x)
  · rw [describe_singleton]
    exact not_prefix_shown hd _
  · rw [describe_concat, describe_concat above, describe_silent h, spaced_nil, ← describe_concat]

/-- The mark of a directive may still come together out of two comments. -/
example : describe ["// Next".toList, "// ID: 5".toList] = "Next ID: 5".toList := by decide

theorem describe_append_directive : describe ["// protolint:disable".toList] = [] ∧
    describe ["/* One. */".toList, "// protolint:disable".toList, "// Two.".toList] =
      "One. Two.".toList :=
  have hsilent : describe ["// protolint:disable".toList] = [] := by decide
  ⟨hsilent, (describe_append.2.2.2 ["/* One. */".toList] ["// protolint:disable".toList]
    ["// Two.".toList] (by simpa using hsilent)).trans (by decide)⟩

end ProtoDocs
