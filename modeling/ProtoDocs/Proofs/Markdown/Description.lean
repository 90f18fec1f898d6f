import ProtoDocs.Markdown.Description
import ProtoDocs.Proofs.Markdown.Table
import ProtoDocs.Proofs.Text.Trim

/-!
# Descriptions in cells

A description is one line without blanks at its ends: cut at line feeds, trimmed and joined with
spaces.  Nothing is done about the bars in it, nor about a carriage return that does not end a line.

* `describe_tight`              the ends of a description;
* `lineFeed_notMem_describe`    there are no line feeds in it;
* `fits_describe_iff`           when it can stand in a cell.
-/

namespace ProtoDocs

open Description

theorem Text.lineFeed_notMem_lines {t line : Text} (h : line ∈ t.lines) : '\n' ∉ line := by
  have hpieces : ∀ p ∈ t.splitOn '\n', '\n' ∉ p := fun p hp => notMem_of_mem_splitOn hp
  rw [lines, List.mem_append] at h
  rcases h with h | h
  · obtain ⟨p, hp, rfl⟩ := List.mem_map.1 h
    exact fun hn => hpieces p (List.dropLast_subset _ hp) (mem_of_mem_dropSuffix hn)
  · split at h
    · simp at h
    · obtain rfl := List.mem_singleton.1 h
      rw [List.getLastD_eq_getLast?, List.getLast?_eq_some_getLast (List.splitOn_ne_nil '\n' t)]
      exact hpieces _ (List.getLast_mem _)

theorem mem_of_mem_undecorated {line : Text} {c : Char} (h : c ∈ undecorated line) : c ∈ line :=
  Text.mem_of_mem_trimBy (Text.mem_of_mem_dropPrefix (Text.mem_of_mem_trimBy h))

theorem mem_texts {comment p : Text}
    (h : p ∈ ((undelimited comment).lines.map undecorated).filter (!·.isEmpty)) :
    p ≠ [] ∧ Text.Tight p ∧ '\n' ∉ p := by
  rw [List.mem_filter, List.mem_map] at h
  obtain ⟨⟨line, hline, rfl⟩, hne⟩ := h
  exact ⟨by simpa using hne, Text.trim_tight _,
    fun hn => Text.lineFeed_notMem_lines hline (mem_of_mem_undecorated hn)⟩

theorem plain_tight (comment : Text) : Text.Tight (plain comment) :=
  Text.join_tight fun _ hp => ⟨(mem_texts hp).1, (mem_texts hp).2.1⟩

theorem lineFeed_notMem_plain (comment : Text) : '\n' ∉ plain comment := by
  rw [plain, Text.mem_join_iff (by decide)]
  rintro ⟨p, hp, hn⟩
  exact (mem_texts hp).2.2 hn

/-- A comment with something to say says it in its text. -/
theorem ofComment?_eq_some {comment t : Text} (h : ofComment? comment = some t) :
    t ≠ [] ∧ t = plain comment := by
  rw [ofComment?] at h
  simp only [Option.ite_none_left_eq_some, Bool.or_eq_true, not_or, List.isEmpty_iff] at h
  obtain ⟨⟨hne, _⟩, ht⟩ := h
  cases ht
  exact ⟨hne, rfl⟩

theorem describe_tight (comments : List Text) : Text.Tight (describe comments) := by
  refine Text.join_tight fun t ht => ?_
  obtain ⟨comment, _, hc⟩ := List.mem_filterMap.1 ht
  obtain ⟨hne, rfl⟩ := ofComment?_eq_some hc
  exact ⟨hne, plain_tight comment⟩

theorem lineFeed_notMem_describe (comments : List Text) : '\n' ∉ describe comments := by
  rw [describe, Text.mem_join_iff (by decide)]
  rintro ⟨t, ht, hn⟩
  obtain ⟨comment, _, hc⟩ := List.mem_filterMap.1 ht
  obtain ⟨_, rfl⟩ := ofComment?_eq_some hc
  exact lineFeed_notMem_plain comment hn

/-- A description can stand in a cell unless comments bring a bar or a carriage return into it. -/
theorem fits_describe_iff (comments : List Text) :
    Fits (describe comments) ↔ bars false (describe comments) = 0 ∧ '\r' ∉ describe comments := by
  rw [Fits]
  simp only [lineFeed_notMem_describe, not_false_eq_true, true_and]

end ProtoDocs
