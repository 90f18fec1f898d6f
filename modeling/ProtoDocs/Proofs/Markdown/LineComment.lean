import ProtoDocs.Proofs.Markdown.Description

/-!
# Line comments

Comments of both sorts are cleaned in the same way.  Behind the slashes of a line comment, what
looks like a delimiter of a block or like the decoration of its lines is removed as well.

* `Description.shown`     a text as a description shows it;
* `Description.cleaned`   what is left of the text behind the slashes;
* `Description.Marked`    something in that text is taken for a part of a block;
* `cleaned_cases`         what is removed;
* `describe_line_comment`   what a line comment says, and when this is its text.
-/

namespace ProtoDocs

namespace Description

/-- a text as a description shows it: nothing, if it is a directive -/
def shown (t : Text) : Text := if t.isEmpty || isDirective t then [] else t

/-- the text behind the slashes of a line comment, cleaned like that of a block -/
def cleaned (t : Text) : Text :=
  undecorated (Text.dropSuffix "*/".toList (Text.dropPrefix "/*".toList (t.rdropWhile isBlank)))

/-- the text behind the slashes begins or ends like a block, or has a decoration in front -/
def Marked (t : Text) : Prop :=
  "/*".toList <+: t ∨ "*/".toList <:+ t.trim ∨ ['*'] <+: t.trim

end Description

open Description

/-! ## one comment -/

theorem describe_singleton (comment : Text) : describe [comment] = shown (plain comment) := by
  rw [describe, shown, List.filterMap_cons, ofComment?]
  cases (plain comment).isEmpty || isDirective (plain comment) with
  | true => rfl
  | false => exact Text.join_singleton _ _

theorem undelimited_line (t : Text) :
    undelimited ("//".toList ++ t) =
      Text.dropSuffix "*/".toList (Text.dropPrefix "/*".toList (t.rdropWhile isBlank)) := by
  have htrim : Text.trim ("//".toList ++ t) = "//".toList ++ t.rdropWhile isBlank := by
    show (('/' :: '/' :: t).dropWhile isBlank).rdropWhile isBlank =
      '/' :: '/' :: t.rdropWhile isBlank
    rw [List.dropWhile_cons_of_neg (by decide), Text.rdropWhile_cons_of_neg (by decide),
      Text.rdropWhile_cons_of_neg (by decide)]
  rw [undelimited, htrim, Text.dropPrefix_append]

theorem plain_line {t : Text} (ht : '\n' ∉ t) : plain ("//".toList ++ t) = cleaned t := by
  have hline : '\n' ∉ undelimited ("//".toList ++ t) := by
    rw [undelimited_line]
    intro hn
    exact ht ((List.rdropWhile_prefix isBlank t).subset
      (Text.mem_of_mem_dropPrefix (Text.mem_of_mem_dropSuffix hn)))
  rw [plain, Text.lines_of_notMem hline, cleaned, ← undelimited_line]
  generalize undelimited ("//".toList ++ t) = line
  cases line with
  | nil => rfl
  | cons c line =>
    show Text.join [' '] ([undecorated (c :: line)].filter (!·.isEmpty)) = _
    cases undecorated (c :: line) with
    | nil => rfl
    | cons d shown => exact Text.join_singleton _ _

/-! ## what is removed -/

theorem undecorated_length_le (line : Text) :
    (undecorated line).length ≤ (line.dropWhile isBlank).length := by
  have hmark : (Text.dropPrefix ['*'] line.trim).length ≤ line.trim.length :=
    (Text.dropPrefix_isSuffix _ _).length_le
  have hblank : ((Text.dropPrefix ['*'] line.trim).dropWhile isBlank).length ≤
      (Text.dropPrefix ['*'] line.trim).length := (List.dropWhile_suffix isBlank).length_le
  calc (undecorated line).length
      ≤ ((Text.dropPrefix ['*'] line.trim).dropWhile isBlank).length := Text.trim_length_le _
    _ ≤ line.trim.length := hblank.trans hmark
    _ ≤ (line.dropWhile isBlank).length := Text.trim_length_le line

theorem undecorated_eq (line : Text) :
    undecorated line = (Text.dropPrefix ['*'] line.trim).trim := rfl

/-- A text has a beginning of a block in front, or else an end of one behind, or neither. -/
theorem cleaned_cases (t : Text) :
    (∃ s, t = "/*".toList ++ s ∧ t.trim = "/*".toList ++ s.rdropWhile isBlank ∧
      cleaned t = undecorated (Text.dropSuffix "*/".toList (s.rdropWhile isBlank))) ∨
    (¬"/*".toList <+: t ∧ ∃ b, t.trim = b.dropWhile isBlank ++ "*/".toList ∧
      cleaned t = undecorated b) ∨
    ¬"/*".toList <+: t ∧ ¬"*/".toList <:+ t.trim ∧
      cleaned t = (Text.dropPrefix ['*'] t.trim).trim := by
  by_cases hopen : "/*".toList <+: t
  · obtain ⟨s, rfl⟩ := hopen
    have hend : ("/*".toList ++ s).rdropWhile isBlank = "/*".toList ++ s.rdropWhile isBlank :=
      Text.rdropWhile_append_of_self (by decide) s
    refine .inl ⟨s, rfl, ?_, ?_⟩
    · show (("/*".toList ++ s).dropWhile isBlank).rdropWhile isBlank = _
      rw [← Text.dropWhile_rdropWhile, hend]
      exact List.dropWhile_cons_of_neg (by decide)
    · rw [cleaned, hend, Text.dropPrefix_append]
  · have htrim : (t.rdropWhile isBlank).dropWhile isBlank = t.trim := Text.dropWhile_rdropWhile t
    have hnot : ¬"/*".toList <+: t.rdropWhile isBlank :=
      fun h => hopen (h.trans (List.rdropWhile_prefix isBlank t))
    by_cases hclose : "*/".toList <:+ t.rdropWhile isBlank
    · obtain ⟨b, hb⟩ := hclose
      refine .inr (.inl ⟨hopen, b, ?_, ?_⟩)
      · rw [← htrim, ← hb]
        exact Text.dropWhile_append_of_self (by decide) b
      · rw [cleaned, Text.dropPrefix_of_not hnot, ← hb, Text.dropSuffix_append]
    · refine .inr (.inr ⟨hopen, fun h => hclose ?_, ?_⟩)
      · exact h.trans (htrim ▸ List.dropWhile_suffix isBlank)
      · rw [cleaned, Text.dropPrefix_of_not hnot, Text.dropSuffix_of_not hclose, undecorated_eq,
          Text.trim_rdropWhile]

theorem cleaned_of_not_marked {t : Text} (h : ¬Marked t) : cleaned t = t.trim := by
  obtain ⟨hopen, h⟩ := not_or.1 h
  obtain ⟨hclose, hstar⟩ := not_or.1 h
  rcases cleaned_cases t with ⟨s, rfl, -⟩ | ⟨-, b, hb, -⟩ | ⟨-, -, hclean⟩
  · exact absurd (List.prefix_append _ s) hopen
  · exact absurd (hb ▸ List.suffix_append _ _) hclose
  · rw [hclean, Text.dropPrefix_of_not hstar, (Text.trim_tight t).trim_eq]

theorem cleaned_length_lt {t : Text} (h : Marked t) : (cleaned t).length < t.trim.length := by
  rcases cleaned_cases t with ⟨s, -, htrim, hclean⟩ | ⟨-, b, htrim, hclean⟩ |
    ⟨hopen, hclose, hclean⟩
  · have hle := undecorated_length_le (Text.dropSuffix "*/".toList (s.rdropWhile isBlank))
    have hblank := (List.dropWhile_suffix isBlank
      (l := Text.dropSuffix "*/".toList (s.rdropWhile isBlank))).length_le
    have hmark := (Text.dropSuffix_isPrefix "*/".toList (s.rdropWhile isBlank)).length_le
    rw [hclean, htrim, List.length_append]
    have htwo : "/*".toList.length = 2 := rfl
    omega
  · have hle := undecorated_length_le b
    rw [hclean, htrim, List.length_append]
    have htwo : "*/".toList.length = 2 := rfl
    omega
  · obtain ⟨s, hs⟩ := (h.resolve_left hopen).resolve_left hclose
    have hle := Text.trim_length_le s
    have hblank := (List.dropWhile_suffix isBlank (l := s)).length_le
    rw [hclean, ← hs, Text.dropPrefix_append, List.length_append, List.length_singleton]
    omega

/-! ## directives -/

theorem isDirective_iff {t : Text} : isDirective t = true ↔ ∃ d ∈ directives, d <+: t := by
  simp [isDirective, List.any_eq_true]

/-- No directive is made of what is removed. -/
theorem directives_firm :
    ∀ d ∈ directives, d ≠ [] ∧ '*' ∉ d ∧ '/' ∉ d ∧ d.rdropWhile isBlank = d := by
  decide

theorem isDirective_cleaned {t : Text} (h : isDirective t.trim = true) :
    isDirective (cleaned t) = true := by
  obtain ⟨d, hd, hprefix⟩ := isDirective_iff.1 h
  obtain ⟨hne, hstar, hslash, hend⟩ := directives_firm d hd
  refine isDirective_iff.2 ⟨d, hd, ?_⟩
  have hkeep {u : Text} (hu : d <+: u) : (Text.dropPrefix ['*'] u) = u :=
    Text.dropPrefix_of_not (Text.not_prefix_of_notMem hne hstar hu)
  rcases cleaned_cases t with ⟨s, -, htrim, -⟩ | ⟨-, b, htrim, hclean⟩ | ⟨-, -, hclean⟩
  · rw [htrim] at hprefix
    exact absurd (List.prefix_append ['/'] _) (Text.not_prefix_of_notMem hne hslash hprefix)
  · -- the directive ends in front of what is taken for the end of a block
    obtain ⟨u, hu⟩ : d <+: b.dropWhile isBlank := by
      rw [htrim] at hprefix
      rcases List.prefix_or_prefix_of_prefix hprefix (List.prefix_append _ _) with h | ⟨x, rfl⟩
      · exact h
      · have hx : x <+: "*/".toList := (List.prefix_append_right_inj _).1 hprefix
        cases x with
        | nil => exact ⟨[], by simp⟩
        | cons c x =>
          obtain ⟨y, hy⟩ := hx
          refine absurd ?_ hstar
          rw [(List.cons.inj hy).1]
          exact List.mem_append_right _ List.mem_cons_self
    have hb : d <+: b.trim := by
      show d <+: (b.dropWhile isBlank).rdropWhile isBlank
      rw [← hu, Text.rdropWhile_append_of_self hend]
      exact List.prefix_append _ _
    rwa [hclean, undecorated_eq, hkeep hb, (Text.trim_tight b).trim_eq]
  · rwa [hclean, hkeep hprefix, (Text.trim_tight t).trim_eq]

theorem shown_of_isDirective {t : Text} (h : isDirective t = true) : shown t = [] := by
  rw [shown, h, Bool.or_true, if_pos rfl]

theorem shown_of_ne_nil {t : Text} (hne : t ≠ []) (h : isDirective t = false) : shown t = t := by
  rw [shown, h, Bool.or_false, if_neg (by simpa using hne)]

theorem shown_length_le (t : Text) : (shown t).length ≤ t.length := by
  rw [shown]
  split
  · exact Nat.zero_le _
  · exact Nat.le_refl _

/-! ## line comments -/

/-- **What a line comment says.**  A line comment is described by what is left of the text behind
its slashes when one `/*` directly behind them, one `*/` at the end, and one asterisk in front are
removed together with blanks.  This is the text itself, trimmed, exactly if there is none of the
three, or if the text is a directive, which is not shown either way. -/
theorem describe_line_comment {t : Text} (ht : '\n' ∉ t) :
    describe ["//".toList ++ t] = shown (cleaned t) ∧
      (describe ["//".toList ++ t] = shown t.trim ↔ isDirective t.trim = true ∨ ¬Marked t) := by
  have hdescribe : describe ["//".toList ++ t] = shown (cleaned t) := by
    rw [describe_singleton, plain_line ht]
  refine ⟨hdescribe, ?_⟩
  rw [hdescribe]
  constructor
  · intro heq
    cases hd : isDirective t.trim with
    | true => exact .inl rfl
    | false =>
      refine .inr fun hmarked => ?_
      have hlt := cleaned_length_lt hmarked
      have hne : t.trim ≠ [] := List.ne_nil_of_length_pos (by omega)
      have hle := shown_length_le (cleaned t)
      rw [heq, shown_of_ne_nil hne hd] at hle
      omega
  · rintro (hd | hmarked)
    · rw [shown_of_isDirective hd, shown_of_isDirective (isDirective_cleaned hd)]
    · rw [cleaned_of_not_marked hmarked]

theorem describe_line_comment_bold :
    '\n' ∉ " *bold* ".toList ∧ describe ["// *bold* ".toList] = "bold*".toList ∧
      describe ["// *bold* ".toList] ≠ shown (Text.trim " *bold* ".toList) :=
  have ht : '\n' ∉ " *bold* ".toList := by decide
  have hmarked :
      ¬(isDirective (Text.trim " *bold* ".toList) = true ∨ ¬Marked " *bold* ".toList) := by
    rintro (hd | hmarked)
    · exact absurd hd (by decide)
    · exact hmarked (.inr (.inr (by decide)))
  ⟨ht, (describe_line_comment ht).1.trans (by decide),
    fun h => hmarked ((describe_line_comment ht).2.1 h)⟩

/-- Not every line comment is described by its text: an asterisk in front is lost, as are delimiters
of a block at the ends. -/
theorem not_forall_line_comment_shown :
    ¬∀ t : Text, '\n' ∉ t → '\r' ∉ t → describe ["//".toList ++ t] = shown t.trim := by
  intro hall
  have hbold := hall " *bold*".toList (by decide) (by decide)
  exact absurd hbold (by decide)

end ProtoDocs
