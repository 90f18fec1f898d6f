import ProtoDocs.Proofs.Grammar.Gap
import ProtoDocs.Proofs.Markdown.LineComment
import ProtoDocs.Proofs.Markdown.Lines
import ProtoDocs.Proofs.Text.Breaks

/-!
# Line ends in comments

A line of a schema file ends at a line feed, at a carriage return, or at both together.  To a
description a carriage return alone is only a blank: a block whose lines end so is one line to it,
and the carriage returns between its texts stay.

* `undecorated_append_cons`, `mem_undecorated_iff`   a blank stays where there is text on both sides;
* `Description.visible`     the lines that are not blank;
* `Description.OnOneLine`   the text of the lines is on one of them;
* `undecorated_join_return`  what becomes of lines that end in carriage returns;
* `describe_withBreaks`   when line ends do not matter, and when one is left.
-/

namespace ProtoDocs

open Description

/-! ## blanks between texts -/

/-- With text on both sides, a character of a line stays, and what stands in front of it is what there
is to read there, and blanks. -/
theorem undecorated_append_cons {a b : Text} (x : Char) (ha : undecorated a ≠ [])
    (hb : Text.trim b ≠ []) :
    ∃ u, undecorated (a ++ x :: b) = u ++ x :: b.rdropWhile isBlank ∧
      undecorated a = u.rdropWhile isBlank := by
  by_cases hstar : ['*'] <+: a.trim
  · obtain ⟨s, l, hs, rfl⟩ := exists_star hstar
    rw [undecorated_star hs] at ha
    rw [List.append_assoc, List.cons_append, undecorated_star hs, undecorated_star hs]
    exact ⟨l.dropWhile isBlank, Text.trim_append_cons x ha hb, rfl⟩
  · rw [undecorated_of_not hstar] at ha
    refine ⟨a.dropWhile isBlank, ?_, undecorated_of_not hstar⟩
    have htrim := Text.trim_append_cons x ha hb
    rw [undecorated_of_not, htrim]
    -- the line begins with what is in front of the character
    rintro ⟨u, hu⟩
    rw [htrim] at hu
    refine hstar ?_
    show ['*'] <+: (a.dropWhile isBlank).rdropWhile isBlank
    cases hd : a.dropWhile isBlank with
    | nil => exact absurd (congrArg (·.rdropWhile isBlank) hd) ha
    | cons c w =>
      rw [hd] at hu
      obtain ⟨rfl, -⟩ := List.cons.inj hu
      rw [Text.rdropWhile_cons_of_neg (by decide)]
      exact ⟨_, rfl⟩

/-- A blank stays on a line exactly if there is text on both sides of it. -/
theorem mem_undecorated_iff {line : Text} {x : Char} (hx : isBlank x = true) :
    x ∈ undecorated line ↔
      ∃ a b, line = a ++ x :: b ∧ undecorated a ≠ [] ∧ Text.trim b ≠ [] := by
  constructor
  · intro h
    by_cases hstar : ['*'] <+: line.trim
    · obtain ⟨s, l, hs, rfl⟩ := exists_star hstar
      rw [undecorated_star hs] at h
      obtain ⟨a, b, rfl, ha, hb⟩ := Text.exists_of_mem_trim hx h
      exact ⟨s ++ '*' :: a, b, by simp, by rwa [undecorated_star hs], hb⟩
    · rw [undecorated_of_not hstar] at h
      obtain ⟨a, b, rfl, ha, hb⟩ := Text.exists_of_mem_trim hx h
      refine ⟨a, b, rfl, ?_, hb⟩
      rwa [undecorated_of_not]
      intro hstar'
      obtain ⟨s, l, hs, rfl⟩ := exists_star hstar'
      refine hstar ?_
      rw [List.append_assoc, List.cons_append, trim_star hs]
      exact List.prefix_append _ _
  · rintro ⟨a, b, rfl, ha, hb⟩
    obtain ⟨u, hu, -⟩ := undecorated_append_cons x ha hb
    rw [hu]
    exact List.mem_append_right _ List.mem_cons_self

/-! ## lines that show something -/

namespace Description

/-- the lines that are not blank, without the blanks at their ends -/
def visible (ls : List Text) : List Text := (ls.map Text.trim).filter (!·.isEmpty)

/-- all that the lines show is on one of them, or below an asterisk that stands alone -/
def OnOneLine (ls : List Text) : Prop :=
  (visible ls).length ≤ 1 ∨ ∃ l, visible ls = [['*'], l] ∧ ¬['*'] <+: l

end Description

section
variable {l : Text} {ls : List Text}

theorem visible_cons_blank (h : l.trim = []) : visible (l :: ls) = visible ls := by
  rw [visible, List.map_cons, h]
  rfl

theorem visible_cons (h : l.trim ≠ []) : visible (l :: ls) = l.trim :: visible ls := by
  rw [visible, List.map_cons, List.filter_cons_of_pos (by simpa using h)]
  rfl

theorem undecorated_blank (h : l.trim = []) : undecorated l = [] := by
  rw [undecorated_congr (t := []) h]
  rfl

theorem texts_cons_nil (h : undecorated l = []) : texts (l :: ls) = texts ls := by
  rw [← List.singleton_append, texts_append, texts_of_undecorated_nil h, List.nil_append]

theorem texts_cons (h : undecorated l ≠ []) : texts (l :: ls) = undecorated l :: texts ls := by
  rw [← List.singleton_append, texts_append, texts_of_undecorated rfl h]
  rfl

theorem join_return (l : Text) (hls : ls ≠ []) :
    Text.join ['\r'] (l :: ls) = l ++ '\r' :: Text.join ['\r'] ls :=
  Text.join_cons ['\r'] l hls

/-- A blank line in front does not matter, even if it ends in a carriage return. -/
theorem trim_return_front (hl : l.trim = []) (t : Text) : Text.trim (l ++ '\r' :: t) = t.trim := by
  have hblank : ∀ c ∈ l ++ ['\r'], isBlank c = true :=
    List.forall_mem_append.2 ⟨Text.trim_eq_nil_iff.1 hl, by decide⟩
  rw [List.append_cons, Text.trim_append_left hblank]

theorem trim_return_back {t : Text} (ht : t.trim = []) (l : Text) :
    Text.trim (l ++ '\r' :: t) = l.trim := by
  have hblank : ∀ c ∈ '\r' :: t, isBlank c = true :=
    List.forall_mem_cons.2 ⟨by decide, Text.trim_eq_nil_iff.1 ht⟩
  exact Text.trim_append_right hblank l

theorem visible_eq_nil_cons : visible (l :: ls) = [] ↔ l.trim = [] ∧ visible ls = [] := by
  by_cases h : l.trim = []
  · rw [visible_cons_blank h, and_iff_right h]
  · rw [visible_cons h]
    exact ⟨fun hnil => absurd hnil (List.cons_ne_nil _ _), fun hnil => absurd hnil.1 h⟩

theorem texts_of_visible_nil (h : visible ls = []) : texts ls = [] := by
  induction ls with
  | nil => rfl
  | cons l ls ih =>
    obtain ⟨hl, hls⟩ := visible_eq_nil_cons.1 h
    rw [texts_cons_nil (undecorated_blank hl), ih hls]

theorem trim_join_return_iff : Text.trim (Text.join ['\r'] ls) = [] ↔ visible ls = [] := by
  induction ls with
  | nil => exact ⟨fun _ => rfl, fun _ => rfl⟩
  | cons l ls ih =>
    rw [visible_eq_nil_cons, ← ih]
    by_cases hls : ls = []
    · subst hls
      rw [Text.join_singleton]
      exact (and_iff_left rfl).symm
    · rw [join_return l hls]
      constructor
      · intro h
        have hall := List.forall_mem_append.1 (Text.trim_eq_nil_iff.1 h)
        exact ⟨Text.trim_eq_nil_iff.2 hall.1,
          Text.trim_eq_nil_iff.2 (List.forall_mem_cons.1 hall.2).2⟩
      · rintro ⟨hl, hrest⟩
        rw [trim_return_front hl, hrest]

theorem visible_cases (ls : List Text) : visible ls = [] ∨
    (∃ l, l.trim ≠ [] ∧ visible ls = [l.trim] ∧ Text.trim (Text.join ['\r'] ls) = l.trim ∧
      texts ls = texts [l]) ∨
    ∃ l ms, l.trim ≠ [] ∧ visible ms ≠ [] ∧ visible ls = l.trim :: visible ms ∧
      Text.trim (Text.join ['\r'] ls) = Text.trim (l ++ '\r' :: Text.join ['\r'] ms) ∧
      texts ls = texts (l :: ms) := by
  induction ls with
  | nil => exact .inl rfl
  | cons l ls ih =>
    by_cases hl : l.trim = []
    · by_cases hls : ls = []
      · subst hls
        exact .inl (visible_cons_blank hl)
      · rwa [visible_cons_blank hl, join_return l hls, trim_return_front hl,
          texts_cons_nil (undecorated_blank hl)]
    · by_cases hls : visible ls = []
      · refine .inr (.inl ⟨l, hl, by rw [visible_cons hl, hls], ?_, ?_⟩)
        · by_cases hnil : ls = []
          · rw [hnil, Text.join_singleton]
          · rw [join_return l hnil, trim_return_back (trim_join_return_iff.2 hls)]
        · rw [← List.singleton_append, texts_append, texts_of_visible_nil hls, List.append_nil]
      · have hne : ls ≠ [] := by
          rintro rfl
          exact hls rfl
        exact .inr (.inr ⟨l, ls, hl, hls, visible_cons hl, by rw [join_return l hne], rfl⟩)

end

/-! ## lines that end in carriage returns -/

/-- a text that is shown apart from another: not empty, not the same, and a directive only if the
other is one as well -/
def ShownApart (s t : Text) : Prop :=
  s ≠ [] ∧ s ≠ t ∧ (isDirective s = true → isDirective t = true)

theorem isDirective_join {t : Text} {d : Text} (hd : d ∈ directives) (h : d <+: t)
    (ts : List Text) : isDirective (Text.join [' '] (t :: ts)) = true := by
  refine isDirective_iff.2 ⟨d, hd, h.trans ?_⟩
  by_cases hts : ts = []
  · rw [hts, Text.join_singleton]
  · rw [Text.join_cons _ _ hts]
    exact List.prefix_append _ _

/-- A directive ends in front of a carriage return, and of blanks in front of that. -/
theorem prefix_front {d u v : Text} (hd : d ∈ directives) (h : d <+: u ++ '\r' :: v) :
    d <+: u.rdropWhile isBlank := by
  have hreturn : ∀ d ∈ directives, '\r' ∉ d := by decide
  obtain ⟨w, rfl⟩ : d <+: u := by
    rcases List.prefix_or_prefix_of_prefix h (List.prefix_append u _) with hdu | ⟨w, rfl⟩
    · exact hdu
    · cases w with
      | nil => exact ⟨[], by simp⟩
      | cons c w =>
        obtain ⟨x, hx⟩ := (List.prefix_append_right_inj u).1 h
        rw [(List.cons.inj hx).1] at hd
        exact absurd (List.mem_append_right u List.mem_cons_self) (hreturn _ hd)
  rw [Text.rdropWhile_append_of_self (directives_firm d hd).2.2.2]
  exact List.prefix_append _ _

/-- What has a carriage return in it is shown apart from what has none. -/
theorem shownApart_of_return {u v t : Text} (ht : '\r' ∉ t)
    (hd : ∀ d ∈ directives, d <+: u.rdropWhile isBlank → isDirective t = true) :
    ShownApart (u ++ '\r' :: v) t := by
  have hmem : '\r' ∈ u ++ '\r' :: v := List.mem_append_right u List.mem_cons_self
  refine ⟨List.ne_nil_of_mem hmem, fun heq => ht (heq ▸ hmem), fun hdir => ?_⟩
  obtain ⟨d, hmem, hprefix⟩ := isDirective_iff.1 hdir
  exact hd d hmem (prefix_front hmem hprefix)

section
variable {ls : List Text}

theorem return_notMem_texts (h : ∀ l ∈ ls, '\r' ∉ l) : '\r' ∉ Text.join [' '] (texts ls) := by
  rw [Text.mem_join_iff (by decide)]
  rintro ⟨t, ht, hr⟩
  obtain ⟨l, hl, rfl⟩ := List.mem_map.1 (List.mem_of_mem_filter ht)
  exact h l hl (mem_of_mem_undecorated hr)

/-- An asterisk that stands alone leaves the lines below it to be trimmed. -/
theorem undecorated_lone {l : Text} (hl : l.trim ≠ []) (h : undecorated l = []) :
    l.trim = ['*'] ∧ ∀ t : Text, undecorated (l ++ '\r' :: t) = t.trim := by
  have hstar : ['*'] <+: l.trim := by
    by_contra hnot
    exact hl (undecorated_of_not hnot ▸ h)
  obtain ⟨s, r, hs, rfl⟩ := exists_star hstar
  rw [undecorated_star hs] at h
  refine ⟨?_, fun t => ?_⟩
  · have hr : r.rdropWhile isBlank = [] :=
      List.rdropWhile_eq_nil_iff.2 (Text.trim_eq_nil_iff.1 h)
    rw [trim_star hs, hr]
    rfl
  · rw [List.append_assoc, List.cons_append, undecorated_star hs, trim_return_front h]

/-- The decoration of a line is no part of what it shows. -/
theorem trim_ne_undecorated {l : Text} (h : ['*'] <+: l.trim) : l.trim ≠ undecorated l := by
  obtain ⟨s, r, hs, rfl⟩ := exists_star h
  rw [trim_star hs, undecorated_star hs]
  intro heq
  have hlen := congrArg List.length heq
  have hle := Text.trim_length_le (r.rdropWhile isBlank)
  have hdrop := (List.dropWhile_suffix isBlank (l := r.rdropWhile isBlank)).length_le
  rw [Text.trim_rdropWhile] at hle
  rw [List.length_append, List.length_singleton] at hlen
  omega

theorem onOneLine_iff {l : Text} {ms : List Text} (h : visible ls = l :: visible ms)
    (hms : visible ms ≠ []) :
    OnOneLine ls ↔ l = ['*'] ∧ ∃ m, visible ms = [m] ∧ ¬['*'] <+: m := by
  have hlen : 0 < (visible ms).length := List.length_pos_iff.2 hms
  rw [OnOneLine, h, List.length_cons]
  constructor
  · rintro (hle | ⟨m, heq, hm⟩)
    · omega
    · obtain ⟨rfl, hone⟩ := List.cons.inj heq
      exact ⟨rfl, m, hone, hm⟩
  · rintro ⟨rfl, m, hone, hm⟩
    exact .inr ⟨m, by rw [hone], hm⟩

/-- Lines that are only trimmed, and not undecorated, show the same if they are one line without a
decoration. -/
theorem trim_join_return (h : '\r' ∉ Text.join [' '] (texts ls)) (hls : visible ls ≠ []) :
    ((∃ m, visible ls = [m] ∧ ¬['*'] <+: m) ∧
      Text.trim (Text.join ['\r'] ls) = Text.join [' '] (texts ls)) ∨
    ((¬∃ m, visible ls = [m] ∧ ¬['*'] <+: m) ∧
      ShownApart (Text.trim (Text.join ['\r'] ls)) (Text.join [' '] (texts ls))) := by
  have hdirective {l : Text} (hl : ['*'] <+: l.trim) : ∀ d ∈ directives, ¬d <+: l.trim :=
    fun d hd hprefix => Text.not_prefix_of_notMem (directives_firm d hd).1
      (directives_firm d hd).2.1 hprefix hl
  rcases visible_cases ls with hnone | ⟨l, hl, hone, htrim, htexts⟩ |
    ⟨l, ms, hl, hms, hvisible, htrim, htexts⟩
  · exact absurd hnone hls
  · rw [hone, htrim, htexts, join_texts_singleton]
    by_cases hstar : ['*'] <+: l.trim
    · refine .inr ⟨?_, hl, trim_ne_undecorated hstar, fun hdir => ?_⟩
      · rintro ⟨m, heq, hm⟩
        exact hm ((List.cons.inj heq).1 ▸ hstar)
      · obtain ⟨d, hd, hprefix⟩ := isDirective_iff.1 hdir
        exact absurd hprefix (hdirective hstar d hd)
    · exact .inl ⟨⟨_, rfl, hstar⟩, (undecorated_of_not hstar).symm⟩
  · refine .inr ⟨?_, ?_⟩
    · rintro ⟨m, heq, -⟩
      rw [hvisible] at heq
      exact hms (List.cons.inj heq).2
    · have hrest : Text.trim (Text.join ['\r'] ms) ≠ [] :=
        fun hnil => hms (trim_join_return_iff.1 hnil)
      rw [htrim, Text.trim_append_cons '\r' hl hrest]
      refine shownApart_of_return h fun d hd hprefix => ?_
      have hplain := undecorated_of_not fun hstar => hdirective hstar d hd hprefix
      rw [htexts, texts_cons (hplain ▸ hl), hplain]
      exact isDirective_join hd hprefix _

/-- If all is on one line, or else below an asterisk, carriage returns do as well as line feeds. -/
theorem undecorated_join_return (h : ∀ l ∈ ls, '\r' ∉ l) :
    (OnOneLine ls ∧ undecorated (Text.join ['\r'] ls) = Text.join [' '] (texts ls)) ∨
    (¬OnOneLine ls ∧
      ShownApart (undecorated (Text.join ['\r'] ls)) (Text.join [' '] (texts ls))) := by
  have hlf := return_notMem_texts h
  rcases visible_cases ls with hnone | ⟨l, -, hone, htrim, htexts⟩ |
    ⟨l, ms, hl, hms, hvisible, htrim, htexts⟩
  · refine .inl ⟨.inl (by rw [hnone]; exact Nat.zero_le 1), ?_⟩
    rw [undecorated_blank (trim_join_return_iff.2 hnone), texts_of_visible_nil hnone]
    rfl
  · refine .inl ⟨.inl (by rw [hone]; exact Nat.le_refl 1), ?_⟩
    rw [undecorated_congr htrim, htexts, join_texts_singleton]
  · rw [htexts] at hlf
    rw [onOneLine_iff hvisible hms, undecorated_congr htrim, htexts]
    by_cases hlone : undecorated l = []
    · obtain ⟨hstar, hbelow⟩ := undecorated_lone hl hlone
      rw [texts_cons_nil hlone] at hlf
      rw [and_iff_right hstar, hbelow, texts_cons_nil hlone]
      exact trim_join_return hlf hms
    · refine .inr ⟨fun hone => hlone ?_, ?_⟩
      · rw [undecorated, hone.1]
        rfl
      · have hrest : Text.trim (Text.join ['\r'] ms) ≠ [] :=
          fun hnil => hms (trim_join_return_iff.1 hnil)
        obtain ⟨u, hu, hfront⟩ := undecorated_append_cons '\r' hlone hrest
        rw [hu]
        refine shownApart_of_return hlf fun d hd hprefix => ?_
        rw [texts_cons hlone]
        exact isDirective_join hd (hfront ▸ hprefix) _

/-- What carriage returns leave is shown as line feeds leave it, if it is a directive or on one line. -/
theorem shown_join_return_iff (h : ∀ l ∈ ls, '\r' ∉ l) :
    shown (undecorated (Text.join ['\r'] ls)) = shown (Text.join [' '] (texts ls)) ↔
      isDirective (undecorated (Text.join ['\r'] ls)) = true ∨ OnOneLine ls := by
  rcases undecorated_join_return h with ⟨hone, heq⟩ | ⟨hmore, hne, hdiffer, hdirective⟩
  · rw [heq]
    exact ⟨fun _ => .inr hone, fun _ => rfl⟩
  · constructor
    · intro heq
      refine .inl ?_
      by_contra hnot
      rw [shown_of_ne_nil hne (Bool.eq_false_iff.2 hnot)] at heq
      rw [shown] at heq
      split at heq
      · exact hne heq
      · exact hdiffer heq
    · rintro (hdir | hone)
      · rw [shown_of_isDirective hdir, shown_of_isDirective (hdirective hdir)]
      · exact absurd hone hmore

end

/-! ## whole comments -/

theorem texts_join_break {e : Text} (he : IsBreak e) {ls : List Text} (hne : ls ≠ [])
    (h : ∀ l ∈ ls, '\n' ∉ l) : texts ((Text.join e ls).splitOn '\n') = texts ls := by
  induction ls with
  | nil => exact absurd rfl hne
  | cons l ls ih =>
    rw [List.forall_mem_cons] at h
    by_cases hls : ls = []
    · rw [hls, Text.join_singleton, List.splitOn_eq_singleton h.1]
    · rw [Text.join_cons e l hls, texts_break he h.1, ih hls h.2, ← texts_append]
      rfl

section
variable {c t : Text}

theorem comment_cases (h : Lexeme.comment c = some []) :
    (∀ x ∈ c, Lexeme.isLineEnd x = false) ∨ ∃ t, c = "/*".toList ++ (t ++ "*/".toList) := by
  obtain ⟨d, hd, hcomment⟩ := comment_eq_some_iff.1 h
  obtain rfl : c = d := by rw [hd, List.append_nil]
  rcases hcomment with ⟨⟨t, rfl, ht⟩, -⟩ | ⟨t, rfl, -⟩
  · exact .inl (List.forall_mem_cons.2 ⟨by decide, List.forall_mem_cons.2 ⟨by decide, ht⟩⟩)
  · exact .inr ⟨t, rfl⟩

theorem withBreaks_block (e t : Text) :
    Text.withBreaks e ("/*".toList ++ (t ++ "*/".toList)) =
      "/*".toList ++ (Text.join e (Text.breakLines t) ++ "*/".toList) := by
  rw [Text.withBreaks_append (by decide), Text.withBreaks_append_right (by decide)]
  rfl

theorem lineFeed_notMem_breakLines : ∀ l ∈ Text.breakLines t, '\n' ∉ l := fun _ hl hn =>
  absurd (Text.isLineEnd_of_mem_breakLines hl hn) (by decide)

theorem return_notMem_breakLines : ∀ l ∈ Text.breakLines t, '\r' ∉ l := fun _ hl hr =>
  absurd (Text.isLineEnd_of_mem_breakLines hl hr) (by decide)

/-- With line feeds at the ends of its lines, a block shows what is on them. -/
theorem plain_withBreaks {e : Text} (he : IsBreak e) (t : Text) :
    plain (Text.withBreaks e ("/*".toList ++ (t ++ "*/".toList))) =
      Text.join [' '] (texts (Text.breakLines t)) := by
  rw [withBreaks_block, plain_block,
    texts_join_break he (Text.breakLines_ne_nil t) lineFeed_notMem_breakLines]

theorem plain_withReturns (t : Text) :
    plain (Text.withBreaks ['\r'] ("/*".toList ++ (t ++ "*/".toList))) =
      undecorated (Text.join ['\r'] (Text.breakLines t)) := by
  have hline : '\n' ∉ Text.join ['\r'] (Text.breakLines t) := by
    rw [Text.mem_join_iff (by decide)]
    rintro ⟨l, hl, hn⟩
    exact lineFeed_notMem_breakLines l hl hn
  rw [withBreaks_block, plain_block, List.splitOn_eq_singleton hline, join_texts_singleton]

theorem onOneLine_singleton (l : Text) : OnOneLine [l] := by
  refine .inl ?_
  have hle := List.length_filter_le (fun l : Text => !l.isEmpty) ([l].map Text.trim)
  exact hle

/-- A carriage return is left in a text where there is something on both sides of it on its line. -/
theorem return_mem_plain_iff : '\r' ∈ plain c ↔ ∃ line ∈ (undelimited c).lines,
    ∃ a b, line = a ++ '\r' :: b ∧ undecorated a ≠ [] ∧ Text.trim b ≠ [] := by
  rw [plain, Text.mem_join_iff (by decide)]
  constructor
  · rintro ⟨p, hp, hr⟩
    obtain ⟨line, hline, rfl⟩ := List.mem_map.1 (List.mem_of_mem_filter hp)
    exact ⟨line, hline, (mem_undecorated_iff (by decide)).1 hr⟩
  · rintro ⟨line, hline, hparts⟩
    have hr : '\r' ∈ undecorated line := (mem_undecorated_iff (by decide)).2 hparts
    refine ⟨undecorated line, List.mem_filter.2 ⟨List.mem_map_of_mem hline, ?_⟩, hr⟩
    simpa using List.ne_nil_of_mem hr

theorem mem_describe_iff {x : Char} (hx : x ≠ ' ') (cs : List Text) :
    x ∈ describe cs ↔ ∃ c ∈ cs, isDirective (plain c) = false ∧ x ∈ plain c := by
  rw [describe, Text.mem_join_iff (by simpa using hx)]
  constructor
  · rintro ⟨t, ht, hxt⟩
    obtain ⟨c, hc, hsome⟩ := List.mem_filterMap.1 ht
    obtain ⟨-, rfl⟩ := ofComment?_eq_some hsome
    refine ⟨c, hc, ?_, hxt⟩
    rw [ofComment?] at hsome
    simp only [Option.ite_none_left_eq_some, Bool.or_eq_true, not_or] at hsome
    exact Bool.eq_false_iff.2 hsome.1.2
  · rintro ⟨c, hc, hdir, hxt⟩
    refine ⟨plain c, List.mem_filterMap.2 ⟨c, hc, ?_⟩, hxt⟩
    have hne : (plain c).isEmpty = false := by simpa using List.ne_nil_of_mem hxt
    rw [ofComment?, hne, hdir]
    rfl

end

/-- **Line ends in comments.**  It does not matter whether the lines of a comment end in line feeds or
in carriage returns and line feeds.  With carriage returns alone the description is the same exactly
if it is that of a directive, or if all that is shown is on one line or below a lone asterisk.  There
is no line feed in the description of any comments, and a carriage return exactly if one stands
between texts on a line of a comment, as lines end at line feeds, and the comment is no directive. -/
theorem describe_withBreaks {c : Text} (hc : Lexeme.comment c = some []) (cs : List Text) :
    (describe [Text.withBreaks ['\r', '\n'] c] = describe [Text.withBreaks ['\n'] c] ∧
      (describe [Text.withBreaks ['\r'] c] = describe [Text.withBreaks ['\n'] c] ↔
        isDirective (plain (Text.withBreaks ['\r'] c)) = true ∨
          OnOneLine (Text.breakLines (undelimited c)))) ∧
    '\n' ∉ describe cs ∧
    ('\r' ∈ describe cs ↔ ∃ c ∈ cs, isDirective (plain c) = false ∧
      ∃ line ∈ (undelimited c).lines, ∃ a b, line = a ++ '\r' :: b ∧
        undecorated a ≠ [] ∧ Text.trim b ≠ []) := by
  refine ⟨?_, lineFeed_notMem_describe cs, ?_⟩
  · rcases comment_cases hc with hline | ⟨t, rfl⟩
    · have hbare : ∀ x ∈ undelimited c, Lexeme.isLineEnd x = false := fun x hx =>
        hline x (Text.mem_of_mem_trimBy (Text.mem_of_mem_dropPrefix
          (Text.mem_of_mem_dropPrefix (Text.mem_of_mem_dropSuffix hx))))
      simp only [Text.withBreaks_of_forall hline, Text.breakLines_of_forall hbare, true_and]
      exact ⟨fun _ => .inr (onOneLine_singleton _), fun _ => trivial⟩
    · simp only [describe_singleton]
      rw [plain_withBreaks (.inr rfl), plain_withBreaks (.inl rfl), plain_withReturns,
        undelimited_block]
      exact ⟨rfl, shown_join_return_iff return_notMem_breakLines⟩
  · simp only [mem_describe_iff (show '\r' ≠ ' ' by decide), return_mem_plain_iff]

def unevenBlock : Text := "/* a\r\n * b\rc */".toList

theorem describe_withBreaks_unevenBlock : Lexeme.comment unevenBlock = some [] ∧
    describe [Text.withBreaks ['\r', '\n'] unevenBlock] =
      describe [Text.withBreaks ['\n'] unevenBlock] ∧
    describe [Text.withBreaks ['\r'] unevenBlock] ≠
      describe [Text.withBreaks ['\n'] unevenBlock] ∧
    '\r' ∈ describe [unevenBlock] := by
  have hcomment : Lexeme.comment unevenBlock = some [] := by decide
  obtain ⟨⟨hcrlf, hcr⟩, -, hreturn⟩ := describe_withBreaks hcomment [unevenBlock]
  refine ⟨hcomment, hcrlf, fun heq => ?_, ?_⟩
  · have hlines : visible (Text.breakLines (undelimited unevenBlock)) =
        [['a'], "* b".toList, ['c']] := by decide
    rcases hcr.1 heq with hdir | hlen | ⟨l, hl, -⟩
    · exact absurd hdir (by decide)
    · rw [hlines] at hlen
      exact absurd hlen (by decide)
    · rw [hlines] at hl
      exact absurd (congrArg List.length hl) (by simp)
  · exact hreturn.2 ⟨unevenBlock, List.mem_cons_self, by decide,
      " * b\rc ".toList, by decide, " * b".toList, "c ".toList, by decide, by decide, by decide⟩

/-- Line ends are not always the same to a description, and not always gone from it: a carriage return
alone is left between two texts. -/
theorem not_forall_withBreaks :
    (¬∀ c : Text, Lexeme.comment c = some [] →
      describe [Text.withBreaks ['\r', '\n'] c] = describe [Text.withBreaks ['\n'] c] ∧
      describe [Text.withBreaks ['\r'] c] = describe [Text.withBreaks ['\n'] c]) ∧
    ¬∀ cs : List Text, (∀ c ∈ cs, Lexeme.comment c = some []) →
      '\n' ∉ describe cs ∧ '\r' ∉ describe cs := by
  have hcomment : Lexeme.comment "/* a\rb */".toList = some [] := by decide
  constructor
  · intro hall
    exact absurd (hall _ hcomment).2 (by decide)
  · intro hall
    have hnone := hall ["/* a\rb */".toList] (by simpa using hcomment)
    exact absurd hnone.2 (by decide)

end ProtoDocs
