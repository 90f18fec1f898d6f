import ProtoDocs.Markdown.FieldRow
import ProtoDocs.Proofs.Grammar.Word
import ProtoDocs.Proofs.Text.Trim

/-!
# Names given as strings

The name that a `json_name` option gives is written as a string literal, with quotes of either sort.
What is shown has lost all double quotes at its ends, and no others.

* `StringBody.last`    a quote at the end of the contents of a literal is escaped;
* `literalName`        what is left of a literal;
* `trimBy_literal`     it is what trimming leaves;
* `literalName_eq_iff` when this is the contents;
* `Member.row_name_of_string`   the name in the row of a field with such an option.
-/

namespace ProtoDocs

/-! ## contents of a literal -/

/-- A quote stands at the end of the contents only behind a backslash. -/
theorem StringBody.last {q : Char} {s t : Text} (ht : StringBody q t) (hs : t = s ++ [q]) :
    ∃ v, s = v ++ ['\\'] := by
  induction ht generalizing s with
  | nil => exact absurd hs (by simp)
  | @escape t c _ ih =>
    -- the escape is all there is, or the quote stands behind it
    match s, hs with
    | [], hs => exact absurd (List.cons.inj hs).2 (by simp)
    | [d], hs =>
      obtain rfl : '\\' = d := (List.cons.inj hs).1
      exact ⟨[], rfl⟩
    | d :: e :: s, hs =>
      rw [List.cons_append, List.cons_append, List.cons.injEq, List.cons.injEq] at hs
      obtain ⟨v, rfl⟩ := ih hs.2.2
      exact ⟨d :: e :: v, rfl⟩
  | @char c t hne _ _ _ ih =>
    match s, hs with
    | [], hs => exact absurd (List.cons.inj hs).1 hne
    | d :: s, hs =>
      obtain ⟨v, rfl⟩ := ih (List.cons.inj hs).2
      exact ⟨d :: v, rfl⟩

theorem StringBody.head {q c : Char} {s : Text} (hq : q ≠ '\\') (h : StringBody q (c :: s)) :
    c ≠ q := by
  cases h with
  | escape d _ => exact hq.symm
  | char hne _ _ _ => exact hne

/-- At most one quote is at the end of the contents. -/
theorem StringBody.rdropWhile {q : Char} {s : Text} (hq : q ≠ '\\') (h : StringBody q s) :
    s.rdropWhile (· == q) = Text.dropSuffix [q] s := by
  by_cases hlast : [q] <:+ s
  · obtain ⟨t, rfl⟩ := hlast
    obtain ⟨v, rfl⟩ := h.last rfl
    rw [Text.dropSuffix_append, List.rdropWhile_concat_pos _ _ _ (by simp),
      List.rdropWhile_concat_neg _ _ _ (by simpa using hq.symm)]
  · rw [Text.dropSuffix_of_not hlast, List.rdropWhile_eq_self_iff]
    intro hne hend
    refine hlast ⟨s.dropLast, ?_⟩
    rw [← eq_of_beq hend]
    exact List.dropLast_append_getLast hne

/-! ## trimming a literal -/

/-- what is left of a literal: the contents without a double quote at their end if the quotes are
double ones, and else the literal as it is -/
def literalName (q : Char) (s : Text) : Text :=
  if q = '"' then Text.dropSuffix ['"'] s else q :: (s ++ [q])

theorem trimBy_literal {q : Char} {s : Text} (hs : StringBody q s) (hne : s ≠ []) :
    Text.trimBy (· == '"') (q :: (s ++ [q])) = literalName q s := by
  show ((q :: (s ++ [q])).dropWhile (· == '"')).rdropWhile (· == '"') = _
  by_cases hq : q = '"'
  · subst hq
    obtain ⟨c, s, rfl⟩ := List.exists_cons_of_ne_nil hne
    have hc : (c == '"') = false := beq_false_of_ne (hs.head (by decide))
    rw [List.dropWhile_cons_of_pos rfl, List.cons_append,
      List.dropWhile_cons_of_neg (by rw [hc]; exact Bool.false_ne_true), ← List.cons_append,
      List.rdropWhile_concat_pos _ _ _ rfl, hs.rdropWhile (by decide), literalName, if_pos rfl]
  · have hbeq : ¬(q == '"') = true := by simpa using hq
    rw [List.dropWhile_cons_of_neg (p := (· == '"')) hbeq, ← List.cons_append,
      List.rdropWhile_concat_neg (· == '"') _ _ hbeq, literalName, if_neg hq, List.cons_append]

theorem literalName_ne_nil {q : Char} {s : Text} (hs : StringBody q s) (hne : s ≠ []) :
    literalName q s ≠ [] := by
  rw [literalName]
  split
  · rename_i hq
    subst hq
    by_cases hlast : ['"'] <:+ s
    · obtain ⟨t, rfl⟩ := hlast
      obtain ⟨v, rfl⟩ := hs.last rfl
      rw [Text.dropSuffix_append]
      exact List.append_ne_nil_of_right_ne_nil v (List.cons_ne_nil _ _)
    · rwa [Text.dropSuffix_of_not hlast]
  · exact List.cons_ne_nil _ _

/-- The contents are what is left exactly if the quotes are double and none is at their end. -/
theorem literalName_eq_iff {q : Char} {s : Text} :
    literalName q s = s ↔ q = '"' ∧ ¬['"'] <:+ s := by
  rw [literalName]
  split
  · rename_i hq
    constructor
    · intro heq
      refine ⟨hq, ?_⟩
      rintro ⟨t, rfl⟩
      rw [Text.dropSuffix_append] at heq
      have hlen := congrArg List.length heq
      rw [List.length_append, List.length_singleton] at hlen
      omega
    · intro h
      exact Text.dropSuffix_of_not h.2
  · rename_i hq
    constructor
    · intro heq
      have hlen := congrArg List.length heq
      rw [List.length_cons, List.length_append, List.length_singleton] at hlen
      omega
    · intro h
      exact absurd h.1 hq

/-! ## rows -/

theorem inCode_inj {s t : Text} : inCode s = inCode t ↔ s = t := by
  simp [inCode]

namespace Member

def nameOption? (m : Member) : Option MemberOption :=
  m.options.find? fun o => o.name == "json_name".toList

variable {m : Member} {o : MemberOption} {q : Char} {s : Text}

/-- **The name that an option gives.**  If the first option for the name of a field is a string that
is not empty, the row of the field shows what is left of the literal, whatever the field is declared
as.  This is the contents of the string exactly if the quotes are double ones and no double quote is
at the end of the contents; an escaped one there is lost and leaves its backslash, and single quotes
stay. -/
theorem row_name_of_string (ho : m.nameOption? = some o) (hv : o.value = q :: (s ++ [q]))
    (hs : StringBody q s) (hne : s ≠ []) (comments : List Text) (inOneof : Bool) :
    (m.row comments inOneof).name = inCode (literalName q s) ∧
      ((m.row comments inOneof).name = inCode s ↔ q = '"' ∧ ¬['"'] <:+ s) := by
  have hgiven : m.givenJsonName? = some (literalName q s) := by
    show m.nameOption?.bind _ = _
    rw [ho, Option.bind_some, hv, trimBy_literal hs hne]
    exact if_neg (by simpa using literalName_ne_nil hs hne)
  have hname : (m.row comments inOneof).name = inCode (literalName q s) := by
    show inCode (m.givenJsonName?.getD (camelCase m.name)) = _
    rw [hgiven, Option.getD_some]
  exact ⟨hname, by rw [hname, inCode_inj, literalName_eq_iff]⟩

def givenName (value : Text) : Member :=
  .plain ⟨"foo_bar".toList, 1, .scalar .string, none, [⟨⟨"json_name".toList, value⟩, []⟩]⟩

theorem row_name_of_string_single :
    (givenName "\x27x\x27".toList).nameOption? =
        some ⟨⟨"json_name".toList, "\x27x\x27".toList⟩, []⟩ ∧ StringBody '\x27' ['x'] ∧
      ((givenName "\x27x\x27".toList).row [] false).name = "`\x27x\x27`".toList ∧
      ((givenName "\x27x\x27".toList).row [] false).name ≠ inCode ['x'] :=
  have ho : (givenName "\x27x\x27".toList).nameOption? =
      some ⟨⟨"json_name".toList, "\x27x\x27".toList⟩, []⟩ := by decide
  have hs : StringBody '\x27' ['x'] := .char (by decide) (by decide) (by decide) .nil
  have hrow := row_name_of_string ho rfl hs (List.cons_ne_nil _ _) [] false
  ⟨ho, hs, hrow.1.trans (by decide), fun h => absurd (hrow.2.1 h).1 (by decide)⟩

/-- Not every name is shown as the contents of the string that gives it: a double quote at the end
of them is lost. -/
theorem not_forall_row_name :
    ¬∀ (m : Member) (o : MemberOption) (q : Char) (s : Text), m.nameOption? = some o →
      o.value = q :: (s ++ [q]) → Lexeme.isQuote q = true → StringBody q s → s ≠ [] →
      (m.row [] false).name = inCode s := by
  intro hall
  have hs : StringBody '"' "a\\\"".toList :=
    .char (by decide) (by decide) (by decide) (.escape '"' .nil)
  have hname := hall (givenName "\"a\\\"\"".toList) ⟨⟨"json_name".toList, "\"a\\\"\"".toList⟩, []⟩
    '"' "a\\\"".toList (by decide) (by decide) (by decide) hs (by decide)
  exact absurd hname (by decide)

end Member

end ProtoDocs
