import ProtoDocs.Proofs.Grammar.Brackets
import ProtoDocs.Proofs.Grammar.Shape

/-!
# Lists of values

A list is read up to the bracket that closes it, where aggregates in it are passed over as a whole.
A brace that begins no aggregate counts for nothing, and neither does a closing one outside of all
aggregates.  Without these loose braces, the brackets and braces of a list are properly nested.

* `closes`              whether the open brackets are closed in turn, the first one last of all;
* `tight`               the pieces without loose braces;
* `closes_tight`        without loose braces, what ends a list closes its brackets in turn;
* `tight_of_closes`     if it does so as it stands, there are none;
* `parse_lists`         the lists in a file.
-/

namespace ProtoDocs

open Lexeme Reader Scan

/-! ## nesting -/

/-- the brackets that are open behind a character, the innermost first: inside braces, square
brackets do not count, and a bracket cannot be closed by one of the other kind -/
def openBehind (opened : List Char) (x : Char) : Option (List Char) :=
  match opened with
  | [] => none
  | o :: outer =>
    if x = '{' then some ('{' :: o :: outer)
    else if x = '}' then if o = '{' then some outer else none
    else if o = '{' then some (o :: outer)
    else if x = '[' then some ('[' :: o :: outer)
    else if x = ']' then some outer
    else some (o :: outer)

/-- the brackets that are open are closed in turn, and the first of them with the last piece -/
def closes : List Char → List Piece → Bool
  | [], ps => ps.isEmpty
  | _ :: _, [] => false
  | o :: outer, .whole _ :: ps => closes (o :: outer) ps
  | o :: outer, .char x :: ps =>
    match openBehind (o :: outer) x with
    | none => false
    | some opened => closes opened ps

/-- how many braces are open behind a character, where one more than `d` are open in front of it -/
def depthBehind (d : Nat) (x : Char) : Nat :=
  if x = '{' then d + 2 else if x = '}' then d else d + 1

/-- the pieces without loose braces, where `d` braces are open: those that are not closed, and those
that close none -/
def tight : Nat → List Piece → List Piece
  | _, [] => []
  | d, .whole u :: ps => .whole u :: tight d ps
  | 0, .char x :: ps =>
    if x = '{' then
      if (closing '{' '}' 1 ps).isSome then .char x :: tight 1 ps else tight 0 ps
    else if x = '}' then tight 0 ps
    else .char x :: tight 0 ps
  | d + 1, .char x :: ps => .char x :: tight (depthBehind d x) ps

section
variable {outer : List Char} {ps us qs : List Piece} {x : Char}

/-- Inside of braces, only braces count. -/
theorem closes_inside (d : Nat) (x : Char) :
    closes (List.replicate (d + 1) '{' ++ outer) (.char x :: ps) =
      closes (List.replicate (depthBehind d x) '{' ++ outer) ps := by
  rw [List.replicate_succ, List.cons_append, closes, openBehind, depthBehind]
  by_cases hbrace : x = '{'
  · rw [if_pos hbrace, if_pos hbrace]
    rfl
  · rw [if_neg hbrace, if_neg hbrace]
    by_cases hclose : x = '}'
    · rw [if_pos hclose, if_pos rfl, if_pos hclose]
    · rw [if_neg hclose, if_pos rfl, if_neg hclose]
      rfl

theorem closing_inside (d : Nat) (x : Char) :
    closing '{' '}' (d + 1) (.char x :: ps) =
      if depthBehind d x = 0 then some ps else closing '{' '}' (depthBehind d x) ps := by
  have hweight : (d : Int) + 1 + weight '{' '}' x = depthBehind d x := by
    unfold weight depthBehind
    split
    · push_cast
      omega
    · split <;> push_cast <;> omega
  by_cases hzero : depthBehind d x = 0
  · rw [if_pos hzero, closing_char_last ps (by omega)]
  · rw [if_neg hzero, closing_char ps (by omega), hweight]

/-- Directly in a list, both kinds of brackets count. -/
theorem closes_list (k : Nat) (hx : x ≠ '{') :
    closes (List.replicate (k + 1) '[') (.char x :: ps) =
      if x = '}' then false
      else if x = '[' then closes (List.replicate (k + 2) '[') ps
      else if x = ']' then closes (List.replicate k '[') ps
      else closes (List.replicate (k + 1) '[') ps := by
  rw [List.replicate_succ, closes, openBehind, if_neg hx]
  by_cases hloose : x = '}'
  · rw [if_pos hloose, if_pos hloose]
    rfl
  by_cases hopen : x = '['
  · rw [if_neg hloose, if_neg hloose, if_neg (by decide), if_pos hopen, if_pos hopen]
    rfl
  by_cases hclose : x = ']'
  · rw [if_neg hloose, if_neg hloose, if_neg (by decide), if_neg hopen, if_neg hopen, if_pos hclose,
      if_pos hclose]
  · rw [if_neg hloose, if_neg hloose, if_neg (by decide), if_neg hopen, if_neg hopen,
      if_neg hclose, if_neg hclose]

/-- Behind a brace, what closes the brackets is what closes the brace, and then the others. -/
theorem closes_braces_iff (d : Nat) :
    closes (List.replicate (d + 1) '{' ++ outer) ps = true ↔
      ∃ qs, closing '{' '}' (d + 1) ps = some qs ∧ closes outer qs = true := by
  induction ps generalizing d with
  | nil => simp [List.replicate_succ, closes, closing]
  | cons p ps ih =>
    cases p with
    | whole u => exact ih d
    | char x =>
      rw [closes_inside, closing_inside]
      cases depthBehind d x with
      | zero => simp
      | succ e => exact ih e

/-- What closes the open braces stays as it is. -/
theorem tight_append {d : Nat} (h : closing '{' '}' (d + 1) us = some []) (qs : List Piece) :
    tight (d + 1) (us ++ qs) = us ++ tight 0 qs := by
  induction us generalizing d with
  | nil => cases h
  | cons p us ih =>
    cases p with
    | whole u => exact congrArg _ (ih h)
    | char x =>
      rw [closing_inside] at h
      rw [List.cons_append, tight, List.cons_append]
      cases hd : depthBehind d x with
      | zero =>
        rw [hd, if_pos rfl, Option.some.injEq] at h
        rw [h, List.nil_append, List.nil_append]
      | succ e =>
        rw [hd, if_neg (Nat.succ_ne_zero e)] at h
        rw [ih h]

/-- Without loose braces, what closes the brackets of lists closes them in turn. -/
theorem closes_tight {n : Int} (h : closingList n ps = some []) {k : Nat} (hn : n = k + 1) :
    closes (List.replicate (k + 1) '[') (tight 0 ps) = true := by
  fun_induction closingList n ps generalizing k with
  | case1 n => cases h
  | case2 n u ps ih => exact ih h hn
  | case3 n ps ih =>
    have hrest := ih h hn
    rw [tight, if_pos rfl]
    cases hclosing : closing '{' '}' 1 ps with
    | none =>
      rw [pastBraces, hclosing] at hrest
      exact hrest
    | some qs =>
      rw [pastBraces, hclosing] at hrest
      obtain ⟨us, rfl⟩ := closing_suffix hclosing
      have hus := (closing_cancel Int.one_pos hclosing).2
      have htight : tight 1 (us ++ qs) = us ++ tight 0 qs := tight_append (d := 0) hus qs
      rw [Option.isSome_some, if_pos rfl, htight]
      show closes (List.replicate 1 '{' ++ List.replicate (k + 1) '[') (us ++ tight 0 qs) = true
      exact (closes_braces_iff 0).2 ⟨tight 0 qs, closing_append hus _, hrest⟩
  | case4 n x ps hx hzero =>
    cases h
    obtain rfl : x = ']' := eq_close_of_weight (by omega) hzero
    obtain rfl : k = 0 := by
      rw [weight_close (by decide)] at hzero
      omega
    rfl
  | case5 n x ps hx hzero ih =>
    rw [tight, if_neg hx]
    by_cases hloose : x = '}'
    · -- a loose brace has no weight
      rw [if_pos hloose]
      exact ih h (by rw [hloose, weight_of_ne (by decide) (by decide)]; omega)
    rw [if_neg hloose, closes_list k hx, if_neg hloose]
    by_cases hopen : x = '['
    · rw [if_pos hopen]
      exact ih h (k := k + 1) (by rw [hopen, weight_open, hn]; omega)
    rw [if_neg hopen]
    by_cases hclose : x = ']'
    · have hweight : weight '[' ']' x = -1 := by rw [hclose, weight_close (by decide)]
      obtain ⟨j, rfl⟩ : ∃ j, k = j + 1 := Nat.exists_eq_succ_of_ne_zero (by omega)
      rw [if_pos hclose]
      exact ih h (by rw [hweight, hn]; omega)
    · rw [if_neg hclose]
      exact ih h (by rw [weight_of_ne hopen hclose]; omega)

/-- If brackets and braces are closed in turn, there are no loose braces. -/
theorem tight_of_closes {d k : Nat}
    (h : closes (List.replicate d '{' ++ List.replicate (k + 1) '[') ps = true) :
    tight d ps = ps := by
  induction ps generalizing d k with
  | nil => cases d <;> rfl
  | cons p ps ih =>
    cases p with
    | whole u =>
      have hps : closes (List.replicate d '{' ++ List.replicate (k + 1) '[') ps = true := by
        cases d <;> exact h
      cases d <;> exact congrArg _ (ih hps)
    | char x =>
      cases d with
      | succ d =>
        rw [closes_inside] at h
        rw [tight, ih h]
      | zero =>
        rw [tight]
        by_cases hbrace : x = '{'
        · have hps : closes (List.replicate 1 '{' ++ List.replicate (k + 1) '[') ps = true := by
            rw [hbrace] at h
            exact h
          obtain ⟨qs, hqs, -⟩ := (closes_braces_iff 0).1 hps
          have hclosing : closing '{' '}' 1 ps = some qs := hqs
          rw [if_pos hbrace, hclosing, Option.isSome_some, if_pos rfl, ih hps]
        have hlist (j : Nat) (hj : closes (List.replicate (j + 1) '[') ps = true) :
            tight 0 ps = ps := ih (d := 0) hj
        rw [List.replicate_zero, List.nil_append, closes_list k hbrace] at h
        rw [if_neg hbrace]
        by_cases hloose : x = '}'
        · rw [if_pos hloose] at h
          cases h
        rw [if_neg hloose] at h ⊢
        by_cases hopen : x = '['
        · rw [if_pos hopen] at h
          rw [hlist _ h]
        rw [if_neg hopen] at h
        by_cases hclose : x = ']'
        · rw [if_pos hclose] at h
          cases k with
          | zero =>
            have hps : closes [] ps = true := h
            rw [closes, List.isEmpty_iff] at hps
            rw [hps]
            rfl
          | succ k => rw [hlist _ h]
        · rw [if_neg hclose] at h
          rw [hlist _ h]

end

/-! ## lists in files -/

/-- A value that begins with a bracket ends with the bracket that closes it: without loose braces, the
brackets and braces outside of strings and comments are closed in turn, and with them exactly if there
are none. -/
def ListCloses (v : Text) : Prop :=
  ∀ t, v = '[' :: t →
    (pieces inert t).getLast? = some (.char ']') ∧
      closes ['['] (tight 0 (pieces inert t)) = true ∧
      (closes ['['] (pieces inert t) = true ↔ tight 0 (pieces inert t) = pieces inert t)

theorem listCloses_of_closingList {ps : List Piece} (h : closingList 1 ps = some []) :
    closes ['['] (tight 0 ps) = true ∧ (closes ['['] ps = true ↔ tight 0 ps = ps) := by
  have htight : closes ['['] (tight 0 ps) = true := closes_tight h (k := 0) rfl
  refine ⟨htight, tight_of_closes (d := 0) (k := 0), fun heq => ?_⟩
  rwa [heq] at htight

/-- What is read as a list closes its bracket, whatever text follows. -/
theorem Lexeme.listValue_closes {v r : Text} (h : listValue (v ++ r) = some r) : ListCloses v := by
  rintro t rfl
  obtain ⟨qs, hqs, rfl⟩ := listValue_eq_some.1 h
  obtain ⟨us, hus⟩ := closingList_suffix hqs
  obtain rfl : t = textOf us := by
    have htext := congrArg textOf hus
    rw [textOf_append, consumes_inert.textOf_pieces] at htext
    exact (List.append_cancel_right htext).symm
  rw [← hus] at hqs
  obtain ⟨hlast, hclosing⟩ := closingList_cancel Int.one_pos hqs
  rw [consumes_inert.pieces_of_prefix local_inert hus.symm]
  exact ⟨hlast, listCloses_of_closingList hclosing⟩

theorem Lexeme.constant_closes {v r : Text} (h : constant (v ++ r) = some r) : ListCloses v := by
  rintro t rfl
  have hbrace : aggregate ('[' :: t ++ r) = none := aggregate_of_not_starts rfl
  rw [constant, or_of_none hbrace] at h
  rcases Option.or_eq_some_iff.1 h with h | ⟨-, h⟩
  · exact listValue_closes h t rfl
  · cases h

theorem assignment_closes : Gives assignment fun s => ListCloses s.value := by
  have hvalue : Gives (token .constant constant) ListCloses := by
    intro t v r h
    obtain ⟨rfl, hread⟩ := (token_eq_some Lexeme.consumes_constant.leaves).1 h
    exact constant_closes hread
  exact .step fun _ => .step fun _ => .bind hvalue.next fun _ hv => .pure hv

/-- **The lists in a file close.**  Every option value in it that begins with a bracket ends with the
bracket that closes it.  Outside of strings and comments and without the loose braces, which are
those that are not closed in the value and those that close none there, brackets and braces are
properly nested, where brackets inside of braces do not count, and the first one is closed by the last
character.  With the loose braces this is so only if there are none. -/
theorem parse_lists {source : Text} {es : List Element} (h : parse source = .ok es) :
    Everywhere (fun s => ∀ o ∈ s.options, ListCloses o.value)
      (fun hd => ∀ o ∈ hd.options, ListCloses o.value) es :=
  parse_everywhere
    (fun s => (statementLike_options assignment_closes s).imp fun _ hs o ho => (hs o ho).1)
    (fun hd => (headingLike_options assignment_closes hd).imp fun _ hh o ho => (hh o ho).1) h

def nestedText : Text := "option a=[\x7b]\x7d,[\"]\"]];".toList

def nestedFile : List Element :=
  [.statement [] (.setting ⟨"a".toList, "[\x7b]\x7d,[\"]\"]]".toList⟩)]

theorem parse_lists_nestedText :
    parse nestedText = .ok nestedFile ∧
      closes ['['] (pieces inert "\x7b]\x7d,[\"]\"]]".toList) = true := by
  have hparse : parse nestedText = .ok nestedFile := parse_eq_ok.2 (by decide +kernel)
  have htight : tight 0 (pieces inert "\x7b]\x7d,[\"]\"]]".toList) =
      pieces inert "\x7b]\x7d,[\"]\"]]".toList := by decide +kernel
  refine ⟨hparse, ?_⟩
  cases parse_lists hparse with
  | statement hoptions _ =>
    exact (hoptions _ List.mem_cons_self _ rfl).2.2.2 htight

/-- Not in every list that is accepted are brackets and braces properly nested: a brace in it may stay
open. -/
theorem not_forall_closes :
    ¬∀ (source : Text) (es : List Element), parse source = .ok es →
      Everywhere
        (fun s => ∀ o ∈ s.options, ∀ t, o.value = '[' :: t → closes ['['] (pieces inert t) = true)
        (fun hd => ∀ o ∈ hd.options, ∀ t, o.value = '[' :: t →
          closes ['['] (pieces inert t) = true) es := by
  intro hall
  have hparse : parse "option a=[\x7b];".toList =
      .ok [.statement [] (.setting ⟨"a".toList, "[\x7b]".toList⟩)] :=
    parse_eq_ok.2 (by decide +kernel)
  cases hall _ _ hparse with
  | statement hoptions _ =>
    have hcloses := hoptions _ List.mem_cons_self "\x7b]".toList rfl
    revert hcloses
    decide +kernel

end ProtoDocs
