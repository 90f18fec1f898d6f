import Mathlib.Data.List.DropRight
import Mathlib.Logic.Function.Iterate
import ProtoDocs.Element.Attach
import ProtoDocs.Element.Find

/-!
# What attaching does

Attaching goes through a level from left to right and collects comments on the way.  What an element
gets can also be read off the level itself, without going through it: the comments between the
element and the last one before it that is no comment.

* `lastRun`          the comments that end a list of elements;
* `bare`             the elements without their attached comments;
* `levelAt`          the level below a path of positions;
* `runAfter`         the comments collected on the way through a list.

`attach_runs` says that nothing but the attached comments changes, that on every level an element
gets the run in front of it, that so each comment of a level is attached once or ends the level, and
that attaching again changes nothing.  `find?_bare` says that comments have no say in what is found,
and `exists_levelAt_of_find?` that it stands on some level.
-/

namespace ProtoDocs

/-! ## the second side -/

def Element.isComment : Element → Bool
  | .comment _ => true
  | _ => false

def Element.text? : Element → Option Text
  | .comment t => some t
  | _ => none

/-- the texts of the comments at the end of a list, back to the last element that is no comment -/
def lastRun (es : List Element) : List Text :=
  (es.rtakeWhile Element.isComment).filterMap Element.text?

mutual

/-- the elements of a level and of all below it without attached comments -/
def bare : List Element → List Element
  | [] => []
  | e :: es => e.bare :: bare es

def Element.bare : Element → Element
  | .comment t => .comment t
  | .statement _ s => .statement [] s
  | .block _ h body => .block [] h (ProtoDocs.bare body)

end

/-- the level that a path leads to: each step goes into the block at a position -/
def levelAt : List Nat → List Element → Option (List Element)
  | [], es => some es
  | i :: path, es => match es[i]? with
    | some (.block _ _ body) => levelAt path body
    | _ => none

/-! ## the run on the way -/

/-- the comments collected behind `es`, where `run` was collected in front of it -/
def runAfter : List Text → List Element → List Text
  | run, [] => run
  | run, .comment t :: es => runAfter (run ++ [t]) es
  | _, _ :: es => runAfter [] es

theorem runAfter_append (run : List Text) (as bs : List Element) :
    runAfter run (as ++ bs) = runAfter (runAfter run as) bs := by
  induction as generalizing run with
  | nil => rfl
  | cons e as ih => cases e <;> exact ih _

/-- The collected comments are those that end the list. -/
theorem runAfter_nil (es : List Element) : runAfter [] es = lastRun es := by
  induction es using List.reverseRecOn with
  | nil => rfl
  | append_singleton es e ih =>
    rw [runAfter_append, ih]
    unfold lastRun
    cases e with
    | comment t =>
      rw [List.rtakeWhile_concat_pos _ _ _ rfl, List.filterMap_append]
      rfl
    | statement cs s => rw [List.rtakeWhile_concat_neg _ _ _ (by simp [Element.isComment])]; rfl
    | block cs h body => rw [List.rtakeWhile_concat_neg _ _ _ (by simp [Element.isComment])]; rfl

theorem attachAfter_append (run : List Text) (as bs : List Element) :
    attachAfter run (as ++ bs) = attachAfter run as ++ attachAfter (runAfter run as) bs := by
  induction as generalizing run with
  | nil => rfl
  | cons e as ih => cases e <;> simp [attachAfter, runAfter, ih]

theorem length_attachAfter (run : List Text) (es : List Element) :
    (attachAfter run es).length = es.length := by
  induction es generalizing run with
  | nil => rfl
  | cons e es ih => cases e <;> simp [attachAfter, ih]

theorem attachAfter_cons (run : List Text) (e : Element) (es : List Element) :
    attachAfter run (e :: es) = e.attachAs run :: attachAfter (runAfter run [e]) es := by
  cases e <;> rfl

theorem getElem?_attach {es : List Element} {i : Nat} {e : Element} (h : es[i]? = some e) :
    (attach es)[i]? = some (e.attachAs (lastRun (es.take i))) := by
  obtain ⟨hi, he⟩ := List.getElem?_eq_some_iff.1 h
  have hlen : (attach (es.take i)).length = i := by
    rw [attach, length_attachAfter, List.length_take, Nat.min_eq_left hi.le]
  have hsplit : es = es.take i ++ e :: es.drop (i + 1) := by
    rw [← he, List.getElem_cons_drop, List.take_append_drop]
  calc (attach es)[i]?
      = (attach (es.take i) ++ attachAfter (lastRun (es.take i)) (e :: es.drop (i + 1)))[i]? := by
        conv_lhs => rw [hsplit, attach, attachAfter_append, runAfter_nil, ← attach]
    _ = some (e.attachAs (lastRun (es.take i))) := by
        rw [List.getElem?_append_right hlen.le, hlen, Nat.sub_self, attachAfter_cons]
        rfl

theorem comments_attachAs (run : List Text) (e : Element) :
    (e.attachAs run).comments = if e.isComment then [] else run := by
  cases e <;> rfl

/-! ## what stays -/

mutual

theorem bare_attachAfter (run : List Text) (es : List Element) :
    bare (attachAfter run es) = bare es := by
  cases es with
  | nil => rfl
  | cons e es => rw [attachAfter_cons, bare, bare, bare_attachAs, bare_attachAfter]

theorem bare_attachAs (run : List Text) (e : Element) : (e.attachAs run).bare = e.bare := by
  cases e with
  | comment t => rfl
  | statement cs s => rfl
  | block cs h body => rw [Element.attachAs, Element.bare, Element.bare, bare_attachAfter]

end

theorem bare_eq_map (es : List Element) : bare es = es.map Element.bare := by
  induction es with
  | nil => rfl
  | cons e es ih => rw [bare, ih, List.map_cons]

theorem Element.declares_bare (kind : Kind) (name : Text) (e : Element) :
    e.bare.declares kind name = e.declares kind name := by
  cases e <;> rfl

mutual

/-- What is found without the attached comments is the same element without them. -/
theorem find?_bare (kind : Kind) (name : Text) (es : List Element) :
    find? kind name (bare es) = (find? kind name es).map Element.bare := by
  cases es with
  | nil => rfl
  | cons e es => rw [bare, find?, find?, Element.find?_bare, find?_bare, Option.map_or]

theorem Element.find?_bare (kind : Kind) (name : Text) (e : Element) :
    e.bare.find? kind name = (e.find? kind name).map Element.bare := by
  rw [Element.find?.eq_def, Element.find?.eq_def, Element.declares_bare]
  split
  · rfl
  · cases e with
    | comment t => rfl
    | statement cs s => rfl
    | block cs h body =>
      cases h with
      | message name' => exact ProtoDocs.find?_bare kind name body
      | _ => rfl

end

mutual

/-- What is attached depends on the elements alone, not on the comments stored in them. -/
theorem attachAfter_attachAfter (run run' : List Text) (es : List Element) :
    attachAfter run (attachAfter run' es) = attachAfter run es := by
  cases es with
  | nil => rfl
  | cons e es =>
    have hrun : runAfter run [e.attachAs run'] = runAfter run [e] := by cases e <;> rfl
    rw [attachAfter_cons, attachAfter_cons, attachAfter_cons, hrun, attachAs_attachAs,
      attachAfter_attachAfter]

theorem attachAs_attachAs (run run' : List Text) (e : Element) :
    (e.attachAs run').attachAs run = e.attachAs run := by
  cases e with
  | comment t => rfl
  | statement cs s => rfl
  | block cs h body =>
    rw [Element.attachAs, Element.attachAs, Element.attachAs, attachAfter_attachAfter]

end

theorem attach_attach (es : List Element) : attach (attach es) = attach es :=
  attachAfter_attachAfter [] [] es

/-! ## levels -/

theorem Element.find?_eq_some {kind : Kind} {name : Text} {e e' : Element}
    (h : e.find? kind name = some e') :
    e' = e ∨ ∃ cs h body, e = .block cs h body ∧ ProtoDocs.find? kind name body = some e' := by
  rw [Element.find?.eq_def] at h
  split at h
  · exact .inl (Option.some.inj h).symm
  · split at h
    · exact .inr ⟨_, _, _, rfl, h⟩
    · simp at h

/-- What is found stands on some level. -/
theorem exists_levelAt_of_find? {kind : Kind} {name : Text} (es : List Element) {e : Element}
    (h : find? kind name es = some e) : ∃ path level, levelAt path es = some level ∧ e ∈ level := by
  cases es with
  | nil => simp [find?] at h
  | cons x es =>
    rw [find?, Option.or_eq_some_iff] at h
    rcases h with h | ⟨_, h⟩
    · rcases Element.find?_eq_some h with rfl | ⟨cs, hd, body, rfl, hbody⟩
      · exact ⟨[], _, rfl, List.mem_cons_self⟩
      · obtain ⟨path, level, hlevel, he⟩ := exists_levelAt_of_find? body hbody
        exact ⟨0 :: path, level, hlevel, he⟩
    · obtain ⟨path, level, hlevel, he⟩ := exists_levelAt_of_find? es h
      cases path with
      | nil =>
        cases hlevel
        exact ⟨[], _, rfl, List.mem_cons_of_mem x he⟩
      | cons i path => exact ⟨(i + 1) :: path, level, hlevel, he⟩

theorem levelAt_cons {i : Nat} {path : List Nat} {es level : List Element}
    (h : levelAt (i :: path) es = some level) :
    ∃ cs hd body, .block cs hd body ∈ es ∧ levelAt path body = some level := by
  rw [levelAt] at h
  split at h
  · rename_i cs hd body heq
    exact ⟨cs, hd, body, List.mem_of_getElem? heq, h⟩
  · simp at h

/-- Attaching reaches the levels one by one. -/
theorem levelAt_attach (path : List Nat) (es : List Element) :
    levelAt path (attach es) = (levelAt path es).map attach := by
  induction path generalizing es with
  | nil => rfl
  | cons i path ih =>
    cases h : es[i]? with
    | none =>
      have hlen : (attach es).length ≤ i := by
        rw [attach, length_attachAfter]
        exact List.getElem?_eq_none_iff.1 h
      simp [levelAt, h, List.getElem?_eq_none hlen]
    | some e =>
      simp only [levelAt, getElem?_attach h, h]
      cases e with
      | comment t => rfl
      | statement cs s => rfl
      | block cs hd body => exact ih body

/-- The comments of a level, in order: those attached to its elements, and those left at its end. -/
theorem flatMap_comments_attachAfter (run : List Text) (es : List Element) :
    (attachAfter run es).flatMap Element.comments ++ runAfter run es =
      run ++ es.filterMap Element.text? := by
  induction es generalizing run with
  | nil => simp [attachAfter, runAfter]
  | cons e es ih =>
    cases e with
    | comment t =>
      show (attachAfter (run ++ [t]) es).flatMap _ ++ runAfter (run ++ [t]) es = _
      rw [ih, List.append_assoc]
      rfl
    | statement cs s =>
      show (run ++ (attachAfter [] es).flatMap _) ++ runAfter [] es = _
      rw [List.append_assoc, ih]
      rfl
    | block cs h body =>
      show (run ++ (attachAfter [] es).flatMap _) ++ runAfter [] es = _
      rw [List.append_assoc, ih]
      rfl

/-- **Every run of comments goes to the element after it, on every level.** -/
theorem attach_runs (es : List Element) :
    bare (attach es) = bare es ∧
    (∀ path, levelAt path (attach es) = (levelAt path es).map attach) ∧
    (∀ path level, levelAt path es = some level →
      (∀ i e, level[i]? = some e → e.isComment = false →
        (attach level)[i]?.map Element.comments = some (lastRun (level.take i))) ∧
      (attach level).flatMap Element.comments ++ lastRun level = level.filterMap Element.text?) ∧
    ∀ n, attach^[n] (attach es) = attach es := by
  refine ⟨bare_attachAfter [] es, fun path => levelAt_attach path es, ?_, ?_⟩
  · intro path level _
    refine ⟨fun i e he hc => ?_, ?_⟩
    · rw [getElem?_attach he, Option.map_some, comments_attachAs, hc]
      rfl
    · rw [← runAfter_nil]
      exact flatMap_comments_attachAfter [] level
  · intro n
    exact Function.iterate_fixed (attach_attach es) n

end ProtoDocs
