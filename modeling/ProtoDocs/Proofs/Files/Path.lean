import Mathlib.Data.List.TakeWhile
import ProtoDocs.Files.Path

/-!
# Paths and their components

A path is cut at its slashes.  What lies between two of them is a component, unless it is void: empty
or a dot.  The parent of a path is found from the end of the text, but it has the components of the
path without the last one.

* `parts_induction`       induction along the slashes of a path, the last one in front;
* `Opens`                 how a path begins, and `Opens.of_isPrefix` when it is cut short;
* `components_parent`     the parent has all components but the last one;
* `components_join`       a joined path has the components of both;
* `parent_join`           a component joined to a parent is taken off again;
* `normal`                what a path names, two dots resolved;
* `stepUp_twice_iff`      when it makes no difference to go up once more.
-/

namespace ProtoDocs.Path

variable {p q b d x : Path} {c : Text}

/-! ## cutting at slashes -/

/-- a text between slashes that is no component -/
def IsVoid (c : Text) : Prop := c = [] ∨ c = ['.']

instance : DecidablePred IsVoid := fun _ => inferInstanceAs (Decidable (_ ∨ _))

theorem not_slash_of_notMem (hc : '/' ∉ c) : ∀ d ∈ c.reverse, (d != '/') = true := by
  intro d hd
  have hne : d ≠ '/' := fun h => hc (h ▸ List.mem_reverse.1 hd)
  simpa using hne

theorem lastPart_of_notMem (hc : '/' ∉ c) : lastPart c = c := by
  rw [lastPart, List.takeWhile_eq_self_iff.2 (not_slash_of_notMem hc), List.reverse_reverse]

theorem beforeLast_of_notMem (hc : '/' ∉ c) : beforeLast c = [] := by
  rw [beforeLast, List.dropWhile_eq_nil_iff.2 (not_slash_of_notMem hc)]
  rfl

theorem lastPart_append (q : Path) (hc : '/' ∉ c) : lastPart (q ++ '/' :: c) = c := by
  rw [lastPart, List.reverse_append, List.reverse_cons, List.append_assoc,
    List.takeWhile_append_of_pos (not_slash_of_notMem hc), List.singleton_append,
    List.takeWhile_cons_of_neg (by decide), List.append_nil, List.reverse_reverse]

theorem beforeLast_append (q : Path) (hc : '/' ∉ c) : beforeLast (q ++ '/' :: c) = q := by
  rw [beforeLast, List.reverse_append, List.reverse_cons, List.append_assoc,
    List.dropWhile_append_of_pos (not_slash_of_notMem hc), List.singleton_append,
    List.dropWhile_cons_of_neg (by decide), List.drop_one, List.tail_cons, List.reverse_reverse]

/-- A property of all paths is shown for one part and for one more part behind a slash. -/
theorem parts_induction {P : Path → Prop} (one : ∀ c, '/' ∉ c → P c)
    (more : ∀ q c, '/' ∉ c → P q → P (q ++ '/' :: c)) (p : Path) : P p := by
  induction hn : p.length using Nat.strong_induction_on generalizing p with
  | _ n ih =>
  subst hn
  by_cases hp : '/' ∈ p
  · obtain ⟨c, q, hcq, hc⟩ := List.eq_append_cons_of_mem (List.mem_reverse.2 hp)
    obtain rfl : p = q.reverse ++ '/' :: c.reverse := by
      rw [← List.reverse_reverse p, hcq]
      simp
    refine more _ _ (by rwa [List.mem_reverse]) (ih _ ?_ _ rfl)
    rw [List.length_append, List.length_cons]
    omega
  · exact one p hp

/-! ## trimming and components, part by part -/

theorem trimEnd_of_notMem (hc : '/' ∉ c) : trimEnd c = if IsVoid c then [] else c := by
  rw [trimEnd, lastPart_of_notMem hc, beforeLast_of_notMem hc]
  by_cases hnil : c = []
  · rw [dif_pos hnil, if_pos (.inl hnil)]
  · rw [dif_neg hnil, trimEnd, dif_pos rfl]
    rfl

theorem trimEnd_nil : trimEnd [] = [] := by
  rw [trimEnd, dif_pos rfl]

theorem trimEnd_append (q : Path) (hc : '/' ∉ c) :
    trimEnd (q ++ '/' :: c) = if IsVoid c then trimEnd q else q ++ '/' :: c := by
  rw [trimEnd, lastPart_append q hc, beforeLast_append q hc, dif_neg (by simp)]
  rfl

theorem components_nil : components [] = [] := rfl

theorem components_append (p q : Path) : components (p ++ '/' :: q) = components p ++ components q := by
  rw [components, List.splitOn_append_cons_self, List.filter_append]
  rfl

theorem components_of_notMem (hc : '/' ∉ c) : components c = if IsVoid c then [] else [c] := by
  rw [components, List.splitOn_eq_singleton hc]
  by_cases hvoid : IsVoid c
  · rw [if_pos hvoid]
    rcases hvoid with rfl | rfl <;> rfl
  · have hnil : c ≠ [] := fun h => hvoid (.inl h)
    have hdot : c ≠ ['.'] := fun h => hvoid (.inr h)
    rw [if_neg hvoid]
    simp [hnil, hdot]

theorem components_slash (p : Path) : components ('/' :: p) = components p :=
  components_append [] p

theorem components_concat_slash (p : Path) : components (p ++ ['/']) = components p := by
  rw [components_append, components_nil, List.append_nil]

@[simp] theorem components_trimEnd (p : Path) : components (trimEnd p) = components p := by
  induction p using parts_induction with
  | one c hc =>
    rw [trimEnd_of_notMem hc]
    split
    · next hvoid => rw [components_of_notMem hc, if_pos hvoid, components_nil]
    · rfl
  | more q c hc ih =>
    rw [trimEnd_append q hc]
    split
    · next hvoid => rw [ih, components_append, components_of_notMem hc, if_pos hvoid, List.append_nil]
    · rfl

@[simp] theorem trimEnd_trimEnd (p : Path) : trimEnd (trimEnd p) = trimEnd p := by
  induction p using parts_induction with
  | one c hc =>
    rw [trimEnd_of_notMem hc]
    split
    · exact trimEnd_nil
    · next hvoid => rw [trimEnd_of_notMem hc, if_neg hvoid]
  | more q c hc ih =>
    rw [trimEnd_append q hc]
    split
    · exact ih
    · next hvoid => rw [trimEnd_append q hc, if_neg hvoid]

theorem trimEnd_isPrefix (p : Path) : trimEnd p <+: p := by
  induction p using parts_induction with
  | one c hc =>
    rw [trimEnd_of_notMem hc]
    split
    · exact List.nil_prefix
    · exact List.prefix_rfl
  | more q c hc ih =>
    rw [trimEnd_append q hc]
    split
    · exact ih.trans (List.prefix_append q _)
    · exact List.prefix_rfl

theorem beforeLast_isPrefix (p : Path) : beforeLast p <+: p := by
  induction p using parts_induction with
  | one c hc =>
    rw [beforeLast_of_notMem hc]
    exact List.nil_prefix
  | more q c hc _ =>
    rw [beforeLast_append q hc]
    exact List.prefix_append q _

theorem trimEnd_eq_nil_iff : trimEnd p = [] ↔ components p = [] := by
  constructor
  · intro h
    rw [← components_trimEnd, h, components_nil]
  · induction p using parts_induction with
    | one c hc =>
      rw [components_of_notMem hc, trimEnd_of_notMem hc]
      split <;> simp
    | more q c hc ih =>
      rw [components_append, components_of_notMem hc, trimEnd_append q hc]
      split
      · simpa using ih
      · simp

/-- What is left in front of the last component has the other ones. -/
theorem components_beforeLast (p : Path) :
    components (beforeLast (trimEnd p)) = (components p).dropLast := by
  induction p using parts_induction with
  | one c hc =>
    rw [trimEnd_of_notMem hc, components_of_notMem hc]
    split
    · rfl
    · rw [beforeLast_of_notMem hc]
      rfl
  | more q c hc ih =>
    rw [trimEnd_append q hc, components_append, components_of_notMem hc]
    split
    · rw [ih, List.append_nil]
    · rw [beforeLast_append q hc, List.dropLast_concat]

/-! ## the start -/

/-- How a path begins: with its start `s`, and then goes on with `t`.  Behind a dot there is nothing
or a slash. -/
inductive Opens : Path → Text → Text → Prop
  | root (r : Text) : Opens ('/' :: r) ['/'] r
  | dot : Opens ['.'] ['.'] []
  | dotSlash (r : Text) : Opens ('.' :: '/' :: r) ['.'] ('/' :: r)
  | plain {p : Path} : p.isAbsolute = false → p ≠ ['.'] → (∀ r, p ≠ '.' :: '/' :: r) → Opens p [] p

theorem opens (p : Path) : Opens p p.start p.afterStart := by
  unfold afterStart start
  split
  · next r => exact .root r
  · exact .dot
  · next r => exact .dotSlash r
  · next hroot hdot hslash =>
    refine .plain ?_ hdot hslash
    cases p with
    | nil => rfl
    | cons c r =>
      have hc : c ≠ '/' := fun h => hroot r (h ▸ rfl)
      simpa [isAbsolute] using hc

/-- What the path goes on with may be cut short. -/
theorem Opens.of_isPrefix {s t : Text} (h : Opens p s t) (hx : x <+: t) (hdot : s = [] → x ≠ ['.']) :
    Opens (s ++ x) s x := by
  cases h with
  | root r => exact .root x
  | dot =>
    obtain rfl := List.prefix_nil.1 hx
    exact .dot
  | dotSlash r =>
    cases x with
    | nil => exact .dot
    | cons c x =>
      obtain ⟨rfl, hx⟩ := List.cons_prefix_cons.1 hx
      exact .dotSlash x
  | plain habs hp hslash =>
    obtain ⟨y, rfl⟩ := hx
    refine .plain ?_ (hdot rfl) ?_
    · cases x with
      | nil => rfl
      | cons c x => exact habs
    · rintro r rfl
      exact hslash _ rfl

namespace Opens

variable {s t : Text}

theorem append (h : Opens p s t) : s ++ t = p := by
  cases h <;> rfl

theorem length_le (h : Opens p s t) : s.length ≤ 1 := by
  cases h <;> decide

theorem unique {s' t' : Text} (h : Opens p s t) (h' : Opens p s' t') : s = s' ∧ t = t' := by
  cases h with
  | root r =>
    cases h' with
    | root _ => exact ⟨rfl, rfl⟩
    | plain habs _ _ => cases habs
  | dot =>
    cases h' with
    | dot => exact ⟨rfl, rfl⟩
    | plain _ hp _ => exact absurd rfl hp
  | dotSlash r =>
    cases h' with
    | dotSlash _ => exact ⟨rfl, rfl⟩
    | plain _ _ hslash => exact absurd rfl (hslash r)
  | plain habs hp hslash =>
    cases h' with
    | root r => cases habs
    | dot => exact absurd rfl hp
    | dotSlash r => exact absurd rfl (hslash r)
    | plain _ _ _ => exact ⟨rfl, rfl⟩

theorem components_eq (h : Opens p s t) : components p = components t := by
  cases h with
  | root _ => exact components_slash _
  | dot => rfl
  | dotSlash r => exact (components_append ['.'] r).trans (components_slash r).symm
  | plain _ _ _ => rfl

theorem isAbsolute_eq (h : Opens p s t) : p.isAbsolute = (s == ['/']) := by
  cases h with
  | root r => rfl
  | dot => rfl
  | dotSlash r => rfl
  | plain habs _ _ => rw [habs]; rfl

end Opens

/-! ## parents -/

/-- The parent begins like the path and goes on with what is left in front of the last component. -/
theorem parent_eq (h : components p ≠ []) :
    parent p = p.start ++ trimEnd (beforeLast (trimEnd p.afterStart)) := by
  have hbody : trimEnd p.afterStart ≠ [] := by
    rw [Ne, trimEnd_eq_nil_iff, ← (opens p).components_eq]
    exact h
  rw [parent, parent?]
  split
  · next hnil => exact absurd hnil hbody
  · rfl

theorem parent_eq_nil (h : components p = []) : parent p = [] := by
  have hbody : trimEnd p.afterStart = [] := by
    rw [trimEnd_eq_nil_iff, ← (opens p).components_eq]
    exact h
  rw [parent, parent?, hbody]
  show (if p.start = ['.'] then some [] else none).getD [] = []
  split <;> rfl

theorem opens_parent (h : components p ≠ []) :
    Opens (parent p) p.start (trimEnd (beforeLast (trimEnd p.afterStart))) := by
  have hprefix := ((trimEnd_isPrefix _).trans (beforeLast_isPrefix _)).trans (trimEnd_isPrefix p.afterStart)
  rw [parent_eq h]
  refine (opens p).of_isPrefix hprefix fun _ hdot => ?_
  have htrim := congrArg trimEnd hdot
  rw [trimEnd_trimEnd, hdot, trimEnd_of_notMem (by decide), if_pos (.inr rfl)] at htrim
  cases htrim

theorem components_parent (p : Path) : components (parent p) = (components p).dropLast := by
  by_cases h : components p = []
  · rw [parent_eq_nil h, h]
    rfl
  · rw [(opens_parent h).components_eq, components_trimEnd, components_beforeLast,
      ← (opens p).components_eq]

theorem isAbsolute_parent (h : components p ≠ []) : (parent p).isAbsolute = p.isAbsolute := by
  rw [(opens_parent h).isAbsolute_eq, (opens p).isAbsolute_eq]

/-! ## joining -/

theorem join_absolute (b : Path) (h : p.isAbsolute = true) : join b p = p := if_pos h

/-- A relative path comes behind the base and a slash, which may be there already. -/
theorem join_cases (b : Path) (h : p.isAbsolute = false) :
    (b = [] ∧ join b p = p) ∨ (∃ a, b = a ++ ['/'] ∧ join b p = a ++ '/' :: p) ∨
      (b ≠ [] ∧ b.getLast? ≠ some '/' ∧ join b p = b ++ '/' :: p) := by
  rw [join, h]
  by_cases hnil : b = []
  · exact .inl ⟨hnil, by simp [hnil]⟩
  · by_cases hlast : b.getLast? = some '/'
    · obtain ⟨a, rfl⟩ := List.getLast?_eq_some_iff.1 hlast
      exact .inr (.inl ⟨a, rfl, by simp⟩)
    · exact .inr (.inr ⟨hnil, hlast, by simp [hnil, hlast]⟩)

theorem components_join (b : Path) (h : p.isAbsolute = false) :
    components (join b p) = components b ++ components p := by
  rcases join_cases b h with ⟨rfl, hjoin⟩ | ⟨a, rfl, hjoin⟩ | ⟨-, -, hjoin⟩
  · rw [hjoin, components_nil, List.nil_append]
  · rw [hjoin, components_append, components_concat_slash]
  · rw [hjoin, components_append]

theorem isAbsolute_append (hp : p ≠ []) (q : Path) : isAbsolute (p ++ q) = p.isAbsolute := by
  cases p with
  | nil => exact absurd rfl hp
  | cons c p => rfl

theorem isAbsolute_join (b : Path) (h : p.isAbsolute = false) :
    (join b p).isAbsolute = b.isAbsolute := by
  rcases join_cases b h with ⟨rfl, hjoin⟩ | ⟨a, rfl, hjoin⟩ | ⟨hb, -, hjoin⟩
  · rw [hjoin, h]
    rfl
  · rw [hjoin]
    cases a <;> rfl
  · rw [hjoin, isAbsolute_append hb]

/-! ## parents of joined paths -/

/-- What is void behind a slash is trimmed away. -/
theorem trimEnd_append_of_void (x : Path) (h : components q = []) :
    trimEnd (x ++ '/' :: q) = trimEnd x := by
  induction q using parts_induction with
  | one c hc =>
    rw [components_of_notMem hc] at h
    rw [trimEnd_append x hc]
    split at h
    · next hvoid => rw [if_pos hvoid]
    · cases h
  | more q c hc ih =>
    rw [components_append, List.append_eq_nil_iff, components_of_notMem hc] at h
    rw [← List.cons_append, ← List.append_assoc, trimEnd_append _ hc]
    split at h
    · next hvoid => rw [if_pos hvoid, ih h.1]
    · cases h.2

/-- With one component behind a slash, that component is the last one. -/
theorem trimEnd_beforeLast_append (x : Path) (h : components d = [c]) :
    trimEnd (beforeLast (trimEnd (x ++ '/' :: d))) = trimEnd x := by
  induction d using parts_induction with
  | one e he =>
    rw [components_of_notMem he] at h
    rw [trimEnd_append x he]
    split at h
    · cases h
    · next hvoid => rw [if_neg hvoid, beforeLast_append x he]
  | more q e he ih =>
    rw [components_append, components_of_notMem he] at h
    rw [← List.cons_append, ← List.append_assoc, trimEnd_append _ he]
    split at h
    · next hvoid =>
      rw [List.append_nil] at h
      rw [if_pos hvoid, ih h]
    · next hvoid =>
      have hq : components q = [] := (List.append_eq_singleton_iff.1 h).elim And.left (by simp)
      rw [if_neg hvoid, beforeLast_append _ he, trimEnd_append_of_void x hq]

/-- A path that is a parent has no void parts at its end. -/
theorem trimEnd_afterStart_parent (p : Path) :
    trimEnd (parent p).afterStart = (parent p).afterStart := by
  by_cases h : components p = []
  · rw [parent_eq_nil h]
    exact trimEnd_nil
  · rw [((opens (parent p)).unique (opens_parent h)).2, trimEnd_trimEnd]

/-- Of the paths without void parts at their ends, only the root ends in a slash. -/
theorem eq_nil_of_concat_slash {a : Path}
    (h : trimEnd (a ++ ['/']).afterStart = (a ++ ['/']).afterStart) : a = [] := by
  have happend := (opens (a ++ ['/'])).append
  rcases List.eq_nil_or_concat (a ++ ['/']).afterStart with hnil | ⟨t, c, ht⟩
  · -- then all of it is a start
    rw [hnil, List.append_nil] at happend
    have hlength := congrArg List.length happend
    have hstart := (opens (a ++ ['/'])).length_le
    rw [List.length_append, List.length_singleton] at hlength
    exact List.length_eq_zero_iff.1 (by omega)
  · rw [List.concat_eq_append] at ht
    have hlast : c = '/' := by
      rw [ht, ← List.append_assoc] at happend
      exact List.singleton_inj.1 (List.append_inj_right' happend rfl)
    rw [ht, hlast, trimEnd_append t (by simp), if_pos (.inl rfl)] at h
    have hlength := (trimEnd_isPrefix t).length_le
    rw [h, List.length_append, List.length_singleton] at hlength
    omega

theorem Opens.append_slash {s t : Text} (h : Opens b s t) (hb : b ≠ []) (d : Path) :
    Opens (b ++ '/' :: d) s (t ++ '/' :: d) := by
  cases h with
  | root _ => exact .root _
  | dot => exact .dotSlash d
  | dotSlash r => exact .dotSlash _
  | plain habs hdot hslash =>
    obtain ⟨c, a, rfl⟩ := List.exists_cons_of_ne_nil hb
    refine .plain habs (by simp) fun r hr => ?_
    obtain ⟨hc, htail⟩ := List.cons.inj hr
    subst hc
    cases a with
    | nil => exact hdot rfl
    | cons e a =>
      obtain ⟨he, -⟩ := List.cons.inj htail
      subst he
      exact hslash a rfl

/-- A component joined to a parent is taken off again. -/
theorem parent_join (p : Path) (hd : d.start = []) (hone : components d = [c]) :
    parent (join (parent p) d) = parent p := by
  have htrimmed := trimEnd_afterStart_parent p
  generalize parent p = b at htrimmed ⊢
  have hopens : Opens d [] d := by
    have happend := (opens d).append
    have h := opens d
    rw [hd, List.nil_append] at happend
    rwa [hd, happend] at h
  have habs : d.isAbsolute = false := hopens.isAbsolute_eq
  have hne : components (join b d) ≠ [] := by
    rw [components_join b habs, hone]
    simp
  have hlast : trimEnd (beforeLast (trimEnd d)) = [] := by
    rw [trimEnd_eq_nil_iff, components_beforeLast, hone]
    rfl
  rw [parent_eq hne]
  rcases join_cases b habs with ⟨rfl, hjoin⟩ | ⟨a, rfl, hjoin⟩ | ⟨hb, -, hjoin⟩
  · obtain ⟨hs, ht⟩ := (opens d).unique hopens
    rw [hjoin, hs, ht, hlast, List.append_nil]
  · obtain rfl := eq_nil_of_concat_slash htrimmed
    obtain ⟨hs, ht⟩ := (opens ('/' :: d)).unique (.root d)
    simp only [List.nil_append] at hjoin ⊢
    rw [hjoin, hs, ht, hlast, List.append_nil]
  · obtain ⟨hs, ht⟩ := (opens (b ++ '/' :: d)).unique ((opens b).append_slash hb d)
    rw [hjoin, hs, ht, trimEnd_beforeLast_append _ hone, htrimmed, (opens b).append]

/-! ## normal forms -/

def up : Text := ['.', '.']

/-- the way up from a place, whose components are given from the last one on: it is a component less,
or one more `up` where there is none to be taken off, but there is nothing above the root -/
def stepUp (absolute : Bool) : List Text → List Text
  | [] => if absolute then [] else [up]
  | c :: cs => if c = up then up :: c :: cs else cs

def step (absolute : Bool) (place : List Text) (c : Text) : List Text :=
  if c = up then stepUp absolute place else c :: place

def walk (absolute : Bool) (cs : List Text) : List Text := cs.foldl (step absolute) []

/-- what a path names: whether it is absolute, and its components without those that cancel -/
def normal (p : Path) : Bool × List Text := (p.isAbsolute, walk p.isAbsolute p.components)

theorem walk_concat (a : Bool) (cs : List Text) (c : Text) :
    walk a (cs ++ [c]) = step a (walk a cs) c := by
  rw [walk, walk, List.foldl_append]
  rfl

theorem walk_append (a : Bool) (cs ds : List Text) :
    walk a (cs ++ ds) = ds.foldl (step a) (walk a cs) :=
  List.foldl_append

theorem step_ordinary {a : Bool} {place : List Text} (hc : c ≠ up) : step a place c = c :: place :=
  if_neg hc

theorem step_up (a : Bool) (place : List Text) : step a place up = stepUp a place := if_pos rfl

theorem stepUp_ordinary {a : Bool} {place : List Text} (hc : c ≠ up) :
    stepUp a (c :: place) = place := if_neg hc

/-- Two steps up lead back only from the root. -/
theorem stepUp_twice_iff {a : Bool} {place : List Text} :
    stepUp a (stepUp a place) = place ↔ a = true ∧ place = [] := by
  constructor
  · intro h
    match place with
    | [] =>
      cases a with
      | true => exact ⟨rfl, rfl⟩
      | false => cases h
    | c :: cs =>
      by_cases hc : c = up
      · -- one more `up` in front each time
        rw [hc, stepUp, if_pos rfl, stepUp, if_pos rfl] at h
        have hlength := congrArg List.length h
        simp only [List.length_cons] at hlength
        omega
      · rw [stepUp_ordinary hc] at h
        match cs with
        | [] =>
          rw [stepUp] at h
          split at h
          · cases h
          · exact absurd (List.cons.inj h).1.symm hc
        | d :: ds =>
          rw [stepUp] at h
          split at h
          · exact absurd (List.cons.inj h).1.symm hc
          · have hlength := congrArg List.length h
            simp only [List.length_cons] at hlength
            omega
  · rintro ⟨rfl, rfl⟩
    rfl

end ProtoDocs.Path
