import ProtoDocs.Text.Basic

/-!
# Paths

A path is a text: components with slashes between them. Repeated slashes count as one, and a dot
component counts only at the very front of a relative path. Nothing here looks at files.

* `Path.join`       a path taken relative to another one;
* `Path.parent?`    the path without its last component, if it has one.
-/

namespace ProtoDocs

abbrev Path := Text

namespace Path

def isAbsolute (p : Path) : Bool := p.head? == some '/'

/-- `p` as seen from `base`; an absolute path does not depend on the base -/
def join (base p : Path) : Path :=
  if p.isAbsolute then p
  else if base.isEmpty || base.getLast? == some '/' then base ++ p
  else base ++ '/' :: p

/-! ## the last component -/

/-- the slash of an absolute path, or the dot that a relative path begins with -/
def start : Path → Text
  | '/' :: _ => ['/']
  | ['.'] => ['.']
  | '.' :: '/' :: _ => ['.']
  | _ => []

/-- the path from the first component on that is not its start -/
def afterStart (p : Path) : Text := p.drop (start p).length

def lastPart (p : Text) : Text := (p.reverse.takeWhile (· != '/')).reverse

def beforeLast (p : Text) : Text := ((p.reverse.dropWhile (· != '/')).drop 1).reverse

theorem length_beforeLast_lt {p : Text} (h : p ≠ []) : (beforeLast p).length < p.length := by
  have h₁ := (List.dropWhile_suffix (· != '/') (l := p.reverse)).length_le
  have h₂ : 0 < p.length := List.length_pos_iff.2 h
  cases hd : p.reverse.dropWhile (· != '/') with
  | nil => simp [beforeLast, hd, h₂]
  | cons c t =>
    simp only [hd, List.length_cons, List.length_reverse] at h₁
    simp only [beforeLast, hd, List.drop_succ_cons, List.drop_zero, List.length_reverse]
    omega

/-- a path without the empty and the dot components at its end -/
def trimEnd (p : Text) : Text :=
  if _h : p = [] then []
  else if lastPart p = [] ∨ lastPart p = ['.'] then trimEnd (beforeLast p) else p
termination_by p.length
decreasing_by exact length_beforeLast_lt _h

/-- the path without its last component; the empty path and the root have none -/
def parent? (p : Path) : Option Path :=
  match trimEnd p.afterStart with
  | [] => if p.start = ['.'] then some [] else none
  | body => some (p.start ++ trimEnd (beforeLast body))

/-- the directory in which a path lies; the empty path where there is none -/
def parent (p : Path) : Path := p.parent?.getD []

/-! ## components -/

/-- the components of a path after its root, empty ones and dots left out -/
def components (p : Path) : List Text :=
  (p.splitOn '/').filter fun c => !c.isEmpty && c != ['.']

end Path
end ProtoDocs
