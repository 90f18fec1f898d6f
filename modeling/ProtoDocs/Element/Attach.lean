import ProtoDocs.Element.Basic

/-!
# Attached comments

The comments directly in front of an element describe it: every run of comments goes to the
element after it on the same level, and a run that ends a level goes nowhere. The comments stay
where they are as elements.

* `Element.attach`    the elements of one level and all below it, with their comments;
* `attachAfter`       the same for a level whose last comments so far are given.
-/

namespace ProtoDocs

mutual

/-- the elements of a level that follow the run of comments `run` -/
def attachAfter : List Text → List Element → List Element
  | _, [] => []
  | run, .comment t :: es => .comment t :: attachAfter (run ++ [t]) es
  | run, e :: es => e.attachAs run :: attachAfter [] es

/-- an element with `run` as its comments, and its block with theirs -/
def Element.attachAs (run : List Text) : Element → Element
  | .comment t => .comment t
  | .statement _ s => .statement run s
  | .block _ h body => .block run h (attachAfter [] body)

end

/-- every element with the run of comments in front of it, on every level -/
def attach (es : List Element) : List Element :=
  attachAfter [] es

end ProtoDocs
