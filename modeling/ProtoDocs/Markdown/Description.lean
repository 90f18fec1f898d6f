import ProtoDocs.Text.Blank

/-!
# Descriptions

The description of an element is the text of its comments on one line: without the delimiters, the
asterisks that decorate the lines of a block, and the line ends. Comments that speak to a tool and
not to a reader are left out.

* `Description.plain`      the text of one comment;
* `Description.ofComment?` the same, unless there is nothing to say;
* `describe`               the description out of all comments of an element.
-/

namespace ProtoDocs

namespace Description

/-- how a comment begins that is meant for a tool -/
def directives : List Text :=
  ["protolint:".toList, "--8<--".toList, "Next ID:".toList]

/-- a comment without its delimiters: one marker of each sort is removed where it stands -/
def undelimited (comment : Text) : Text :=
  Text.dropSuffix "*/".toList (Text.dropPrefix "/*".toList (Text.dropPrefix "//".toList comment.trim))

/-- a line of a comment without its decoration -/
def undecorated (line : Text) : Text :=
  Text.trim (Text.dropPrefix ['*'] line.trim)

/-- the text of a comment on one line; lines without text do not show -/
def plain (comment : Text) : Text :=
  Text.join [' '] (((undelimited comment).lines.map undecorated).filter (!·.isEmpty))

def isDirective (t : Text) : Bool :=
  directives.any (·.isPrefixOf t)

def ofComment? (comment : Text) : Option Text :=
  let t := plain comment
  if t.isEmpty || isDirective t then none else some t

end Description

/-- the description that the comments of an element make up -/
def describe (comments : List Text) : Text :=
  Text.join [' '] (comments.filterMap Description.ofComment?)

end ProtoDocs
