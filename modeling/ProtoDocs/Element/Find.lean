import ProtoDocs.Element.Basic

/-!
# Looking up types

Types are found by their simple name: the first in the order of the text, where the types inside a
message come directly after the message. Only messages are searched inside.

* `find?`       the element of a name and a kind;
* `findType?`   what that element consists of.
-/

namespace ProtoDocs

def Element.declares (kind : Kind) (name : Text) (e : Element) : Bool :=
  e.name? == some name && e.kind? == some kind

mutual

/-- the first type of this kind and name among the elements and inside their messages -/
def find? (kind : Kind) (name : Text) : List Element → Option Element
  | [] => none
  | e :: es => (e.find? kind name).or (find? kind name es)

/-- the element itself, or the first in it if it is a message -/
def Element.find? (kind : Kind) (name : Text) (e : Element) : Option Element :=
  if e.declares kind name then some e
  else match e with
    | .block _ (.message _) body => ProtoDocs.find? kind name body
    | _ => none

end

structure TypeBlock where
  comments : List Text
  name : Text
  body : List Element
  deriving Repr

def Element.typeBlock? : Kind → Element → Option TypeBlock
  | .message, .block cs (.message name) body => some ⟨cs, name, body⟩
  | .enum, .block cs (.enum name) body => some ⟨cs, name, body⟩
  | .service, .block cs (.service name) body => some ⟨cs, name, body⟩
  | _, _ => none

def findType? (kind : Kind) (name : Text) (es : List Element) : Option TypeBlock :=
  (find? kind name es).bind (Element.typeBlock? kind)

end ProtoDocs
