import ProtoDocs.Scalar

/-!
# Elements of a schema file

A schema file is a list of elements in the order they were written. An element is a comment, a
statement that ends in a semicolon, or a block with elements of its own between braces. Statements
and blocks carry the comments that were attached to them.

* `TypeRef`        the type of a field: a scalar or a name;
* `Setting`        an option, `name = value`, with the value as written;
* `MemberOption`   an option in the brackets behind a member;
* `Statement`      what a statement declares;
* `Heading`        what a block declares in front of its brace;
* `Element`        the tree.
-/

namespace ProtoDocs

/-! ## parts of declarations -/

/-- the type of a field: a scalar, or a declared type by name without a leading dot -/
inductive TypeRef
  | scalar (s : Scalar)
  | named (name : Text)
  deriving DecidableEq, Repr

def TypeRef.name : TypeRef → Text
  | .scalar s => s.name
  | .named name => name

/-- what a name without dot in front refers to -/
def TypeRef.ofName (t : Text) : TypeRef :=
  match Scalar.ofName? t with
  | some s => .scalar s
  | none => .named t

/-- how often a field may occur -/
inductive Label
  | optional | required | repeated
  deriving DecidableEq, Repr

structure Setting where
  name : Text
  value : Text
  deriving DecidableEq, Repr

/-- an option in the brackets behind a member, with the comments attached to it -/
structure MemberOption extends Setting where
  comments : List Text
  deriving DecidableEq, Repr

structure Field where
  name : Text
  number : Nat
  type : TypeRef
  label : Option Label
  options : List MemberOption
  deriving DecidableEq, Repr

structure MapField where
  name : Text
  number : Nat
  key : TypeRef
  value : TypeRef
  options : List MemberOption
  deriving DecidableEq, Repr

structure EnumValue where
  name : Text
  number : Int
  options : List MemberOption
  deriving DecidableEq, Repr

/-- one side of a method: the name of a type, and whether values of it are streamed -/
structure Side where
  type : Text
  stream : Bool
  deriving DecidableEq, Repr

/-- how an import differs from a plain one: it may be missing, or importers of the file see it too -/
inductive ImportModifier
  | weak | shared
  deriving DecidableEq, Repr

/-! ## declarations -/

/-- a declaration without a block -/
inductive Statement
  | language (version : Text)
  | edition (version : Text)
  | package (name : Text)
  | importing (path : Text) (modifier : Option ImportModifier)
  | setting (option : Setting)
  | field (f : Field)
  | mapField (m : MapField)
  | enumValue (v : EnumValue)
  | reserved (ranges : Text)
  | extensions (ranges : Text)
  deriving DecidableEq, Repr

/-- a declaration with a block, without that block -/
inductive Heading
  | message (name : Text)
  | enum (name : Text)
  | service (name : Text)
  | method (name : Text) (input output : Side)
  | oneof (name : Text)
  | group (name : Text) (number : Nat) (label : Option Label)
      (options : List MemberOption)
  | extend (type : Text)
  deriving DecidableEq, Repr

/-- the kinds of type that can be looked up by name -/
inductive Kind
  | message | enum | service
  deriving DecidableEq, Repr

def Kind.name : Kind → Text
  | .message => "Message".toList
  | .enum => "Enum".toList
  | .service => "Service".toList

def Statement.name? : Statement → Option Text
  | .setting o => some o.name
  | .field f => some f.name
  | .mapField m => some m.name
  | .enumValue v => some v.name
  | _ => none

def Heading.name? : Heading → Option Text
  | .message name => some name
  | .enum name => some name
  | .service name => some name
  | .method name _ _ => some name
  | .oneof name => some name
  | .group name _ _ _ => some name
  | .extend _ => none

def Heading.kind? : Heading → Option Kind
  | .message _ => some .message
  | .enum _ => some .enum
  | .service _ => some .service
  | _ => none

/-! ## the tree -/

inductive Element
  /-- a comment as written, delimiters included -/
  | comment (text : Text)
  | statement (comments : List Text) (s : Statement)
  | block (comments : List Text) (heading : Heading) (body : List Element)
  deriving Repr

-- equality is decided along with that of lists, which blocks hold
mutual

def Element.decEq : (a b : Element) → Decidable (a = b)
  | .comment t, .comment t' => decidable_of_iff (t = t') (by rw [Element.comment.injEq])
  | .statement cs s, .statement cs' s' =>
    decidable_of_iff (cs = cs' ∧ s = s') (by rw [Element.statement.injEq])
  | .block cs h es, .block cs' h' es' =>
    have := Element.decEqList es es'
    decidable_of_iff (cs = cs' ∧ h = h' ∧ es = es') (by rw [Element.block.injEq])
  | .comment _, .statement _ _ | .comment _, .block _ _ _ | .statement _ _, .comment _
  | .statement _ _, .block _ _ _ | .block _ _ _, .comment _ | .block _ _ _, .statement _ _ =>
    isFalse (by simp)

def Element.decEqList : (as bs : List Element) → Decidable (as = bs)
  | [], [] => isTrue rfl
  | a :: as, b :: bs =>
    have := Element.decEq a b
    have := Element.decEqList as bs
    decidable_of_iff (a = b ∧ as = bs) (by rw [List.cons.injEq])
  | [], _ :: _ | _ :: _, [] => isFalse (by simp)

end

instance : DecidableEq Element := Element.decEq

namespace Element

def name? : Element → Option Text
  | comment _ => none
  | statement _ s => s.name?
  | block _ h _ => h.name?

def kind? : Element → Option Kind
  | block _ h _ => h.kind?
  | _ => none

/-- the attached comments; a comment has none -/
def comments : Element → List Text
  | comment _ => []
  | statement cs _ => cs
  | block cs _ _ => cs

def body : Element → List Element
  | block _ _ es => es
  | _ => []

end Element

/-! ## facts about a whole file -/

/-- the language version of a file: that of its first `syntax` statement -/
def languageOf (file : List Element) : Option Text :=
  file.findSome? fun
    | .statement _ (.language v) => some v
    | _ => none

/-- the package of a file: that of its first `package` statement -/
def packageOf (file : List Element) : Option Text :=
  file.findSome? fun
    | .statement _ (.package p) => some p
    | _ => none

end ProtoDocs
