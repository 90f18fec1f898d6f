import ProtoDocs.Proofs.Grammar.Block
import ProtoDocs.Proofs.Grammar.Value

/-!
# Writing elements

How elements may be written: the tokens of every declaration, gaps between the tokens, and blanks
and semicolons between the elements.  Nothing here mentions the readers.

* `Begins rest tokens t`   `t` is the tokens with gaps between them, and then `rest`;
* `Ahead rest tokens t`    the same with a gap in front;
* `Statement.Tokens`, `Heading.Tokens`   the tokens of a declaration, with the spellings it allows;
* `Written es t rest`      `t` is the elements in a row, and then `rest`;
* `WellFormed p es`        at the place `p`, the elements are such that they can be written.
-/

namespace ProtoDocs

open Lexeme

/-! ## tokens in a row -/

/-- a gap and a token, for each of the tokens, and then `rest`; a token does not run on into the
text after it -/
inductive Ahead (rest : Text) : List Text → Text → Prop
  | nil : Ahead rest [] rest
  | cons {g u t : Text} {us : List Text} : Gap g → Clear u t → Ahead rest us t →
      Ahead rest (u :: us) (g ++ (u ++ t))

/-- the tokens with gaps between them, and then `rest` -/
def Begins (rest : Text) : List Text → Text → Prop
  | [], t => t = rest
  | u :: us, t => ∃ r, t = u ++ r ∧ Clear u r ∧ Ahead rest us r

/-! ## parts of declarations -/

/-- The text `u` is a string literal with the contents `v`. -/
def Quoted (v u : Text) : Prop := ∃ q, isQuote q = true ∧ StringBody q v ∧ u = q :: (v ++ [q])

/-- The text `u` is a spelling of the name `n` of a type: a dot may stand in front. -/
def SpellsName (n u : Text) : Prop := u = n ∨ u = '.' :: n

def TypeRef.Spelling : TypeRef → Text → Prop
  | .scalar s, u => u = s.name
  | .named n, u => SpellsName n u

def SpellsNatural (n : Nat) (u : Text) : Prop := IsNatural u ∧ Number.fieldNumber u = n

def SpellsInteger (n : Int) (u : Text) : Prop := IsInteger u ∧ Number.enumNumber u = n

def Label.word : Label → Text
  | .optional => "optional".toList
  | .required => "required".toList
  | .repeated => "repeated".toList

def ImportModifier.word : ImportModifier → Text
  | .weak => "weak".toList
  | .shared => "public".toList

def Setting.tokens (s : Setting) : List Text := [s.name, ['='], s.value]

def optionTokens : List MemberOption → List Text
  | [] => []
  | s :: ss => ['['] :: (s.tokens ++ (ss.flatMap (fun s => [','] :: s.tokens) ++ [[']']]))

inductive Side.Tokens : Side → List Text → Prop
  | plain {type u : Text} : SpellsName type u → Tokens ⟨type, false⟩ [['('], u, [')']]
  | stream {type u : Text} : SpellsName type u →
      Tokens ⟨type, true⟩ [['('], "stream".toList, u, [')']]

/-! ## declarations -/

/-- the tokens of a statement, its semicolon included; ranges are not made of tokens -/
inductive Statement.Tokens : Statement → List Text → Prop
  | language {v u : Text} : Quoted v u →
      Tokens (.language v) [Keyword.language.word, ['='], u, [';']]
  | edition {v u : Text} : Quoted v u →
      Tokens (.edition v) [Keyword.edition.word, ['='], u, [';']]
  | package (name : Text) : Tokens (.package name) [Keyword.package.word, name, [';']]
  | importing {path u : Text} (modifier : Option ImportModifier) : Quoted path u →
      Tokens (.importing path modifier)
        (Keyword.importing.word :: ((modifier.map ImportModifier.word).toList ++ [u, [';']]))
  | setting (s : Setting) :
      Tokens (.setting s) (Keyword.option.word :: (s.tokens ++ [[';']]))
  | field {f : Field} {type number : Text} : f.type.Spelling type → SpellsNatural f.number number →
      Tokens (.field f) ((f.label.map Label.word).toList ++
        (type :: f.name :: ['='] :: number :: (optionTokens f.options ++ [[';']])))
  | mapField {m : MapField} {key value number : Text} : m.key.Spelling key →
      m.value.Spelling value → SpellsNatural m.number number →
      Tokens (.mapField m) (Keyword.map.word :: ['<'] :: key :: [','] :: value :: ['>'] :: m.name ::
        ['='] :: number :: (optionTokens m.options ++ [[';']]))
  | enumValue {v : EnumValue} {number : Text} : SpellsInteger v.number number →
      Tokens (.enumValue v) (v.name :: ['='] :: number :: (optionTokens v.options ++ [[';']]))

inductive Heading.Tokens : Heading → List Text → Prop
  | message (name : Text) : Tokens (.message name) [Keyword.message.word, name]
  | enum (name : Text) : Tokens (.enum name) [Keyword.enum.word, name]
  | service (name : Text) : Tokens (.service name) [Keyword.service.word, name]
  | method {name : Text} {input output : Side} {us vs : List Text} : input.Tokens us →
      output.Tokens vs → Tokens (.method name input output)
        (Keyword.rpc.word :: name :: (us ++ Keyword.returns.word :: vs))
  | oneof (name : Text) : Tokens (.oneof name) [Keyword.oneof.word, name]
  | group {name number : Text} {n : Nat} (label : Option Label) (options : List MemberOption) :
      SpellsNatural n number → Tokens (.group name n label options)
        ((label.map Label.word).toList ++
          (Keyword.group.word :: name :: ['='] :: number :: optionTokens options))
  | extend {type u : Text} : SpellsName type u → Tokens (.extend type) [Keyword.extend.word, u]

def Statement.rangeWord? : Statement → Option (Text × Text)
  | .reserved ranges => some (Keyword.reserved.word, ranges)
  | .extensions ranges => some (Keyword.extensions.word, ranges)
  | _ => none

/-- The text `t` is the statement, its semicolon included, and then `rest`. -/
inductive Statement.Written (s : Statement) (t rest : Text) : Prop
  | tokens {us : List Text} : s.Tokens us → Begins rest us t → Written s t rest
  | ranges {w r g b : Text} : s.rangeWord? = some (w, r) → Gap g → Clear w (g ++ r) →
      (∀ c ∈ b, isBlank c = true) → t = w ++ (g ++ (r ++ (b ++ ';' :: rest))) → Written s t rest

/-- The text `t` is the elements in a row, with blanks and semicolons around them, and then `rest`.
The body of a method without elements may be a semicolon. -/
inductive Written : List Element → Text → Text → Prop
  | nil {rest : Text} : Written [] rest rest
  | filler {c : Char} {es : List Element} {t rest : Text} :
      isFiller c = true → Written es t rest → Written es (c :: t) rest
  | comment {c : Text} {es : List Element} {t rest : Text} :
      CommentBefore c t → Written es t rest → Written (.comment c :: es) (c ++ t) rest
  | statement {s : Statement} {es : List Element} {t u rest : Text} :
      s.Written t u → Written es u rest → Written (.statement [] s :: es) t rest
  | block {h : Heading} {us : List Text} {body es : List Element} {t inside u rest : Text} :
      h.Tokens us → Begins inside (us ++ [['{']]) t → Written body inside ('}' :: u) →
      Written es u rest → Written (.block [] h body :: es) t rest
  | bare {h : Heading} {us : List Text} {es : List Element} {t u rest : Text} :
      h.isMethod → h.Tokens us → Begins u (us ++ [[';']]) t →
      Written es u rest → Written (.block [] h [] :: es) t rest

/-! ## elements that can be written -/

def firstWord (t : Text) : Text := t.takeWhile isIdentChar

/-- the words that the type of a field cannot begin with, since they begin something else -/
def openingWords : List Text :=
  [Keyword.option, .message, .enum, .oneof, .map, .extend, .reserved, .extensions, .group].map
    Keyword.word ++ [Label.optional, .required, .repeated].map Label.word

/-- a scalar, or a dotted name that neither is that of a scalar nor begins with an opening word -/
def TypeRef.WellFormed : TypeRef → Prop
  | .scalar _ => True
  | .named n => IsFullIdent n ∧ Scalar.ofName? n = none ∧ firstWord n ∉ openingWords

def Setting.WellFormed (s : Setting) : Prop := IsOptionName s.name ∧ IsConstant s.value

def MemberOption.WellFormed (s : MemberOption) : Prop := s.toSetting.WellFormed ∧ s.comments = []

/-- A type that is not streamed does not begin with the word for streams. -/
def Side.WellFormed (s : Side) : Prop :=
  IsFullIdent s.type ∧ (s.stream = false → firstWord s.type ≠ "stream".toList)

/-- ranges that are read as they stand: without blanks at the ends, and with no comment in front -/
structure IsRanges (ranges : Text) : Prop where
  text : RangeText ranges
  ne_nil : ranges ≠ []
  trimmed : ranges.trim = ranges
  not_space : ranges.starts isSpace = false
  not_line : ¬ ['/', '/'] <+: ranges
  not_block : ¬ ['/', '*'] <+: ranges

def Statement.WellFormed : Statement → Prop
  | .language v => ∃ u, Quoted v u
  | .edition v => ∃ u, Quoted v u
  | .package name => IsFullIdent name
  | .importing path _ => ∃ u, Quoted path u
  | .setting s => s.WellFormed
  | .field f => IsIdent f.name ∧ f.number < 0x100000000 ∧ f.type.WellFormed ∧
      ∀ s ∈ f.options, s.WellFormed
  | .mapField m => IsIdent m.name ∧ m.number < 0x100000000 ∧ m.key.WellFormed ∧ m.value.WellFormed ∧
      ∀ s ∈ m.options, s.WellFormed
  | .enumValue v => IsIdent v.name ∧ v.name ≠ Keyword.option.word ∧
      v.name ≠ Keyword.reserved.word ∧ (-0x80000000 ≤ v.number ∧ v.number < 0x80000000) ∧
      ∀ s ∈ v.options, s.WellFormed
  | .reserved ranges => IsRanges ranges
  | .extensions ranges => IsRanges ranges

def Heading.WellFormed : Heading → Prop
  | .message name => IsIdent name
  | .enum name => IsIdent name
  | .service name => IsIdent name
  | .method name input output => IsIdent name ∧ input.WellFormed ∧ output.WellFormed
  | .oneof name => IsIdent name
  | .group name number _ options =>
    IsIdent name ∧ number < 0x100000000 ∧ ∀ s ∈ options, s.WellFormed
  | .extend type => IsFullIdent type

/-- At the place, the elements are such that they can be written: each is admitted there and in
itself well-formed, and no comments are attached to it. -/
inductive WellFormed : Place → List Element → Prop
  | nil (p : Place) : WellFormed p []
  | comment {p : Place} {c : Text} {es : List Element} : IsLineComment c ∨ IsBlockComment c →
      WellFormed p es → WellFormed p (.comment c :: es)
  | statement {p : Place} {s : Statement} {es : List Element} : p.admits s = true →
      s.WellFormed → WellFormed p es → WellFormed p (.statement [] s :: es)
  | block {p : Place} {h : Heading} {body es : List Element} : p.admitsBlock h = true →
      h.WellFormed → WellFormed h.place body → WellFormed p es →
      WellFormed p (.block [] h body :: es)

end ProtoDocs
