import ProtoDocs.Yaml.Scalar

/-!
# Anchors, tags and directives of a YAML text

* `anchorName`    the name behind an anchor or alias indicator;
* `tag`           handle and suffix of a tag;
* `directive`     a directive line.
-/

namespace ProtoDocs.Yaml

/-! ## anchors -/

/-- whether the name of an anchor may end in front of a text -/
def anchorEnds (t : Text) : Bool :=
  atBlank t || (t.head?.any fun c => "?:,]\x7d%@`".toList.contains c)

/-- the name of an anchor or alias that begins at `since` with its indicator -/
def anchorName (activity : Activity) (since : Cursor) : Except Fault (Text × Cursor) :=
  let (name, c) := (since.pass 1).name
  if name.isEmpty || !anchorEnds c.rest then
    .error (.during .noNameCharacter c.mark activity since.mark)
  else .ok (name, c)

/-! ## tags -/

/-- the number of octets that follow a leading octet, and the bits it holds itself -/
def leadingOctet? (n : Nat) : Option (Nat × Nat) :=
  if n < 0x80 then some (0, n)
  else if n / 0x20 = 6 then some (1, n % 0x20)
  else if n / 0x10 = 14 then some (2, n % 0x10)
  else if n / 0x08 = 30 then some (3, n % 0x08)
  else none

/-- an octet written as a percent sign and two hexadecimal digits -/
def octet? : Text → Option Nat
  | '%' :: a :: b :: _ => (hexValue? a).bind fun x => (hexValue? b).map (x * 16 + ·)
  | _ => none

/-- `n` further octets of a character of which `v` is known -/
def trailingOctets (activity : Activity) (since : Mark) :
    Nat → Nat → Cursor → Except Fault (Nat × Cursor)
  | 0, v, c => .ok (v, c)
  | n + 1, v, c => match octet? c.rest with
    | none => .error (.during .noEscapedOctet c.mark activity since)
    | some o =>
      if o / 0x40 = 2 then trailingOctets activity since n (v * 0x40 + o % 0x40) (c.pass 3)
      else .error (.during .badTrailingOctet c.mark activity since)

/-- a character written as its octets -/
def escapedChar (activity : Activity) (since : Mark) (c : Cursor) : Except Fault (Char × Cursor) :=
  match octet? c.rest with
  | none => .error (.during .noEscapedOctet c.mark activity since)
  | some o => match leadingOctet? o with
    | none => .error (.during .badLeadingOctet c.mark activity since)
    | some (n, v) => do
      let (v, c) ← trailingOctets activity since n v (c.pass 3)
      return (Char.ofNat v, c)

/-- a character of a tag; `verbatim` ones may also be flow marks -/
def isTagChar (verbatim : Bool) (c : Char) : Bool :=
  isNameChar c || ";/?:@&=+$.%!~*'()".toList.contains c || (verbatim && ",[]".toList.contains c)

/-- the characters of a tag up to the first other one -/
def tagChars (verbatim : Bool) (activity : Activity) (since : Mark) (c : Cursor) :
    Except Fault (Text × Cursor) :=
  match c.rest with
  | [] => .ok ([], c)
  | x :: _ =>
    if !isTagChar verbatim x then .ok ([], c)
    else do
      let (y, r) ← if x = '%' then escapedChar activity since c else .ok (x, c.pass 1)
      if r.rest.length < c.rest.length then
        let (s, e) ← tagChars verbatim activity since r
        return (y :: s, e)
      else return ([y], r)
termination_by c.rest.length

/-- the suffix of a tag, which must not be empty together with the handle `lead` in front of it, whose
first character is not repeated -/
def tagSuffix (verbatim : Bool) (activity : Activity) (lead : Text) (since : Mark) (c : Cursor) :
    Except Fault (Text × Cursor) := do
  let (s, r) ← tagChars verbatim activity since c
  if lead.isEmpty && s.isEmpty then .error (.during .noTagUri r.mark activity since)
  else return (lead.drop 1 ++ s, r)

/-- an exclamation mark, a name and perhaps a second mark; in a directive the second one must be there
unless the handle is a single mark -/
def tagHandle (inDirective : Bool) (since : Mark) (c : Cursor) : Except Fault (Text × Cursor) :=
  if c.rest.head? ≠ some '!' then
    .error (.during .noTagBang c.mark (if inDirective then .tagDirectiveHandle else .tag) since)
  else
    let (name, r) := (c.pass 1).name
    if r.rest.head? = some '!' then .ok ('!' :: name ++ ['!'], r.pass 1)
    else if inDirective && !name.isEmpty then
      .error (.during .noTagBang r.mark .tagDirectiveEnd since)
    else .ok ('!' :: name, r)

/-- handle and suffix of a tag; a tag of one exclamation mark is all suffix -/
def tag (inFlow : Bool) (c : Cursor) : Except Fault (Text × Text × Cursor) := do
  let since := c.mark
  let (handle, suffix, r) ←
    if c.rest[1]? = some '<' then do
      let (suffix, r) ← tagSuffix true .tagUri [] since (c.pass 2)
      if r.rest.head? ≠ some '>' then .error (.during .noTagEnd r.mark .tag since)
      else .ok ([], suffix, r.pass 1)
    else do
      let (handle, r) ← tagHandle false since c
      if 1 < handle.length ∧ handle.getLast? = some '!' then do
        let (suffix, r) ← tagSuffix false .tagUri [] since r
        .ok (handle, suffix, r)
      else do
        let (suffix, r) ← tagSuffix false .tagUri handle since r
        if suffix.isEmpty then .ok ([], ['!'], r) else .ok (['!'], suffix, r)
  if (inFlow && r.rest.head? == some ',') || atBlank r.rest then return (handle, suffix, r)
  else .error (.during .noWhitespaceOrBreak r.mark .tag since)

/-! ## directives -/

def versionNumber (since : Mark) (c : Cursor) : Except Fault (Nat × Cursor) :=
  let digits := c.rest.takeWhile Char.isDigit
  if 9 < digits.length then
    .error (.during .longVersionNumber (c.pass 9).mark .versionDirective since)
  else if digits.isEmpty then .error (.during .noVersionNumber c.mark .versionDirective since)
  else .ok (digits.foldl (fun v d => v * 10 + (d.toNat - '0'.toNat)) 0, c.pass digits.length)

def versionValue (since : Mark) (c : Cursor) : Except Fault (TokenKind × Cursor) := do
  let (major, c) ← versionNumber since c.skipGaps
  if c.rest.head? ≠ some '.' then .error (.during .noVersionDigit c.mark .versionDirective since)
  else
    let (minor, c) ← versionNumber since (c.pass 1)
    return (.version major minor, c)

def tagHandleValue (since : Mark) (c : Cursor) : Except Fault (TokenKind × Cursor) := do
  let (handle, c) ← tagHandle true since c.skipGaps
  if !(c.rest.head?.any isGap) then .error (.during .noWhitespace c.mark .tagDirective since)
  else
    let (lead, c) ← tagSuffix true .tagDirectiveUri [] since c.skipGaps
    if !atBlank c.rest then .error (.during .noWhitespaceOrBreak c.mark .tagDirective since)
    else return (.tagHandle handle lead, c)

/-- the directive that begins at the cursor, and the place behind its line -/
def directive (c : Cursor) : Except Fault (TokenKind × Cursor) := do
  let since := c.mark
  let (name, c) := (c.pass 1).name
  if name.isEmpty then .error (.during .noDirectiveName c.mark .directive since)
  else if !atBlank c.rest then .error (.during .oddDirectiveName c.mark .directive since)
  else
    let (kind, c) ←
      if name = "YAML".toList then versionValue since c
      else if name = "TAG".toList then tagHandleValue since c
      else .error (.during .unknownDirective c.mark .directive since)
    let c := c.skipGaps.skipComment
    if !atLineEnd c.rest then .error (.during .noDirectiveEnd c.mark .directive since)
    else return (kind, c.skipBreak)

end ProtoDocs.Yaml
