import ProtoDocs.Yaml.Cursor
import ProtoDocs.Yaml.Token

/-!
# Scalars of a YAML text

* `quoted`        the text of a quoted scalar behind its opening quote;
* `plain`         the text of a plain scalar;
* `blockScalar`   the text of a literal or folded scalar behind its indicator.
-/

namespace ProtoDocs.Yaml

/-! ## quoted scalars -/

/-- the character that a backslash and this character stand for -/
def escape? : Char → Option Char
  | '0' => some '\x00'
  | 'a' => some '\x07'
  | 'b' => some '\x08'
  | 't' => some '\t'
  | '\t' => some '\t'
  | 'n' => some '\n'
  | 'v' => some '\x0b'
  | 'f' => some '\x0c'
  | 'r' => some '\r'
  | 'e' => some '\x1b'
  | ' ' => some ' '
  | '"' => some '"'
  | '/' => some '/'
  | '\\' => some '\\'
  | 'N' => some '\u0085'
  | '_' => some '\u00a0'
  | 'L' => some '\u2028'
  | 'P' => some '\u2029'
  | _ => none

/-- how many hexadecimal digits follow a backslash and this character -/
def escapeDigits? : Char → Option Nat
  | 'x' => some 2
  | 'u' => some 4
  | 'U' => some 8
  | _ => none

def hexValue? (c : Char) : Option Nat :=
  if c.isDigit then some (c.toNat - '0'.toNat)
  else if 'a' ≤ c ∧ c ≤ 'f' then some (c.toNat - 'a'.toNat + 10)
  else if 'A' ≤ c ∧ c ≤ 'F' then some (c.toNat - 'A'.toNat + 10)
  else none

/-- the value of the first `n` characters as hexadecimal digits -/
def hexNumber? (n : Nat) (t : Text) : Option Nat :=
  if t.length < n then none
  else (t.take n).foldl (fun v c => v.bind fun v => (hexValue? c).map (v * 16 + ·)) (some 0)

def charOfCode? (n : Nat) : Option Char :=
  if n.isValidChar then some (Char.ofNat n) else none

/-- a quoted scalar from behind a pause on, where `since` is the place of its opening quote: its text
and the place behind its closing quote -/
def quoted (single : Bool) (since : Mark) : Pause → Mark → Text → Except Fault (Text × Cursor)
  | _, m, [] => .error (.during .endOfStream m .quotedScalar since)
  | pause, m, '\r' :: '\n' :: t => quoted single since (pause.addBreak '\n') (m.passBreak 2) t
  | pause, m, c :: t =>
    if isGap c then quoted single since (pause.addGap c) m.pass t
    else if isBreak c then quoted single since (pause.addBreak (normalBreak c)) (m.passBreak 1) t
    else if m.column = 0 ∧ atDocumentMark (c :: t) then
      .error (.during .documentMark m .quotedScalar since)
    else if single then
      if c = '\x27' then match t with
        | '\x27' :: t => do
          let (s, r) ← quoted single since .none (m.passMany 2) t
          return (pause.text ++ c :: s, r)
        | _ => .ok (pause.text, ⟨m.pass, t⟩)
      else do
        let (s, r) ← quoted single since .none m.pass t
        return (pause.text ++ c :: s, r)
    else if c = '"' then .ok (pause.text, ⟨m.pass, t⟩)
    else if c = '\\' then match t with
      | [] => .error (.during .unknownEscape m .quotedEscape since)
      | '\r' :: '\n' :: t => do
        let (s, r) ← quoted single since (.breaks [] []) (m.pass.passBreak 2) t
        return (pause.text ++ s, r)
      | e :: t =>
        if isBreak e then do
          let (s, r) ← quoted single since (.breaks [] []) (m.pass.passBreak 1) t
          return (pause.text ++ s, r)
        else match escape? e with
          | some x => do
            let (s, r) ← quoted single since .none (m.passMany 2) t
            return (pause.text ++ x :: s, r)
          | none => match escapeDigits? e with
            | none => .error (.during .unknownEscape m .quotedEscape since)
            | some n => match hexNumber? n t with
              | none => .error (.during .noHexDigit (m.passMany 2) .quotedEscape since)
              | some v => match charOfCode? v with
                | none => .error (.during .badEscapeCode (m.passMany 2) .quotedEscape since)
                | some x => do
                  let (s, r) ← quoted single since .none (m.passMany (2 + n)) (t.drop n)
                  return (pause.text ++ x :: s, r)
    else do
      let (s, r) ← quoted single since .none m.pass t
      return (pause.text ++ c :: s, r)
termination_by _ _ t => t.length

/-! ## plain scalars -/

def isFlowMark (c : Char) : Bool :=
  c == ',' || c == '[' || c == ']' || c == '{' || c == '}'

/-- whether a colon in a flow collection stands directly in front of one of its marks -/
def colonMeetsMark (t : Text) : Bool :=
  match t with
  | ':' :: c :: _ => isFlowMark c || c == '?'
  | _ => false

/-- whether a plain scalar ends in front of a text that begins with no blank -/
def plainEnds (inFlow : Bool) : Text → Bool
  | ':' :: t => atBlank t
  | c :: _ => inFlow && isFlowMark c
  | [] => true

/-- a plain scalar from behind a pause on, where `since` is its beginning and `indent` the least
column of its lines: its text, the place behind it and its last pause, and whether that has line
breaks -/
def plain (inFlow : Bool) (indent : Int) (since : Mark) :
    Pause → Mark → Text → Except Fault (Text × Cursor × Bool)
  | pause, m, [] => .ok ([], ⟨m, []⟩, pause.hasBreaks)
  | pause, m, '\r' :: '\n' :: t => plain inFlow indent since (pause.addBreak '\n') (m.passBreak 2) t
  | pause, m, c :: t =>
    if isGap c then
      if pause.hasBreaks ∧ m.column < indent ∧ c = '\t' then
        .error (.during .tabBeforeText m .plainScalar since)
      else plain inFlow indent since (pause.addGap c) m.pass t
    else if isBreak c then
      plain inFlow indent since (pause.addBreak (normalBreak c)) (m.passBreak 1) t
    else if pause ≠ .none ∧
        ((!inFlow ∧ m.column < indent) ∨ (m.column = 0 ∧ atDocumentMark (c :: t)) ∨ c = '#') then
      .ok ([], ⟨m, c :: t⟩, pause.hasBreaks)
    else if inFlow ∧ colonMeetsMark (c :: t) then
      .error (.during .unexpectedColon m .plainScalar since)
    else if plainEnds inFlow (c :: t) then .ok ([], ⟨m, c :: t⟩, pause.hasBreaks)
    else do
      let (s, r, b) ← plain inFlow indent since .none m.pass t
      return (pause.text ++ c :: s, r, b)
termination_by _ _ t => t.length

/-! ## block scalars -/

/-- the line breaks and the indentation in front of a line of a block scalar -/
structure BlockGap where
  breaks : Text
  indent : Nat
  cursor : Cursor

/-- skips empty lines and indentation up to the column `indent`, which is found out here if it is
zero: then it is the deepest column met, but past the parent's `parent` -/
def blockGap (since : Mark) (parent : Int) (indent : Nat) :
    Nat → Mark → Text → Except Fault BlockGap
  | deepest, m, ' ' :: t =>
    if indent = 0 ∨ m.column < indent then blockGap since parent indent deepest m.pass t
    else .ok ⟨[], indent, ⟨m, ' ' :: t⟩⟩
  | deepest, m, '\r' :: '\n' :: t => do
    let g ← blockGap since parent indent (max deepest m.column) (m.passBreak 2) t
    return { g with breaks := '\n' :: g.breaks }
  | deepest, m, t =>
    let deepest := max deepest m.column
    let found := if indent = 0 then max deepest (max 1 (parent + 1).toNat) else indent
    match t with
    | [] => .ok ⟨[], found, ⟨m, []⟩⟩
    | c :: t =>
      if (indent = 0 ∨ m.column < indent) ∧ c = '\t' then
        .error (.during .tabInIndentation m .blockScalar since)
      else if isBreak c then do
        let g ← blockGap since parent indent deepest (m.passBreak 1) t
        return { g with breaks := normalBreak c :: g.breaks }
      else .ok ⟨[], found, ⟨m, c :: t⟩⟩
termination_by _ _ t => t.length

/-- the lines of a block scalar from a gap on, where `before` is the line break in front of the gap and
`blank` says whether the line before began with a blank: their text, the line break behind the last
line, and the gap behind that -/
def blockLines (literal : Bool) (since : Mark) (parent : Int) (before : Text) (blank : Bool)
    (g : BlockGap) : Except Fault (Text × Text × BlockGap) :=
  match g.cursor.rest with
  | [] => .ok ([], before, g)
  | c :: _ =>
    if g.cursor.mark.column = g.indent then do
      let folded := !literal && before == ['\n'] && !blank && !isGap c
      let joint := if folded then (if g.breaks.isEmpty then [' '] else []) else before
      let line := g.cursor.rest.takeWhile (!isBreak ·)
      let (lineBreak, r) := (g.cursor.pass line.length).takeBreak
      let next ← blockGap since parent g.indent 0 r.mark r.rest
      if next.cursor.rest.length < g.cursor.rest.length then
        let (s, last, after) ← blockLines literal since parent lineBreak (isGap c) next
        return (joint ++ g.breaks ++ line ++ s, last, after)
      else return (joint ++ g.breaks ++ line, lineBreak, next)
    else .ok ([], before, g)
termination_by g.cursor.rest.length

/-- what a block scalar keeps of the line breaks at its end -/
inductive Chomping
  | strip | clip | keep
  deriving DecidableEq, Repr

/-- the chomping and indentation indicators in either order, and the place behind them -/
def blockHeader (since : Mark) (c : Cursor) : Except Fault (Chomping × Nat × Cursor) :=
  let chomping? (c : Cursor) : Option Chomping := match c.rest with
    | '+' :: _ => some .keep
    | '-' :: _ => some .strip
    | _ => none
  let digit (c : Cursor) : Except Fault (Nat × Cursor) := match c.rest with
    | d :: _ =>
      if d = '0' then .error (.during .zeroIndentation c.mark .blockScalar since)
      else if d.isDigit then .ok (d.toNat - '0'.toNat, c.pass 1)
      else .ok (0, c)
    | [] => .ok (0, c)
  match chomping? c with
  | some ch => do
    let (n, c) ← digit (c.pass 1)
    return (ch, n, c)
  | none => do
    let (n, c) ← digit c
    match if n = 0 then none else chomping? c with
    | some ch => return (ch, n, c.pass 1)
    | none => return (.clip, n, c)

/-- a block scalar from behind its indicator on, where `since` is the place of that indicator and
`parent` the column of the collection around it -/
def blockScalar (literal : Bool) (since : Mark) (parent : Int) (c : Cursor) :
    Except Fault (Text × Cursor) := do
  let (chomping, increment, c) ← blockHeader since c
  let c := c.skipGaps.skipComment
  if !atLineEnd c.rest then .error (.during .noCommentOrBreak c.mark .blockScalar since)
  else
    let c := c.skipBreak
    let indent := if increment = 0 then 0 else (max parent 0).toNat + increment
    let g ← blockGap since parent indent 0 c.mark c.rest
    let (s, last, after) ← blockLines literal since parent [] false g
    let tail := match chomping with
      | .strip => []
      | .clip => last
      | .keep => last ++ after.breaks
    return (s ++ tail, after.cursor)

end ProtoDocs.Yaml
