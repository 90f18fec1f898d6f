import ProtoDocs.Grammar.Attempts

/-!
# Syntax errors

Where reading a file stopped and what was expected there. The message shows the line with a mark
below the place, and lists the expected parts by name.

* `SyntaxError`            the text around the place, and the parts that were tried there;
* `SyntaxError.line`, `SyntaxError.column`   the place, counted from one;
* `SyntaxError.shownLine`  the line as the message shows it;
* `SyntaxError.message`    the message.

A line ends at a line feed, with or without a carriage return in front of it; a carriage return
alone is a character of its line.
-/

namespace ProtoDocs

/-- the text up to the furthest place, the text from there on, and what was expected there -/
structure SyntaxError where
  before : Text
  after : Text
  tried : List Symbol
  deriving DecidableEq, Repr

namespace SyntaxError

/-! ## the place -/

/-- line and column behind a text that begins at the given place -/
def advance : Nat × Nat → Text → Nat × Nat
  | place, [] => place
  | (line, _), '\r' :: '\n' :: t => advance (line + 1, 1) t
  | (line, _), '\n' :: t => advance (line + 1, 1) t
  | (line, column), _ :: t => advance (line, column + 1) t

def line (e : SyntaxError) : Nat := (advance (1, 1) e.before).1

def column (e : SyntaxError) : Nat := (advance (1, 1) e.before).2

/-! ## the line -/

/-- the line around the place, line feed included -/
def wholeLine (e : SyntaxError) : Text :=
  let start := (e.before.reverse.takeWhile (· != '\n')).reverse
  let stop := e.after.takeWhile (· != '\n')
  start ++ stop ++ (e.after.drop stop.length).take 1

/-- a line end made visible -/
def visible (c : Char) : Char :=
  if c = '\r' then '␍' else if c = '\n' then '␊' else c

/-- the line as shown: its line ends are left out, unless the place is at one, and then they are
made visible -/
def shownLine (e : SyntaxError) : Text :=
  match e.after with
  | '\n' :: _ => e.wholeLine.map visible
  | '\r' :: _ => e.wholeLine.map visible
  | _ => e.wholeLine.filter fun c => c != '\r' && c != '\n'

/-- the mark below the place; tabs stay tabs so that it lines up -/
def underline (e : SyntaxError) : Text :=
  (e.shownLine.take (e.column - 1)).map (fun c => if c = '\t' then '\t' else ' ') ++ "^---".toList

/-! ## the message -/

/-- the expected parts, each once and in their order -/
def expected (e : SyntaxError) : List Symbol :=
  Symbol.all.filter (e.tried.contains ·)

/-- names as a list in words: `A`, `A or B`, `A, B, or C` -/
def inWords : List Text → Text
  | [] => []
  | [a] => a
  | [a, b] => a ++ " or ".toList ++ b
  | as => Text.join ", ".toList as.dropLast ++ ", or ".toList ++ as.getLastD []

/-- the message, without a line end after its last line -/
def message (e : SyntaxError) : Text :=
  let number := (toString e.line).toList
  let margin := number.map fun _ => ' '
  Text.join ['\n']
    [margin ++ "--> ".toList ++ number ++ [':'] ++ (toString e.column).toList,
      margin ++ " |".toList,
      number ++ " | ".toList ++ e.shownLine,
      margin ++ " | ".toList ++ e.underline,
      margin ++ " |".toList,
      margin ++ " = expected ".toList ++ inWords (e.expected.map Symbol.name)]

end SyntaxError
end ProtoDocs
