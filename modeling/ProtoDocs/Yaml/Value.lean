import ProtoDocs.Decimal.Binary
import ProtoDocs.Text.Quoted

/-!
# Values of plain scalars

A plain scalar may stand for nothing, a truth value or a number; else it is a text.

* `Value`          the values;
* `Value.ofPlain`  the value of a plain scalar;
* `Value.phrase`   a value as an error names it.
-/

namespace ProtoDocs.Yaml

inductive Value
  | unit
  | bool (b : Bool)
  | int (n : Int)
  | float (text : Text)
  | text (t : Text)
  deriving DecidableEq, Repr

namespace Value

def isNull (t : Text) : Bool :=
  t == "null".toList || t == "Null".toList || t == "NULL".toList || t == "~".toList

def bool? (t : Text) : Option Bool :=
  if t = "true".toList ∨ t = "True".toList ∨ t = "TRUE".toList then some true
  else if t = "false".toList ∨ t = "False".toList ∨ t = "FALSE".toList then some false
  else none

/-- the value of a character as a digit, letters counting on from ten -/
def digit? (base : Nat) (c : Char) : Option Nat :=
  let v :=
    if c.isDigit then c.toNat - '0'.toNat
    else if 'a' ≤ c ∧ c ≤ 'z' then c.toNat - 'a'.toNat + 10
    else if 'A' ≤ c ∧ c ≤ 'Z' then c.toNat - 'A'.toNat + 10
    else base
  if v < base then some v else none

def natural? (base : Nat) (t : Text) : Option Nat :=
  if t.isEmpty then none
  else t.foldl (fun n c => n.bind fun n => (digit? base c).map (n * base + ·)) (some 0)

/-- the part of a number text that says its base, and the base -/
def baseMarks : List (Text × Nat) := [("0x".toList, 16), ("0o".toList, 8), ("0b".toList, 2)]

def based? (t : Text) : Option Nat :=
  baseMarks.findSome? fun (mark, base) => (mark.isPrefixOf? t).bind (natural? base)

def unsigned (t : Text) : Text :=
  if t.head? = some '-' ∨ t.head? = some '+' then t.drop 1 else t

/-- whether a text is a row of digits that begins with a superfluous zero; such a text is no number -/
def isPadded (t : Text) : Bool :=
  let ds := unsigned t
  1 < ds.length && ds.head? == some '0' && ds.all Char.isDigit

/-- a number that is not negative, with up to 128 bits -/
def unsignedInt? (t : Text) : Option Int :=
  let ds := if t.head? = some '+' then t.drop 1 else t
  let n := (based? ds).or (if isPadded t then none else natural? 10 ds)
  n.bind fun n => if n < 0x100000000000000000000000000000000 then some (n : Int) else none

/-- a negative number, with up to 128 bits -/
def negativeInt? (t : Text) : Option Int :=
  match t with
  | '-' :: ds =>
    let n := (based? ds).or (if isPadded t then none else natural? 10 ds)
    n.bind fun n => if n ≤ 0x80000000000000000000000000000000 then some (-(n : Int)) else none
  | _ => none

/-- the text of a number with a point or an exponent, infinite ones included -/
def float? (t : Text) : Option Text :=
  let signed := t.head? = some '+' ∨ t.head? = some '-'
  let minus : Text := if t.head? = some '-' then ['-'] else []
  let ds := unsigned t
  if ds = ".inf".toList ∨ ds = ".Inf".toList ∨ ds = ".INF".toList then some (minus ++ "inf".toList)
  else if !signed ∧ (t = ".nan".toList ∨ t = ".NaN".toList ∨ t = ".NAN".toList) then some "NaN".toList
  else ((Decimal.ofText? ds).bind Binary.ofDecimal?).map fun v => minus ++ v.shortest.positional

def ofPlain (t : Text) : Value :=
  if t.isEmpty || isNull t then unit
  else match bool? t with
    | some b => bool b
    | none => match (unsignedInt? t).or (negativeInt? t) with
      | some n => int n
      | none => match if isPadded t then none else float? t with
        | some f => float f
        | none => text t

def numberPhrase (t : Text) : Text := "`".toList ++ t ++ "`".toList

/-- a value as an error names it; integers past 64 bits are told apart -/
def phrase : Value → Text
  | unit => "unit value".toList
  | bool b => "boolean ".toList ++ numberPhrase (toString b).toList
  | int n =>
    "integer ".toList ++ numberPhrase (toString n).toList ++
      if 0x10000000000000000 ≤ n then " as u128".toList
      else if n < -0x8000000000000000 then " as i128".toList else []
  | float t => "floating point ".toList ++ numberPhrase t
  | text t => "string ".toList ++ t.quote

end Value
end ProtoDocs.Yaml
