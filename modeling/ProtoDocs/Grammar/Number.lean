import ProtoDocs.Text.Basic

/-!
# Integers in a schema file

An integer is written in decimal, in hexadecimal after `0x`, or in octal after a further leading
zero, perhaps with a minus in front. It is worked out in words of 64 bits; a text that is no such
integer, or one that does not fit, counts as zero.

* `word?`            the word of an integer, if it fits in one;
* `digits?`          the word of a row of digits in a base, perhaps with a sign;
* `magnitude`        the word of an integer text after its minus;
* `integer`          the word of an integer text;
* `fieldNumber`      the number of a field: 32 bits without sign;
* `enumNumber`       the number of an enum value: 32 bits with sign.
-/

namespace ProtoDocs.Number

/-- the value of a digit, letters counting on from ten -/
def digitValue? (base : Nat) (c : Char) : Option Nat :=
  let v :=
    if c.isDigit then c.toNat - '0'.toNat
    else if 'a' ≤ c ∧ c ≤ 'z' then c.toNat - 'a'.toNat + 10
    else if 'A' ≤ c ∧ c ≤ 'Z' then c.toNat - 'A'.toNat + 10
    else base
  if v < base then some v else none

/-- the word of 64 bits with sign for an integer, if there is one -/
def word? (v : Int) : Option Int64 :=
  if -0x8000000000000000 ≤ v ∧ v < 0x8000000000000000 then some (.ofInt v) else none

/-- the word of a row of digits after digits worth `n`: each digit is added, or taken off if the
number is negative, and no step on the way may leave the words -/
def digitsFrom? (base : Nat) (negative : Bool) (n : Int64) : Text → Option Int64
  | [] => some n
  | c :: t => do
    let shifted ← word? (n.toInt * base)
    let d ← digitValue? base c
    let m ← word? (if negative then shifted.toInt - d else shifted.toInt + d)
    digitsFrom? base negative m t

/-- the word of at least one digit of the base, perhaps with a sign in front -/
def digits? (base : Nat) (t : Text) : Option Int64 :=
  let (negative, ds) := match t with
    | '-' :: ds => (true, ds)
    | '+' :: ds => (false, ds)
    | ds => (false, ds)
  if ds.isEmpty then none else digitsFrom? base negative 0 ds

/-- the word of an integer text after its minus, zero if it has none -/
def magnitude : Text → Int64
  | '0' :: 'x' :: t => (digits? 16 t).getD 0
  | '0' :: 'X' :: t => (digits? 16 t).getD 0
  | '0' :: c :: t => (digits? 8 (c :: t)).getD 0
  | t => (digits? 10 t).getD 0

/-- the word of an integer text; the negation is one of words, too -/
def integer : Text → Int64
  | '-' :: t => -magnitude t
  | t => magnitude t

def fieldNumber (t : Text) : Nat :=
  let v := (integer t).toInt
  if 0 ≤ v ∧ v < 0x100000000 then v.toNat else 0

def enumNumber (t : Text) : Int :=
  let v := (integer t).toInt
  if -0x80000000 ≤ v ∧ v < 0x80000000 then v else 0

end ProtoDocs.Number
