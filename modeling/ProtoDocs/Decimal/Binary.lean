import ProtoDocs.Text.Basic

/-!
# Decimal texts and binary numbers

A number with 53 binary digits stands for all the reals that round to it. Its text is the shortest
decimal that rounds to it, and of those the nearest.

* `Binary`               a number `digits * 2 ^ shift`;
* `Binary.ofRatio?`      the number to which a fraction rounds, half-way cases to even digits;
* `Decimal.ofText?`      a decimal text as digits and a power of ten;
* `Binary.ofDecimal?`    the number to which a decimal rounds, unless it is too large;
* `Binary.shortest`      the shortest decimal that rounds to a number;
* `Decimal.positional`   a decimal written without an exponent, and with a point.
-/

namespace ProtoDocs

/-- the number `digits * 10 ^ power` -/
structure Decimal where
  digits : Nat
  power : Int
  deriving DecidableEq, Repr

/-- the number `digits * 2 ^ shift` -/
structure Binary where
  digits : Nat
  shift : Int
  deriving DecidableEq, Repr

/-- `n * base ^ e` as numerator and denominator -/
def scaledRatio (n base : Nat) (e : Int) : Nat × Nat :=
  if 0 ≤ e then (n * Nat.pow base e.toNat, 1) else (n, Nat.pow base (-e).toNat)

/-- a quotient rounded to the nearest integer, half-way cases to the even one -/
def roundHalfEven (num den : Nat) : Nat :=
  let q := num / den
  let twice := 2 * (num % den)
  if twice < den then q
  else if den < twice then q + 1
  else if q % 2 = 0 then q else q + 1

namespace Binary

def maxDigits : Nat := 0x20000000000000
def minShift : Int := -1074
def maxShift : Int := 971

/-- the number to which the fraction `num / den` rounds, unless it is too large -/
def ofRatio? (num den : Nat) : Option Binary :=
  if num = 0 then some ⟨0, 0⟩
  else
    let guess : Int := (Nat.log2 num : Int) - (Nat.log2 den : Int)
    let (a, b) := scaledRatio 1 2 guess
    let size := if num * b < a * den then guess - 1 else guess
    let shift := max (size - 52) minShift
    let (a, b) := scaledRatio 1 2 shift
    let digits := roundHalfEven (num * b) (den * a)
    let (digits, shift) := if digits = maxDigits then (digits / 2, shift + 1) else (digits, shift)
    if maxShift < shift then none else some ⟨digits, shift⟩

/-- the number to which a decimal rounds; one far beyond the range is not worked out -/
def ofDecimal? (d : Decimal) : Option Binary :=
  let size := d.power + (toString d.digits).length
  if d.digits = 0 ∨ size < -400 then some ⟨0, 0⟩
  else if 400 < size then none
  else
    let (num, den) := scaledRatio d.digits 10 d.power
    ofRatio? num den

/-- the digits next to the number among the multiples of `10 ^ power`, if one of them rounds to it: the
nearer one, and the lower of two as near -/
def neighbour? (v : Binary) (power : Int) : Option Decimal :=
  let (a, b) := scaledRatio v.digits 2 v.shift
  let (c, d) := scaledRatio 1 10 power
  let num := a * d
  let den := b * c
  let low := num / den
  let rounds (n : Nat) : Bool := n != 0 && ofDecimal? ⟨n, power⟩ == some v
  let lowIsNearer := 2 * (num % den) ≤ den
  let (first, second) := if lowIsNearer then (low, low + 1) else (low + 1, low)
  if rounds first then some ⟨first, power⟩
  else if rounds second then some ⟨second, power⟩
  else none

/-- the shortest decimal that rounds to the number, tried from the coarsest grid on -/
def shortestFrom (v : Binary) (power : Int) : Nat → Decimal
  | 0 => ⟨0, 0⟩
  | n + 1 => (neighbour? v power).getD (shortestFrom v (power - 1) n)

def shortest (v : Binary) : Decimal :=
  if v.digits = 0 then ⟨0, 0⟩ else shortestFrom v 309 700

end Binary

namespace Decimal

/-- the digits of an unsigned number text: those in front of the point and those behind it, and the
exponent -/
def ofText? (t : Text) : Option Decimal :=
  let whole := t.takeWhile Char.isDigit
  let t := t.drop whole.length
  let (part, t) := match t with
    | '.' :: t => (t.takeWhile Char.isDigit, t.dropWhile Char.isDigit)
    | _ => ([], t)
  let value (ds : Text) : Nat := ds.foldl (fun v d => v * 10 + (d.toNat - '0'.toNat)) 0
  let base := value (whole ++ part)
  if whole.isEmpty && part.isEmpty then none
  else match t with
    | [] => some ⟨base, -(part.length : Int)⟩
    | e :: t =>
      if e != 'e' && e != 'E' then none
      else
        let (negative, ds) := match t with
          | '-' :: t => (true, t)
          | '+' :: t => (false, t)
          | t => (false, t)
        if ds.isEmpty || !ds.all Char.isDigit then none
        else
          let size : Int := value ds
          some ⟨base, (if negative then -size else size) - part.length⟩

/-- a decimal in positional notation, with a point and at least one digit on either side of it -/
def positional (d : Decimal) : Text :=
  let ds := (toString d.digits).toList
  if 0 ≤ d.power then ds ++ List.replicate d.power.toNat '0' ++ ".0".toList
  else
    let places := (-d.power).toNat
    let ds := List.replicate (places + 1 - ds.length) '0' ++ ds
    ds.take (ds.length - places) ++ ['.'] ++ ds.drop (ds.length - places)

end Decimal
end ProtoDocs
