import Depthwise.Binary.Format
import Depthwise.Binary.Round

namespace Depthwise.Decimal

open Binary (Format)

variable {F : Format}

/-- The reals that round to a value: an interval, with its ends when `closed`. -/
structure Interval where
  low : Rat
  high : Rat
  closed : Bool

def Interval.contains (i : Interval) (x : Rat) : Bool :=
  if i.closed then i.low ≤ x && x ≤ i.high else i.low < x && x < i.high

/-- What rounds to the magnitude `m * 2 ^ e`. Below a power of two the grid is twice as fine. -/
def roundingInterval (F : Format) (m : Nat) (e : Int) : Interval :=
  let unit := (2 : Rat) ^ e
  let gap := if m = F.fractions ∧ F.minExponent < e then unit / 4 else unit / 2
  ⟨m * unit - gap, m * unit + unit / 2, m % 2 == 0⟩

def digitCount (n : Nat) : Nat := (Nat.toDigits 10 n).length

def leadingDecade (x : Rat) : Int :=
  if 1 ≤ x then (digitCount x.floor.toNat : Int) - 1
  else
    let inverse := 1 / x
    let decade : Int := (digitCount inverse.floor.toNat : Int) - 1
    if (10 : Rat) ^ decade = inverse then -decade else -(decade + 1)

/-- The multiple of `10 ^ place` nearest to `x` among the two around it that lie in `i`; a tie goes
to the even one. -/
def nearestIn? (i : Interval) (x : Rat) (place : Int) : Option Nat :=
  let unit := (10 : Rat) ^ place
  let below := (x / unit).floor.toNat
  let rest := x - below * unit
  let above := unit - rest
  match i.contains (below * unit), i.contains ((below + 1 : Nat) * unit) with
  | false, false => none
  | true, false => some below
  | false, true => some (below + 1)
  | true, true =>
    some (if rest < above then below
      else if above < rest then below + 1
      else if below % 2 = 0 then below else below + 1)

/-- Digits after the point, and the place of the point: `0.d₁d₂… * 10 ^ point`. -/
structure Digits where
  digits : List Char
  point : Int

/-- The fewest digits that determine the magnitude `m * 2 ^ e`, at most `limit` of them. -/
def shortestDigits (F : Format) (limit m : Nat) (e : Int) : Digits :=
  let x := m * (2 : Rat) ^ e
  let i := roundingInterval F m e
  let decade := leadingDecade x
  let found := (List.range limit).findSome? fun (count : Nat) ↦
    (nearestIn? i x (decade - count)).map fun n ↦ (n, decade - count)
  let (n, place) := found.getD (0, 0)
  let digits := Nat.toDigits 10 n
  ⟨(digits.reverse.dropWhile (· == '0')).reverse, digits.length + place⟩

/-- How a decimal is laid out: positional notation from the power of ten `positionalFrom` up to but
not including `positionalBelow`, and the words for the special values. -/
structure Style where
  positionalFrom : Int
  positionalBelow : Int
  exponentWidth : Nat
  infinity : String
  notANumber : String

/-- Positional between `10 ^ -4` and `10 ^ 16`, two exponent digits. -/
def Style.plain : Style := ⟨-4, 16, 2, "inf", "nan"⟩

def padLeft (width : Nat) (s : List Char) : List Char := List.replicate (width - s.length) '0' ++ s

def Style.positional (d : Digits) : List Char :=
  if d.point ≤ 0 then '0' :: '.' :: (List.replicate (-d.point).toNat '0' ++ d.digits)
  else
    let whole := d.point.toNat
    let rest := d.digits.drop whole
    d.digits.take whole ++ List.replicate (whole - d.digits.length) '0' ++
      '.' :: (if rest = [] then ['0'] else rest)

def Style.scientific (s : Style) (d : Digits) : List Char :=
  let exponent := d.point - 1
  let rest := d.digits.drop 1
  d.digits.take 1 ++ (if rest = [] then [] else '.' :: rest) ++
    'e' :: (if exponent < 0 then '-' else '+') ::
      padLeft s.exponentWidth (Nat.toDigits 10 exponent.natAbs)

def Style.magnitude (s : Style) (d : Digits) : List Char :=
  if s.positionalFrom ≤ d.point - 1 ∧ d.point - 1 < s.positionalBelow then Style.positional d
  else s.scientific d

def sufficientDigits (F : Format) : Nat := F.precision * 30103 / 100000 + 2

def Style.render (s : Style) : Binary F → String
  | .nan => s.notANumber
  | .infinite negative => if negative then "-" ++ s.infinity else s.infinity
  | .finite negative m e _ =>
    let text :=
      if m = 0 then ['0', '.', '0']
      else s.magnitude (shortestDigits F (sufficientDigits F) m e)
    String.ofList (if negative then '-' :: text else text)

end Depthwise.Decimal
