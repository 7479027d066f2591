import MustacheHtml.Decimal.Binary

/-!
The shortest decimal that reads back as a given double. A decimal grid is tried for each number of
digits in turn; the first one that has a point among the reals that round to the double gives the
digits.
-/

namespace MustacheHtml.Decimal

/-- Which of two equally near points of a grid is taken. -/
inductive Tie where
  | up
  | even
deriving DecidableEq, Repr

/-- A positive double as a fraction, between the ends of the reals that round to it. -/
structure Interval where
  value : Nat
  low : Nat
  high : Nat
  den : Nat
  closed : Bool

namespace Interval

/-- The reals that round to `significand * 2 ^ exponent`. Below a power of two the doubles lie
twice as dense. -/
def ofBinary (significand : Nat) (exponent : Int) : Interval :=
  let narrow := significand = twoPow 52 && exponent ≠ -1074
  let scale := if 2 ≤ exponent then twoPow (exponent - 2).toNat else 1
  let den := if 2 ≤ exponent then 1 else twoPow (2 - exponent).toNat
  { value := 4 * significand * scale
    low := (4 * significand - (if narrow then 1 else 2)) * scale
    high := (4 * significand + 2) * scale
    den := den
    closed := significand % 2 = 0 }

/-- The same interval in other units. -/
def rescale (interval : Interval) (exponent : Int) : Interval :=
  let scale := if 0 ≤ exponent then 1 else tenPow (-exponent).toNat
  { interval with
    value := interval.value * scale
    low := interval.low * scale
    high := interval.high * scale
    den := if 0 ≤ exponent then interval.den * tenPow exponent.toNat else interval.den }

/-- The greatest whole point that is not above the value. -/
def floor (interval : Interval) : Nat :=
  interval.value / interval.den

/-- A whole point is in the interval. -/
def contains (interval : Interval) (point : Nat) : Bool :=
  let scaled := point * interval.den
  if interval.closed then interval.low ≤ scaled && scaled ≤ interval.high
  else interval.low < scaled && scaled < interval.high

/-- The whole number in the interval that is nearest to the value. -/
def nearestPoint? (tie : Tie) (interval : Interval) : Option Nat :=
  let below := interval.floor
  let twice := 2 * (interval.value % interval.den)
  let upper : Bool :=
    if twice = interval.den then
      match tie with
      | .up => true
      | .even => below % 2 = 1
    else interval.den < twice
  match interval.contains below, interval.contains (below + 1) with
  | true, true => some (if upper then below + 1 else below)
  | true, false => some below
  | false, true => some (below + 1)
  | false, false => none

end Interval

def digitCount (n : Nat) : Nat :=
  (Nat.toDigits 10 n).length

/-- The largest `k` with `10 ^ k ≤ num / den`, for positive `num` and `den`. -/
def floorLog10 (num den : Nat) : Int :=
  if den ≤ num then (digitCount (num / den) : Int) - 1
  else -(digitCount ((den + num - 1) / num - 1) : Int)

/-- The digits, without zeros at the end, and the decimal exponent of the first one. -/
structure Digits where
  digits : List Char
  exponent : Int
deriving DecidableEq, Repr

namespace Digits

/-- The digits of a point, without zeros at the end. -/
def ofPoint (point : Nat) (unit : Int) : Digits :=
  let written := Nat.toDigits 10 point
  { digits := (written.reverse.dropWhile (· == '0')).reverse
    exponent := unit + written.length - 1 }

/-- The first grid, from the given unit on downwards, that has a point in the interval. -/
def search (tie : Tie) (interval : Interval) : Nat → Int → Digits
  | 0, unit => ofPoint (interval.rescale unit).floor unit
  | more + 1, unit =>
      match (interval.rescale unit).nearestPoint? tie with
      | some point => ofPoint point unit
      | none => search tie interval more (unit - 1)

/-- The fewest digits that read back as `significand * 2 ^ exponent`; seventeen always do. -/
def shortest (tie : Tie) (significand : Nat) (exponent : Int) : Digits :=
  let interval := Interval.ofBinary significand exponent
  search tie interval 17 (floorLog10 interval.value interval.den)

end Digits

end MustacheHtml.Decimal
