import MustacheHtml.Decimal.Reading

namespace MustacheHtml.Json

/-- The first bound that gathered digits do not reach. -/
def significandBound : Nat := Decimal.twoPow 64

/-- Gathers digits as long as they fit: the significand, and the digits left over. -/
def gather : Nat → List Char → Nat × List Char
  | significand, [] => (significand, [])
  | significand, c :: rest =>
      let larger := 10 * significand + Decimal.digitValue c
      if larger < significandBound then gather larger rest else (significand, c :: rest)

def powerOfTen (exponent : Nat) : Float :=
  Decimal.nearest false (Decimal.tenPow exponent) 1

/-- The largest power of ten that is a double. -/
def maxPower : Nat := 308

/-- Divides by a power of ten, in steps if the power is too large for a float. -/
def divideByPower (x : Float) (exponent : Nat) : Float :=
  if exponent ≤ maxPower then x / powerOfTen exponent
  else if x == 0 then x
  else divideByPower (x / powerOfTen maxPower) (exponent - maxPower)
termination_by exponent
decreasing_by
  simp only [maxPower] at *
  omega

/-- Multiplies by a power of ten; what is too large for a double is refused. -/
def scale? (x : Float) (exponent : Int) : Option Float :=
  if exponent < 0 then some (divideByPower x (-exponent).toNat)
  else if exponent ≤ maxPower then
    let scaled := x * powerOfTen exponent.toNat
    if scaled.isInf then none else some scaled
  else if x == 0 then some x
  else none

/-- A number as it is written, part by part. -/
structure NumberText where
  negative : Bool
  whole : List Char
  fraction : List Char
  exponent : Int

/-- The double that a number stands for. Digits before the point that do not fit raise the
exponent, digits after it are dropped. -/
def NumberText.value? (number : NumberText) : Option Float :=
  let (high, extra) := gather 0 number.whole
  let (significand, dropped) := gather high number.fraction
  let taken := number.fraction.length - dropped.length
  let exponent := number.exponent + (extra.length : Int) - taken
  (scale? (Decimal.nearest false significand 1) exponent).map fun x =>
    if number.negative then -x else x

/-- The exponent of a number, which may be missing, and what is behind it. -/
def readExponent? : List Char → Option (Int × List Char)
  | [] => some (0, [])
  | mark :: rest =>
      if mark == 'e' || mark == 'E' then
        let (negative, unsigned) := Decimal.readSign rest
        let (digits, after) := Text.cutWhile Char.isDigit unsigned
        if digits.isEmpty then none
        else
          let size : Int := Decimal.natOfDigits digits
          some (if negative then -size else size, after)
      else some (0, mark :: rest)

/-- Reads a fraction, if one is there; a point needs a digit after it. -/
def readFraction? : List Char → Option (List Char × List Char)
  | '.' :: rest =>
      let (digits, after) := Text.cutWhile Char.isDigit rest
      if digits.isEmpty then none else some (digits, after)
  | text => some ([], text)

/-- Reads a number. More than one digit before the point may not start with zero. -/
def readNumber? (text : List Char) : Option (Float × List Char) := do
  let (negative, unsigned) := match text with
    | '-' :: rest => (true, rest)
    | _ => (false, text)
  let (whole, afterWhole) := Text.cutWhile Char.isDigit unsigned
  if whole.isEmpty || (whole.head? == some '0' && whole.length ≠ 1) then none
  else
    let (fraction, afterFraction) ← readFraction? afterWhole
    let (exponent, after) ← readExponent? afterFraction
    let value ← NumberText.value? ⟨negative, whole, fraction, exponent⟩
    some (value, after)

end MustacheHtml.Json
