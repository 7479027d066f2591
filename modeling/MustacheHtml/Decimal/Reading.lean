import MustacheHtml.Decimal.Binary
import MustacheHtml.Text.Search

namespace MustacheHtml.Decimal

/-- There are digits, and nothing else. -/
def isDigits (text : List Char) : Bool :=
  !text.isEmpty && text.all Char.isDigit

def digitValue (c : Char) : Nat :=
  c.toNat - '0'.toNat

/-- The number that digits are written for. -/
def natOfDigits (digits : List Char) : Nat :=
  digits.foldl (fun n c => 10 * n + digitValue c) 0

/-- The text behind a plus sign, if it begins with one. -/
def dropPlus : List Char → List Char
  | '+' :: rest => rest
  | text => text

/-- The natural number that a text is written for. It may have a plus sign. -/
def natural? (text : List Char) : Option Nat :=
  if isDigits (dropPlus text) then some (natOfDigits (dropPlus text)) else none

/-- The number `digits * 10 ^ exponent`. An exponent far outside the range of doubles decides
alone. -/
def nearestScaled (negative : Bool) (digits : Nat) (exponent : Int) : Float :=
  let magnitude := (Nat.toDigits 10 digits).length + exponent
  if digits = 0 || magnitude < -400 then nearest negative 0 1
  else if 400 < magnitude then nearest negative (tenPow 400) 1
  else if 0 ≤ exponent then nearest negative (digits * tenPow exponent.toNat) 1
  else nearest negative digits (tenPow (-exponent).toNat)

/-- The float that is nearest to the digits before and behind the point. -/
def ofDigits (negative : Bool) (whole fraction : List Char) : Float :=
  nearestScaled negative (natOfDigits (whole ++ fraction)) (-fraction.length)

/-- Whether there is a minus sign, and what is behind the sign. -/
def readSign : List Char → Bool × List Char
  | '-' :: rest => (true, rest)
  | '+' :: rest => (false, rest)
  | rest => (false, rest)

/-- The exponent part of a number, which has to be all of the text. -/
def readExponent? : List Char → Option Int
  | [] => some 0
  | mark :: rest =>
      let (negative, digits) := readSign rest
      if (mark == 'e' || mark == 'E') && isDigits digits then
        some (if negative then -(natOfDigits digits : Int) else natOfDigits digits)
      else none

/-- The number that the whole text stands for: digits with or without a point and an exponent, or
one of the words `nan`, `inf` and `infinity` in any case, each with or without a sign. -/
def read? (text : String) : Option Float :=
  let (negative, body) := readSign text.toList
  let word := String.ofList (body.map Char.toLower)
  if word = "nan" then some (Float.ofBits 0x7ff8000000000000)
  else if word = "inf" || word = "infinity" then some (nearest negative (tenPow 400) 1)
  else
    let (whole, afterWhole) := Text.cutWhile Char.isDigit body
    let (fraction, afterFraction) :=
      match afterWhole with
      | '.' :: rest => Text.cutWhile Char.isDigit rest
      | _ => ([], afterWhole)
    if whole.isEmpty && fraction.isEmpty then none
    else (readExponent? afterFraction).map fun exponent =>
      nearestScaled negative (natOfDigits (whole ++ fraction)) (exponent - fraction.length)

end MustacheHtml.Decimal
