import MustacheHtml.Decimal.Shortest

namespace MustacheHtml.Decimal

/-- How floats are written. -/
structure Layout where
  tie : Tie
  /-- Which decimal exponents of the first digit are written without an exponent. -/
  isPositional : Int → Bool
  /-- What follows a whole number. -/
  wholeMark : String
  /-- Whether a zero keeps its sign. -/
  signedZero : Bool
  nan : String
  infinity : Bool → String

/-- Numbers as they are written in a template: never with an exponent, and zero without a sign. -/
def Layout.template : Layout where
  tie := .up
  isPositional := fun _ => true
  wholeMark := ""
  signedZero := false
  nan := "NaN"
  infinity := fun negative => if negative then "-inf" else "inf"

/-- Numbers written out in full, with the sign of a zero. -/
def Layout.plain : Layout :=
  { Layout.template with signedZero := true }

/-- Numbers of JSON: a fraction always, an exponent only for the very small and the very large.
What is not finite has no number there. -/
def Layout.json : Layout where
  tie := .even
  isPositional := fun exponent => decide (-5 ≤ exponent) && decide (exponent ≤ 15)
  wholeMark := ".0"
  signedZero := true
  nan := "null"
  infinity := fun _ => "null"

namespace Digits

/-- The digits around the decimal point, without an exponent. -/
def positional (wholeMark : String) (number : Digits) : String :=
  let count := number.digits.length
  if number.exponent < 0 then
    "0." ++ String.ofList (List.replicate (-number.exponent - 1).toNat '0' ++ number.digits)
  else
    let whole := number.exponent.toNat + 1
    if count ≤ whole then
      String.ofList (number.digits ++ List.replicate (whole - count) '0') ++ wholeMark
    else
      String.ofList (number.digits.take whole) ++ "." ++ String.ofList (number.digits.drop whole)

/-- The first digit, the others as a fraction, and the exponent with its sign. -/
def scientific (number : Digits) : String :=
  let sign := if number.exponent < 0 then "-" else "+"
  let fraction := match number.digits.drop 1 with
    | [] => ""
    | others => "." ++ String.ofList others
  String.ofList (number.digits.take 1) ++ fraction ++ "e" ++ sign ++ toString number.exponent.natAbs

end Digits

/-- A float in its layout. -/
def Layout.text (layout : Layout) (x : Float) : String :=
  match Binary.ofFloat x with
  | .nan => layout.nan
  | .infinite negative => layout.infinity negative
  | .finite negative 0 _ =>
      (if negative && layout.signedZero then "-0" else "0") ++ layout.wholeMark
  | .finite negative significand exponent =>
      let number := Digits.shortest layout.tie significand exponent
      (if negative then "-" else "") ++
        if layout.isPositional number.exponent then number.positional layout.wholeMark
        else number.scientific

end MustacheHtml.Decimal
