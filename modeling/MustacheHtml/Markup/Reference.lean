import MustacheHtml.Decimal.Reading
import MustacheHtml.Markup.ReferenceNames

namespace MustacheHtml.Markup

/-- What stands in for a character that cannot be. -/
def replacementChar : Char := '\ufffd'

/-- How far the text agrees with the reference, its semicolon included. -/
def NamedReference.match? (reference : NamedReference) (text : List Char) : Option Nat :=
  let length := reference.name.length
  if reference.name.isPrefixOf text then
    if (text.drop length).head? = some ';' then some (length + 1)
    else if reference.bare then some length
    else none
  else none

/-- The longest named reference that the text begins with, and its length. -/
def longestReference? (text : List Char) : Option (NamedReference × Nat) :=
  namedReferences.foldl (fun best reference =>
    match reference.match? text with
    | none => best
    | some length => if best.any (length ≤ ·.2) then best else some (reference, length)) none

/-- The code points from 0x80 to 0x9f stand for the characters that Windows has there. -/
def windowsChars : List Nat :=
  [0x20ac, 0x81, 0x201a, 0x192, 0x201e, 0x2026, 0x2020, 0x2021, 0x2c6, 0x2030, 0x160, 0x2039,
    0x152, 0x8d, 0x17d, 0x8f, 0x90, 0x2018, 0x2019, 0x201c, 0x201d, 0x2022, 0x2013, 0x2014, 0x2dc,
    0x2122, 0x161, 0x203a, 0x153, 0x9d, 0x17e, 0x178]

/-- The character of a numeric reference, which is not always the one of that code. -/
def charOfCode (code : Nat) : Char :=
  if code = 0 then replacementChar
  else if 0x80 ≤ code ∧ code ≤ 0x9f then Char.ofNat (windowsChars.getD (code - 0x80) code)
  else (Reference.scalar? code).getD replacementChar

/-- A numeric reference after the number sign: its character and its length. -/
def numericReference? (text : List Char) : Option (Char × Nat) :=
  let isHex := text.head? == some 'x' || text.head? == some 'X'
  let mark := if isHex then 1 else 0
  let digits := (text.drop mark).takeWhile (if isHex then Text.isHexDigit else Char.isDigit)
  let code := if isHex then Reference.natOfHex digits else Decimal.natOfDigits digits
  let length := mark + digits.length
  if digits.isEmpty then none
  else some (charOfCode code, if (text.drop length).head? = some ';' then length + 1 else length)

/-- Whether a name without semicolon stays text, because in an attribute value it goes on like a
parameter of a query. -/
def staysText (inAttribute : Bool) (text : List Char) (length : Nat) : Bool :=
  inAttribute && (text.take length).getLast? != some ';' &&
    (text.drop length).head?.any fun c => c == '=' || c.isAlphanum

/-- What follows an ampersand: the characters referred to, and the length of the reference. -/
def readReference? (inAttribute : Bool) : List Char → Option (List Char × Nat)
  | '#' :: rest => (numericReference? rest).map fun (c, length) => ([c], length + 1)
  | text =>
      (longestReference? text).bind fun (reference, length) =>
        if staysText inAttribute text length then none else some (reference.chars, length)

/-- The text with its references replaced, once, from left to right. -/
def decodeReferences (inAttribute : Bool) : List Char → List Char
  | [] => []
  | c :: rest =>
      if c = '&' then
        match readReference? inAttribute rest with
        | some (chars, length) => chars ++ decodeReferences inAttribute (rest.drop length)
        | none => c :: decodeReferences inAttribute rest
      else c :: decodeReferences inAttribute rest
termination_by text => text.length
decreasing_by
  · simp only [List.length_drop, List.length_cons]
    omega
  · simp
  · simp

end MustacheHtml.Markup
