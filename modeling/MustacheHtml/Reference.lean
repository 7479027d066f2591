import MustacheHtml.Decimal.Reading

namespace MustacheHtml.Reference

/-- The most bytes that may stand between the ampersand and the semicolon. -/
def maxBodyBytes : Nat := 9

/-- The text up to the next semicolon, which has to come within the bytes given, and the text
after it. -/
def body? : Nat → List Char → Option (List Char × List Char)
  | _, [] => none
  | bytes, c :: rest =>
      if c = ';' then some ([], rest)
      else if c.utf8Size ≤ bytes then
        (body? (bytes - c.utf8Size) rest).map fun (body, after) => (c :: body, after)
      else none

def hexValue (c : Char) : Nat :=
  if c.isDigit then c.toNat - '0'.toNat else c.toLower.toNat - 'a'.toNat + 10

/-- The number that hexadecimal digits are written for. -/
def natOfHex (digits : List Char) : Nat :=
  digits.foldl (fun n c => 16 * n + hexValue c) 0

/-- The number that a text of hexadecimal digits stands for; a plus sign may come first. -/
def hexadecimal? (text : List Char) : Option Nat :=
  let digits := Decimal.dropPlus text
  if !digits.isEmpty && digits.all Text.isHexDigit then some (natOfHex digits) else none

/-- The code point that the text after the number sign names. -/
def codePoint? : List Char → Option Nat
  | 'x' :: rest => hexadecimal? rest
  | 'X' :: rest => hexadecimal? rest
  | text => Decimal.natural? text

/-- The character with a code, if there is one. -/
def scalar? (code : Nat) : Option Char :=
  if code.isValidChar then some (Char.ofNat code) else none

/-- The character that the inside of a reference names. -/
def char? : List Char → Option Char
  | '#' :: number => (codePoint? number).bind scalar?
  | ['a', 'm', 'p'] => some '&'
  | ['l', 't'] => some '<'
  | ['g', 't'] => some '>'
  | ['q', 'u', 'o', 't'] => some '"'
  | ['a', 'p', 'o', 's'] => some '\''
  | ['n', 'b', 's', 'p'] => some '\xa0'
  | _ => none

/-- Reads what follows an ampersand: the character referred to, and the text after the reference.
-/
def read? (text : List Char) : Option (Char × List Char) :=
  (body? maxBodyBytes text).bind fun (body, after) => (char? body).map fun c => (c, after)

theorem length_body? {bytes : Nat} {text body after : List Char}
    (h : body? bytes text = some (body, after)) : after.length < text.length := by
  induction text generalizing bytes body after with
  | nil => simp [body?] at h
  | cons c rest ih =>
      simp only [body?] at h
      split at h
      · simp only [Option.some.injEq, Prod.mk.injEq] at h
        simp [← h.2]
      · split at h
        · obtain ⟨⟨body', after'⟩, found, same⟩ := Option.map_eq_some_iff.mp h
          simp only [Prod.mk.injEq] at same
          have shorter := ih found
          rw [← same.2]
          simp only [List.length_cons]
          omega
        · simp at h

theorem length_read? {text after : List Char} {c : Char} (h : read? text = some (c, after)) :
    after.length < text.length := by
  simp only [read?, Option.bind_eq_some_iff, Option.map_eq_some_iff] at h
  obtain ⟨⟨body, rest⟩, found, _, _, same⟩ := h
  simp only [Prod.mk.injEq] at same
  rw [← same.2]
  exact length_body? found

/-- The text with every well-formed reference replaced by its character, once, from left to right.
-/
def decode : List Char → List Char
  | [] => []
  | c :: rest =>
      if c = '&' then
        match _found : read? rest with
        | some (decoded, after) => decoded :: decode after
        | none => c :: decode rest
      else c :: decode rest
termination_by text => text.length
decreasing_by
  · have := length_read? _found
    simp only [List.length_cons]
    omega
  · simp
  · simp

end MustacheHtml.Reference
