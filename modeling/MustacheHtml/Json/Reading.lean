import MustacheHtml.Json
import MustacheHtml.Json.Number
import MustacheHtml.Reference

namespace MustacheHtml.Json

def isJsonSpace (c : Char) : Bool :=
  c == ' ' || c == '\n' || c == '\r' || c == '\t'

def skipSpace (text : List Char) : List Char :=
  text.dropWhile isJsonSpace

/-- Four hexadecimal digits and what is behind them. -/
def readHex? : List Char → Option (Nat × List Char)
  | a :: b :: c :: d :: rest =>
      if [a, b, c, d].all Text.isHexDigit then some (Reference.natOfHex [a, b, c, d], rest)
      else none
  | _ => none

/-- The second half of a character beyond the first plane. -/
def readLowSurrogate? : List Char → Option (Nat × List Char)
  | '\\' :: 'u' :: rest =>
      (readHex? rest).bind fun (unit, after) =>
        if 0xdc00 ≤ unit ∧ unit ≤ 0xdfff then some (unit - 0xdc00, after) else none
  | _ => none

/-- What follows the backslash and the `u`. Halves of a character count only as a pair. -/
def readUnicode? (text : List Char) : Option (Char × List Char) :=
  (readHex? text).bind fun (unit, after) =>
    if 0xd800 ≤ unit ∧ unit ≤ 0xdbff then
      (readLowSurrogate? after).map fun (low, last) =>
        (Char.ofNat (0x10000 + (unit - 0xd800) * 0x400 + low), last)
    else (Reference.scalar? unit).map fun c => (c, after)

/-- The character of an escape, and what is behind it. -/
def readEscape? : List Char → Option (Char × List Char)
  | '"' :: rest => some ('"', rest)
  | '\\' :: rest => some ('\\', rest)
  | '/' :: rest => some ('/', rest)
  | 'b' :: rest => some ('\x08', rest)
  | 'f' :: rest => some ('\x0c', rest)
  | 'n' :: rest => some ('\n', rest)
  | 'r' :: rest => some ('\r', rest)
  | 't' :: rest => some ('\t', rest)
  | 'u' :: rest => readUnicode? rest
  | _ => none

theorem length_readHex? {text after : List Char} {unit : Nat}
    (h : readHex? text = some (unit, after)) : after.length < text.length := by
  unfold readHex? at h
  split at h
  · split at h
    · simp only [Option.some.injEq, Prod.mk.injEq] at h
      rw [← h.2]
      simp only [List.length_cons]
      omega
    · simp at h
  · simp at h

theorem length_readLowSurrogate? {text after : List Char} {unit : Nat}
    (h : readLowSurrogate? text = some (unit, after)) : after.length < text.length := by
  unfold readLowSurrogate? at h
  split at h
  · simp only [Option.bind_eq_some_iff] at h
    obtain ⟨⟨unit', after'⟩, found, chosen⟩ := h
    have shorter := length_readHex? found
    simp only at chosen
    split at chosen
    · simp only [Option.some.injEq, Prod.mk.injEq] at chosen
      rw [← chosen.2]
      simp only [List.length_cons]
      omega
    · simp at chosen
  · simp at h

theorem length_readUnicode? {text after : List Char} {c : Char}
    (h : readUnicode? text = some (c, after)) : after.length < text.length := by
  simp only [readUnicode?, Option.bind_eq_some_iff] at h
  obtain ⟨⟨unit, middle⟩, found, chosen⟩ := h
  have shorter := length_readHex? found
  simp only at chosen
  split at chosen
  · obtain ⟨⟨low, last⟩, paired, same⟩ := Option.map_eq_some_iff.mp chosen
    have further := length_readLowSurrogate? paired
    simp only [Prod.mk.injEq] at same
    rw [← same.2]
    omega
  · obtain ⟨_, _, same⟩ := Option.map_eq_some_iff.mp chosen
    simp only [Prod.mk.injEq] at same
    rw [← same.2]
    omega

theorem length_readEscape? {text after : List Char} {c : Char}
    (h : readEscape? text = some (c, after)) : after.length < text.length := by
  unfold readEscape? at h
  split at h
  case h_9 =>
    have shorter := length_readUnicode? h
    simp only [List.length_cons]
    omega
  case h_10 => simp at h
  all_goals
    simp only [Option.some.injEq, Prod.mk.injEq] at h
    simp [← h.2]

/-- The rest of a string after its opening quote. -/
def readString? (text : List Char) : Option (List Char × List Char) :=
  match text with
  | [] => none
  | c :: rest =>
      if c = '"' then some ([], rest)
      else if c = '\\' then
        match _escaped : readEscape? rest with
        | some (decoded, after) =>
            (readString? after).map fun (chars, last) => (decoded :: chars, last)
        | none => none
      else if c.toNat < 0x20 then none
      else (readString? rest).map fun (chars, last) => (c :: chars, last)
termination_by text.length
decreasing_by
  · have := length_readEscape? _escaped
    simp only [List.length_cons]
    omega
  · simp

/-- Items with commas between them, up to the closing mark. `count` bounds how many there are. -/
def readItems? {α : Type} (readItem : List Char → Option (α × List Char)) (closing : Char) :
    Nat → List Char → Option (List α × List Char)
  | 0, _ => none
  | count + 1, text => do
      let (item, after) ← readItem text
      match skipSpace after with
      | c :: rest =>
          if c = ',' then
            let (items, last) ← readItems? readItem closing count rest
            some (item :: items, last)
          else if c = closing then some ([item], rest)
          else none
      | [] => none

/-- What follows an opening bracket or brace: nothing but the closing mark, or items. -/
def readSequence? {α : Type} (readItem : List Char → Option (α × List Char)) (closing : Char)
    (text : List Char) : Option (List α × List Char) :=
  match skipSpace text with
  | c :: rest =>
      if c = closing then some ([], rest) else readItems? readItem closing text.length text
  | [] => none

def readMember? (readValue : List Char → Option (Json × List Char)) (text : List Char) :
    Option ((String × Json) × List Char) :=
  match skipSpace text with
  | '"' :: rest => do
      let (key, afterKey) ← readString? rest
      match skipSpace afterKey with
      | ':' :: afterColon => do
          let (value, after) ← readValue afterColon
          some ((String.ofList key, value), after)
      | _ => none
  | _ => none

/-- A value in which arrays and objects nest at most so deep. -/
def readValue? : Nat → List Char → Option (Json × List Char)
  | depth, text =>
      match skipSpace text with
      | 'n' :: 'u' :: 'l' :: 'l' :: rest => some (null, rest)
      | 't' :: 'r' :: 'u' :: 'e' :: rest => some (bool true, rest)
      | 'f' :: 'a' :: 'l' :: 's' :: 'e' :: rest => some (bool false, rest)
      | '"' :: rest =>
          (readString? rest).map fun (chars, after) => (string (String.ofList chars), after)
      | '[' :: rest =>
          match depth with
          | 0 => none
          | inner + 1 =>
              (readSequence? (readValue? inner) ']' rest).map fun (items, after) =>
                (array items, after)
      | '{' :: rest =>
          match depth with
          | 0 => none
          | inner + 1 =>
              (readSequence? (readMember? (readValue? inner)) '}' rest).map fun (members, after) =>
                (object members, after)
      | other => (readNumber? other).map fun (value, after) => (number value, after)

/-- How deep arrays and objects may be nested. -/
def maxDepth : Nat := 127

/-- The value that a text is, up to blanks around it. -/
def read? (text : String) : Option Json :=
  (readValue? maxDepth text.toList).bind fun (value, after) =>
    if (skipSpace after).isEmpty then some value else none

end MustacheHtml.Json
