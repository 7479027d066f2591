import MustacheHtml.Dict
import MustacheHtml.Markup.Reference

namespace MustacheHtml.Markup

/-- The text with its null characters replaced. -/
def replaceNull (text : List Char) : List Char :=
  text.map fun c => if c = '\x00' then replacementChar else c

/-- A name as it counts: in lower case, and without null characters. -/
def foldName (name : List Char) : String :=
  String.ofList ((replaceNull name).map Char.toLower)

/-- An attribute value as it counts: with its references replaced. -/
def decodeValue (value : List Char) : String :=
  String.ofList (decodeReferences true (replaceNull value))

def endsTagName (c : Char) : Bool :=
  Text.isSpace c || c == '/' || c == '>'

def endsAttributeName (c : Char) : Bool :=
  endsTagName c || c == '='

/-- A scanned tag; only those of start tags matter beyond the name. -/
structure Tag where
  attributes : Dict String
  selfClosing : Bool

/-- Adds an attribute before the others of the tag, so that it counts rather than a later one of
its name. -/
def Tag.addFirst (tag : Tag) (name : String) (value : String) : Tag :=
  { tag with attributes := tag.attributes.set name value }

def skipSpace (text : List Char) : List Char :=
  text.dropWhile Text.isSpace

/-- The value after an equals sign, and the text after it. None if the input ends first. -/
def scanValue? (text : List Char) : Option (List Char × List Char) :=
  match skipSpace text with
  | [] => none
  | c :: rest =>
      if c = '"' ∨ c = '\'' then
        match Text.cutWhile (· != c) rest with
        | (_, []) => none
        | (value, _ :: after) => some (value, after)
      else if c = '>' then some ([], c :: rest)
      else some (Text.cutWhile (fun c => !(Text.isSpace c || c == '>')) (c :: rest))

/-- An attribute that begins here: its name, its value, and the text after it. The first character
always belongs to the name. -/
def scanAttribute? (first : Char) (rest : List Char) : Option ((String × String) × List Char) :=
  let (others, named) := Text.cutWhile (fun c => !endsAttributeName c) rest
  let name := foldName (first :: others)
  match skipSpace named with
  | '=' :: assigned =>
      (scanValue? assigned).map fun (value, after) => ((name, decodeValue value), after)
  | after => some ((name, ""), after)

theorem length_skipSpace_le (text : List Char) : (skipSpace text).length ≤ text.length :=
  (List.dropWhile_suffix Text.isSpace).length_le

theorem length_scanValue? {text value after : List Char}
    (h : scanValue? text = some (value, after)) : after.length ≤ text.length := by
  have spaces := length_skipSpace_le text
  unfold scanValue? at h
  split at h
  · simp at h
  · next c rest atText =>
      simp only [atText, List.length_cons] at spaces
      split at h
      · have cut := Text.length_cutWhile_le (· != c) rest
        split at h
        · simp at h
        · next _ _ _ atEnd =>
            simp only [Option.some.injEq, Prod.mk.injEq] at h
            simp only [atEnd, List.length_cons, h.2] at cut
            omega
      · split at h
        · simp only [Option.some.injEq, Prod.mk.injEq] at h
          rw [← h.2]
          simp only [List.length_cons]
          omega
        · have cut := Text.length_cutWhile_le (fun c => !(Text.isSpace c || c == '>')) (c :: rest)
          simp only [Option.some.injEq] at h
          simp only [h, List.length_cons] at cut
          omega

theorem length_scanAttribute? {first : Char} {rest after : List Char} {found : String × String}
    (h : scanAttribute? first rest = some (found, after)) : after.length ≤ rest.length := by
  have cut := Text.length_cutWhile_le (fun c => !endsAttributeName c) rest
  have spaces := length_skipSpace_le (Text.cutWhile (fun c => !endsAttributeName c) rest).2
  simp only [scanAttribute?] at h
  split at h
  · next assigned atText =>
      simp only [atText, List.length_cons] at spaces
      obtain ⟨⟨value, last⟩, scanned, same⟩ := Option.map_eq_some_iff.mp h
      have valued := length_scanValue? scanned
      simp only [Prod.mk.injEq] at same
      rw [← same.2]
      omega
  · simp only [Option.some.injEq, Prod.mk.injEq] at h
    rw [← h.2]
    omega

/-- The attributes of a tag up to its end, and the text after the tag. None if the input ends
first. -/
def scanTag? (text : List Char) : Option (Tag × List Char) :=
  match _atText : skipSpace text with
  | [] => none
  | '>' :: rest => some (⟨[], false⟩, rest)
  | '/' :: '>' :: rest => some (⟨[], true⟩, rest)
  | '/' :: rest => scanTag? rest
  | c :: rest =>
      match _scanned : scanAttribute? c rest with
      | none => none
      | some ((name, value), after) =>
          (scanTag? after).map fun (tag, last) => (tag.addFirst name value, last)
termination_by text.length
decreasing_by
  · have spaces := length_skipSpace_le text
    simp only [_atText, List.length_cons] at spaces
    omega
  · have spaces := length_skipSpace_le text
    have shorter := length_scanAttribute? _scanned
    simp only [_atText, List.length_cons] at spaces
    omega

end MustacheHtml.Markup
