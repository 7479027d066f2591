import MustacheHtml.Markup.Tag

/-!
The elements whose content is text up to their own end tag. In scripts a comment may hold a whole
script element of its own, whose end tag does not end the outer one.
-/

namespace MustacheHtml.Markup

/-- How the content of an element is to be read. -/
inductive ContentModel where
  | markup
  /-- Text with character references. -/
  | escapableText
  | script
deriving DecidableEq, Repr

def ContentModel.ofTag (name : String) : ContentModel :=
  if name = "script" ∨ name = "style" then script
  else if name = "textarea" ∨ name = "title" then escapableText
  else markup

/-- The text begins with the end tag of that name. -/
def startsEndTag (name : List Char) : List Char → Bool
  | '<' :: '/' :: rest =>
      name.isPrefixOf ((rest.take name.length).map Char.toLower) &&
        (rest.drop name.length).head?.any endsTagName
  | _ => false

/-- The text up to the end tag of the element, and what begins with that end tag. -/
def cutEscapable (name : List Char) : List Char → List Char × List Char
  | [] => ([], [])
  | c :: rest =>
      if startsEndTag name (c :: rest) then ([], c :: rest)
      else
        let (text, after) := cutEscapable name rest
        (c :: text, after)

/-- Where in a script the scan stands: outside comments, in a comment, or in a script element
within a comment. The word gathered after a `<` or `</` decides whether such an element begins or
ends. -/
inductive ScriptState where
  | plain
  | plainLess
  | escapeStart
  | escapeStartDash
  | escaped (dashes : Nat)
  | escapedLess
  | doubleStart (word : List Char)
  | doubled (dashes : Nat)
  | doubledLess
  | doubleEnd (word : List Char)
deriving DecidableEq, Repr

namespace ScriptState

def nextPlain (c : Char) : ScriptState :=
  if c = '<' then plainLess else plain

/-- After at least two dashes a `>` ends the comment. -/
def nextEscaped (dashes : Nat) (c : Char) : ScriptState :=
  if c = '-' then escaped (dashes + 1)
  else if c = '<' then escapedLess
  else if c = '>' ∧ 2 ≤ dashes then plain
  else escaped 0

/-- The state behind a character of a script within a comment, where that many dashes stand before
it. -/
def nextDoubled (dashes : Nat) (c : Char) : ScriptState :=
  if c = '-' then doubled (dashes + 1)
  else if c = '<' then doubledLess
  else if c = '>' ∧ 2 ≤ dashes then plain
  else doubled 0

def isScriptWord (word : List Char) : Bool :=
  word == ['s', 'c', 'r', 'i', 'p', 't']

/-- The state behind a character. -/
def next : ScriptState → Char → ScriptState
  | plain, c => nextPlain c
  | plainLess, c => if c = '!' then escapeStart else nextPlain c
  | escapeStart, c => if c = '-' then escapeStartDash else nextPlain c
  | escapeStartDash, c => if c = '-' then escaped 2 else nextPlain c
  | escaped dashes, c => nextEscaped dashes c
  | escapedLess, c => if c.isAlpha then doubleStart [c.toLower] else nextEscaped 0 c
  | doubleStart word, c =>
      if endsTagName c then (if isScriptWord word then doubled 0 else escaped 0)
      else if c.isAlpha then doubleStart (word ++ [c.toLower])
      else nextEscaped 0 c
  | doubled dashes, c => nextDoubled dashes c
  | doubledLess, c => if c = '/' then doubleEnd [] else nextDoubled 0 c
  | doubleEnd word, c =>
      if endsTagName c then (if isScriptWord word then escaped 0 else doubled 0)
      else if c.isAlpha then doubleEnd (word ++ [c.toLower])
      else nextDoubled 0 c

/-- An end tag would end the script here. -/
def mayEnd (state : ScriptState) : Bool :=
  state.next '<' = plainLess || state.next '<' = escapedLess

end ScriptState

/-- The script up to its end tag, and what begins with that end tag. -/
def cutScript (name : List Char) : ScriptState → List Char → List Char × List Char
  | _, [] => ([], [])
  | state, c :: rest =>
      if state.mayEnd && startsEndTag name (c :: rest) then ([], c :: rest)
      else
        let (text, after) := cutScript name (state.next c) rest
        (c :: text, after)

theorem length_cutEscapable_le (name text : List Char) :
    (cutEscapable name text).2.length ≤ text.length := by
  induction text with
  | nil => simp [cutEscapable]
  | cons c rest ih =>
      simp only [cutEscapable]
      split
      · simp
      · simp only [List.length_cons]
        omega

theorem length_cutScript_le (name text : List Char) (state : ScriptState) :
    (cutScript name state text).2.length ≤ text.length := by
  induction text generalizing state with
  | nil => simp [cutScript]
  | cons c rest ih =>
      simp only [cutScript]
      split
      · simp
      · have shorter := ih (state.next c)
        simp only [List.length_cons]
        omega

/-- The text that an element begins with if its content is text, and what is left to be read as
markup. -/
def cutContent (name : String) (text : List Char) : List Char × List Char :=
  match ContentModel.ofTag name with
  | .markup => ([], text)
  | .escapableText =>
      let (content, after) := cutEscapable name.toList text
      (decodeReferences false (replaceNull content), after)
  | .script =>
      let (content, after) := cutScript name.toList .plain text
      (replaceNull content, after)

theorem length_cutContent_le (name : String) (text : List Char) :
    (cutContent name text).2.length ≤ text.length := by
  unfold cutContent
  split
  · simp
  · exact length_cutEscapable_le name.toList text
  · exact length_cutScript_le name.toList text .plain

end MustacheHtml.Markup
