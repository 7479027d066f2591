import MustacheHtml.Proofs.Text.Bytes
import MustacheHtml.Template.Building

/-!
The scan of a template done byte by byte. A place is an offset in bytes, and it is looked at again
and again what the bytes there are. Everything that could go astray is checked: a slice has to lie
between characters of the source, a byte that is looked back at has to be of the body, a place may
not be behind the end of the source, and each round of a loop has to go on.
-/

namespace MustacheHtml.Template.Bytewise

open Text (byteLength bytes)

/-- Why a scan ends early: the source has a fault, or a step has gone astray. -/
inductive Halt where
  | fault (found : FaultAt)
  | badSlice (start stop : Nat)
  | badIndex (place : Nat)
  | pastEnd (place : Nat)
  | idle (place : Nat)
deriving DecidableEq, Repr

/-- Fails at a byte, with what a template can be wrong in. -/
def fail {α : Type} (offset : Nat) (fault : Fault) : Except Halt α :=
  .error (.fault ⟨offset, fault⟩)

variable (source : List Char)

section Steps

/-- The byte at a place, if there is one. -/
def byte? (place : Nat) : Option Char :=
  (bytes source)[place]?

/-- The bytes from a place on. -/
def ahead (place : Nat) : List Char :=
  (bytes source).drop place

/-- The text between two bytes, which halts where they are not between characters. -/
def slice (start stop : Nat) : Except Halt (List Char) :=
  match Text.between? source start stop with
  | some text => .ok text
  | none => .error (.badSlice start stop)

/-- The text from a byte on. -/
def restAt (place : Nat) : Except Halt (List Char) :=
  slice source place (byteLength source)

/-- Goes on to a byte, which must not be behind the end. -/
def goTo (place : Nat) : Except Halt Nat :=
  if place ≤ byteLength source then .ok place else .error (.pastEnd place)

/-- The bytes from the place on are a slice too, which may begin within a character. -/
def atMustache (place : Nat) : Except Halt Bool :=
  if place ≤ byteLength source then .ok (startsMustache (ahead source place))
  else .error (.badSlice place (byteLength source))

/-- Behind the bytes that pass the test. -/
def walk (test : Char → Bool) (place : Nat) : Nat :=
  place + ((ahead source place).takeWhile test).length

/-- The next byte that is no space. -/
def skipSpace (place : Nat) : Nat :=
  walk source Text.isSpace place

/-- The byte behind a mark, or the fault if there is none. -/
def skipPast (mark : List Char) (fault : Fault) (place : Nat) : Except Halt Nat := do
  match Text.cut? mark (← restAt source place) with
  | some (before, _) => goTo source (place + byteLength before + byteLength mark)
  | none => fail place fault

/-- A name, and the byte behind it. -/
def readName (place : Nat) : Except Halt (List Char × Nat) := do
  let stop ← goTo source (walk source isNameChar place)
  .ok (← slice source place stop, stop)

end Steps

section Mustaches

/-- The byte before a place in the body of a mustache. -/
def lookBehind (bodyStart place : Nat) : Except Halt Char :=
  match byte? source (place - 1) with
  | some c => if bodyStart < place then .ok c else .error (.badIndex (place - 1))
  | none => .error (.badIndex (place - 1))

/-- Whether a token may start at a place in the body of a mustache. -/
def atTokenStart (bodyStart place : Nat) : Except Halt Bool :=
  if place = bodyStart then .ok true
  else do
    let before ← lookBehind source bodyStart place
    .ok (Text.isSpace before || before == '=')

theorem lt_of_byte? {source : List Char} {place : Nat} {c : Char}
    (hbyte : byte? source place = some c) : place < byteLength source := by
  obtain ⟨hbound, -⟩ := List.getElem?_eq_some_iff.mp hbyte
  rwa [Text.length_bytes] at hbound

/-- Where the body of the mustache ends. A string is jumped over. -/
def bodyEnd (offset bodyStart place : Nat) : Except Halt Nat :=
  match _found : byte? source place with
  | none => fail offset .unterminatedMustache
  | some c =>
      if ['}', '}'].isPrefixOf (ahead source place) then .ok place
      else do
        if (← atTokenStart source bodyStart place) && Text.isQuote c then
          match Text.cut? [c] (← restAt source (place + 1)) with
          | some (content, _) => bodyEnd offset bodyStart (place + 1 + byteLength content + 1)
          | none => fail offset .unterminatedString
        else bodyEnd offset bodyStart (place + 1)
termination_by byteLength source - place
decreasing_by
  all_goals
    have hbound := lt_of_byte? _found
    omega

/-- Behind the third closing brace that a mustache with three opening ones may have. -/
def skipThird (triple : Bool) (closed : Nat) : Except Halt Nat :=
  if triple && byte? source closed == some '}' then goTo source (closed + 1) else .ok closed

/-- Scans the mustache that the text begins with, unless it is a comment. -/
def scanPlainMustache (text : List Char) (place : Nat) : Except Halt (RawMustache × Nat) := do
  let bodyStart := place + openingLength text
  let stop ← bodyEnd source place bodyStart bodyStart
  let next ← skipThird source (isTriple text) (← goTo source (stop + 2))
  let body ← slice source bodyStart stop
  .ok (⟨String.ofList (Text.trimBlank body), !isTriple text, place⟩, next)

/-- The mustache at a byte, or what is dropped there. -/
def scanMustache (place : Nat) : Except Halt (Option RawMustache × Nat) := do
  let text ← restAt source place
  if ['{', '{', '!', '-', '-'].isPrefixOf text then
    .ok (none, ← skipPast source ['-', '-', '}', '}'] .unterminatedComment place)
  else if ['{', '{', '!'].isPrefixOf text then
    .ok (none, ← skipPast source ['}', '}'] .unterminatedComment place)
  else
    let (mustache, next) ← scanPlainMustache source text place
    .ok (some mustache, next)

end Mustaches

section Tags

/-- A part of the literal text, unless there is none. -/
def literals (text : List Char) : List RawPart :=
  if text.isEmpty then [] else [literalPart text]

/-- Scans an attribute value whose literal text since the last mustache has begun at `textStart`. -/
def scanValue (stops : Char → Bool) (textStart place : Nat) : Except Halt (List RawPart × Nat) :=
  match _found : byte? source place with
  | none => do .ok (literals (← slice source textStart place), ← goTo source place)
  | some c =>
      if stops c then do .ok (literals (← slice source textStart place), ← goTo source place)
      else do
        if ← atMustache source place then
          let text ← slice source textStart place
          let (found, next) ← scanMustache source place
          if _advanced : place < next then
            let (parts, last) ← scanValue stops next next
            .ok (literals text ++ found.toList.map RawPart.mustache ++ parts, last)
          else .error (.idle place)
        else scanValue stops textStart (place + 1)
termination_by byteLength source - place
decreasing_by
  all_goals
    have hbound := lt_of_byte? _found
    omega

/-- Scans what follows the equals sign of an attribute. -/
def scanAssigned (offset : Nat) (name : String) (place : Nat) : Except Halt (List RawPart × Nat) :=
  match byte? source place with
  | none => fail offset (.missingValue name)
  | some c =>
      if Text.isQuote c then do
        let start ← goTo source (place + 1)
        let (parts, stop) ← scanValue source (· == c) start start
        if byte? source stop = some c then .ok (parts, ← goTo source (stop + 1))
        else fail offset (.unterminatedValue name)
      else if Text.isSpace c || c == '>' then fail offset (.missingValue name)
      else scanValue source (fun c => Text.isSpace c || c == '>') place place

/-- The attribute at a byte. -/
def scanAttribute (place : Nat) : Except Halt (RawAttribute × Nat) := do
  let stop ← goTo source (walk source isAttributeNameChar place)
  let name ← slice source place stop
  if name.isEmpty then fail place .malformedAttribute
  else
    let named ← goTo source (skipSpace source stop)
    if byte? source named = some '=' then
      let start ← goTo source (named + 1)
      let start ← goTo source (skipSpace source start)
      let (parts, last) ← scanAssigned source place (String.ofList name) start
      .ok (⟨String.ofList name, parts, place⟩, last)
    else .ok (⟨String.ofList name, [], place⟩, named)

/-- Scans the attributes of the tag that began at the offset, and the end of the tag. Each round
has to go on. -/
def scanAttributes (tag : String) (offset place : Nat) : Except Halt (TagEnd × Nat) :=
  match _found : byte? source (skipSpace source place) with
  | none => fail offset (.unterminatedTag tag)
  | some c =>
      let start := skipSpace source place
      if c = '>' then do .ok (⟨[], false⟩, ← goTo source (start + 1))
      else if c = '/' ∧ byte? source (start + 1) = some '>' then do
        .ok (⟨[], true⟩, ← goTo source (start + 2))
      else do
        if ← atMustache source start then fail start (.mustacheInTag tag)
        else
          let (first, next) ← scanAttribute source start
          let next ← goTo source next
          if _advanced : place < next then
            let (others, last) ← scanAttributes tag offset next
            .ok (⟨first :: others.attributes, others.selfClosing⟩, last)
          else .error (.idle place)
termination_by byteLength source - place
decreasing_by
  have hbound := lt_of_byte? _found
  have hplace : place ≤ skipSpace source place := Nat.le_add_right _ _
  omega

/-- The start tag at a byte. -/
def scanStartTag (place : Nat) : Except Halt (Token × Nat) := do
  let (name, behind) ← readName source (← goTo source (place + 1))
  let (tagEnd, last) ← scanAttributes source (String.ofList name) place behind
  .ok (.startTag (String.ofList name) tagEnd.attributes tagEnd.selfClosing place, last)

/-- The end tag at a byte. -/
def scanEndTag (place : Nat) : Except Halt (Token × Nat) := do
  let (name, behind) ← readName source (← goTo source (place + 2))
  if name.isEmpty then fail place .malformedClosingTag
  else
    let stop ← goTo source (skipSpace source behind)
    if byte? source stop = some '>' then
      .ok (.endTag (String.ofList name) place, ← goTo source (stop + 1))
    else fail place (.unterminatedClosingTag (String.ofList name))

end Tags

section Texts

/-- The first place from here on that falls between characters. -/
def settle (place : Nat) : Except Halt Nat :=
  if (Text.between? source 0 place).isSome then .ok place
  else if place < byteLength source then settle (place + 1)
  else .error (.pastEnd place)
termination_by byteLength source - place

/-- Scans text, whose first byte is no markup. -/
def scanText (place : Nat) : Except Halt (Token × Nat) := do
  let start := place + 1
  let stop ← settle source (start + (takeUntil startsMarkup (ahead source start)).length)
  let taken ← slice source place stop
  .ok (.text (String.ofList (Reference.decode taken)) place, stop)

/-- Whether a start tag begins at the place. -/
def atStartTag (place : Nat) : Bool :=
  byte? source place == some '<' && (byte? source (place + 1)).any Char.isAlpha

/-- Scans what begins at the place. -/
def scanOne (place : Nat) : Except Halt (Option Token × Nat) := do
  if ← atMustache source place then
    let (found, next) ← scanMustache source place
    .ok (found.map Token.mustache, next)
  else
    let behind ← restAt source place
    if ['<', '!', '-', '-'].isPrefixOf behind then
      .ok (none, ← skipPast source ['-', '-', '>'] .unterminatedComment place)
    else if ['<', '!'].isPrefixOf behind then
      .ok (none, ← skipPast source ['>'] .unterminatedDeclaration place)
    else if ['<', '/'].isPrefixOf behind then
      let (tag, next) ← scanEndTag source place
      .ok (some tag, next)
    else if atStartTag source place then
      let (tag, next) ← scanStartTag source place
      .ok (some tag, next)
    else
      let (token, next) ← scanText source place
      .ok (some token, next)

/-- Scans from the place to the end of the source. Each round has to go on. -/
def tokensFrom (place : Nat) : Except Halt (List Token) :=
  if _left : place < byteLength source then do
    let (token?, next) ← scanOne source place
    let next ← goTo source next
    if _advanced : place < next then
      let others ← tokensFrom next
      .ok (token?.toList ++ others)
    else .error (.idle place)
  else .ok []
termination_by byteLength source - place

/-- The tokens of the source, scanned byte by byte. -/
def tokens : Except Halt (List Token) :=
  tokensFrom source 0

end Texts

end MustacheHtml.Template.Bytewise
