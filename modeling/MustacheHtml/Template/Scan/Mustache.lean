import MustacheHtml.Text.Search
import MustacheHtml.Template.Cursor
import MustacheHtml.Template.Token

/-!
Scanning a mustache: where its body ends, and which mustaches are comments.
-/

namespace MustacheHtml.Template

/-- A mustache begins here. -/
def startsMustache : List Char → Bool
  | '{' :: '{' :: _ => true
  | _ => false

/-- The place after the first occurrence of the mark. -/
def skipPast (mark : List Char) (fault : Fault) (cursor : Cursor) : Except FaultAt Cursor :=
  match Text.cut? mark cursor.rest with
  | some (before, _) => .ok (cursor.advance (before.length + mark.length))
  | none => cursor.fail fault

theorem length_skipPast {mark : List Char} {fault : Fault} {cursor next : Cursor}
    (nonempty : mark ≠ []) (h : skipPast mark fault cursor = .ok next) :
    next.rest.length < cursor.rest.length := by
  simp only [skipPast] at h
  split at h
  · next before after found =>
      have joined := Text.cut?_eq_append found
      have positive := List.length_pos_iff.mpr nonempty
      cases h
      simp only [Cursor.rest_advance, List.length_drop, joined, List.length_append]
      omega
  · simp [Cursor.fail] at h

/-- Where in the body of a mustache the scan stands: a quote opens a string only where a token
starts. -/
inductive BodyState where
  | tokenStart
  | inToken
  | quoted (quote : Char)
deriving DecidableEq, Repr

/-- The state behind a character of the body. -/
def BodyState.next : BodyState → Char → BodyState
  | quoted quote, c => if c = quote then inToken else quoted quote
  | tokenStart, c =>
      if Text.isQuote c then quoted c
      else if Text.isSpace c || c == '=' then tokenStart
      else inToken
  | inToken, c => if Text.isSpace c || c == '=' then tokenStart else inToken

/-- The body of a mustache, up to the first two closing braces outside a string. -/
def scanBody : BodyState → List Char → Except Fault (List Char)
  | .quoted _, [] => .error .unterminatedString
  | .quoted quote, c :: rest => do
      let body ← scanBody (BodyState.next (.quoted quote) c) rest
      .ok (c :: body)
  | _, [] => .error .unterminatedMustache
  | _, '}' :: '}' :: _ => .ok []
  | state, c :: rest => do
      let body ← scanBody (state.next c) rest
      .ok (c :: body)

/-- A mustache with three braces begins here. -/
def isTriple : List Char → Bool
  | '{' :: '{' :: '{' :: _ => true
  | _ => false

def openingLength (text : List Char) : Nat :=
  if isTriple text then 3 else 2

/-- Scans a mustache that is no comment. One with three opening braces may close with two or
three. -/
def scanPlainMustache (cursor : Cursor) : Except FaultAt (RawMustache × Cursor) :=
  match scanBody .tokenStart (cursor.rest.drop (openingLength cursor.rest)) with
  | .error fault => cursor.fail fault
  | .ok body =>
      let closed := cursor.advance (openingLength cursor.rest + body.length + 2)
      let mustache : RawMustache :=
        { source := String.ofList (Text.trimBlank body)
          escaped := !isTriple cursor.rest
          offset := cursor.offset }
      if isTriple cursor.rest && closed.rest.head? = some '}' then .ok (mustache, closed.advance 1)
      else .ok (mustache, closed)

/-- Scans the mustache that begins here; a comment yields none. -/
def scanMustache (cursor : Cursor) : Except FaultAt (Option RawMustache × Cursor) :=
  if ['{', '{', '!', '-', '-'].isPrefixOf cursor.rest then do
    let next ← skipPast ['-', '-', '}', '}'] .unterminatedComment cursor
    .ok (none, next)
  else if ['{', '{', '!'].isPrefixOf cursor.rest then do
    let next ← skipPast ['}', '}'] .unterminatedComment cursor
    .ok (none, next)
  else do
    let (mustache, next) ← scanPlainMustache cursor
    .ok (some mustache, next)

theorem length_scanPlainMustache {cursor next : Cursor} {mustache : RawMustache}
    (nonempty : cursor.rest ≠ []) (h : scanPlainMustache cursor = .ok (mustache, next)) :
    next.rest.length < cursor.rest.length := by
  have positive := List.length_pos_iff.mpr nonempty
  simp only [scanPlainMustache] at h
  split at h
  · simp [Cursor.fail] at h
  · split at h <;>
      · simp only [Except.ok.injEq, Prod.mk.injEq] at h
        rw [← h.2]
        simp only [Cursor.rest_advance, List.length_drop]
        omega

theorem length_scanMustache {cursor next : Cursor} {mustache : Option RawMustache}
    (nonempty : cursor.rest ≠ []) (h : scanMustache cursor = .ok (mustache, next)) :
    next.rest.length < cursor.rest.length := by
  simp only [scanMustache, bind, Except.bind] at h
  split at h
  · split at h
    · simp at h
    · next found =>
        simp only [Except.ok.injEq, Prod.mk.injEq] at h
        exact h.2 ▸ length_skipPast (by simp) found
  · split at h
    · split at h
      · simp at h
      · next found =>
          simp only [Except.ok.injEq, Prod.mk.injEq] at h
          exact h.2 ▸ length_skipPast (by simp) found
    · split at h
      · simp at h
      · next found =>
          simp only [Except.ok.injEq, Prod.mk.injEq] at h
          exact h.2 ▸ length_scanPlainMustache nonempty found

end MustacheHtml.Template
