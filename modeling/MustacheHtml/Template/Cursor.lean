import MustacheHtml.Text.CharClass
import MustacheHtml.Text.Location
import MustacheHtml.Template.Fault

namespace MustacheHtml.Template

/-- The text still to be scanned, and the byte offset at which it starts. -/
structure Cursor where
  offset : Nat
  rest : List Char
deriving DecidableEq, Repr

namespace Cursor

def start (source : List Char) : Cursor :=
  ⟨0, source⟩

/-- Goes on by some characters. -/
def advance (cursor : Cursor) (count : Nat) : Cursor :=
  ⟨cursor.offset + Text.byteLength (cursor.rest.take count), cursor.rest.drop count⟩

/-- Goes on to the next character that is no space. -/
def skipSpace (cursor : Cursor) : Cursor :=
  cursor.advance (cursor.rest.takeWhile Text.isSpace).length

/-- Fails at the place of the cursor. -/
def fail {α : Type} (cursor : Cursor) (fault : Fault) : Except FaultAt α :=
  .error ⟨cursor.offset, fault⟩

@[simp] theorem rest_advance (cursor : Cursor) (count : Nat) :
    (cursor.advance count).rest = cursor.rest.drop count := rfl

theorem length_rest_skipSpace_le (cursor : Cursor) :
    cursor.skipSpace.rest.length ≤ cursor.rest.length := by
  simp [skipSpace]

end Cursor

end MustacheHtml.Template
