import MustacheHtml.Template.Scan.Attribute

namespace MustacheHtml.Template

def isNameChar (c : Char) : Bool :=
  c.isAlphanum || c == '-' || c == '_' || c == ':' || c == '.'

/-- The attributes of a start tag, and whether it closes itself. -/
structure TagEnd where
  attributes : List RawAttribute
  selfClosing : Bool
deriving DecidableEq, Repr

/-- Scans the attributes of the tag that began at the offset, and the end of the tag. -/
def scanAttributes (tag : String) (offset : Nat) (cursor : Cursor) :
    Except FaultAt (TagEnd × Cursor) :=
  match cursor.skipSpace.rest with
  | [] => .error ⟨offset, .unterminatedTag tag⟩
  | '>' :: _ => .ok (⟨[], false⟩, cursor.skipSpace.advance 1)
  | '/' :: '>' :: _ => .ok (⟨[], true⟩, cursor.skipSpace.advance 2)
  | '{' :: '{' :: _ => cursor.skipSpace.fail (.mustacheInTag tag)
  | _ =>
      match _scanned : scanAttribute cursor.skipSpace with
      | .error fault => .error fault
      | .ok (first, next) => do
          let (others, last) ← scanAttributes tag offset next
          .ok ({ others with attributes := first :: others.attributes }, last)
termination_by cursor.rest.length
decreasing_by
  exact Nat.lt_of_lt_of_le (length_scanAttribute _scanned) (Cursor.length_rest_skipSpace_le cursor)

theorem length_scanAttributes {tag : String} {offset : Nat} {cursor last : Cursor}
    {tagEnd : TagEnd} (h : scanAttributes tag offset cursor = .ok (tagEnd, last)) :
    last.rest.length ≤ cursor.rest.length := by
  fun_induction scanAttributes tag offset cursor generalizing tagEnd last with
  | case1 cursor atRest => simp at h
  | case2 cursor rest atRest =>
      have spaces := Cursor.length_rest_skipSpace_le cursor
      simp only [Except.ok.injEq, Prod.mk.injEq] at h
      rw [← h.2]
      simp only [Cursor.rest_advance, List.length_drop]
      omega
  | case3 cursor rest atRest =>
      have spaces := Cursor.length_rest_skipSpace_le cursor
      simp only [Except.ok.injEq, Prod.mk.injEq] at h
      rw [← h.2]
      simp only [Cursor.rest_advance, List.length_drop]
      omega
  | case4 cursor rest atRest => simp [Cursor.fail] at h
  | case5 => simp at h
  | case6 cursor first next scanned _ _ _ _ ih =>
      have spaces := Cursor.length_rest_skipSpace_le cursor
      have shorter := length_scanAttribute scanned
      simp only [bind, Except.bind] at h
      split at h
      · simp at h
      · next value found =>
          obtain ⟨_, _⟩ := value
          have tail := ih found
          simp only [Except.ok.injEq, Prod.mk.injEq] at h
          rw [← h.2]
          omega

/-- The start tag at the cursor, up to and with its closing sign. -/
def scanStartTag (cursor : Cursor) : Except FaultAt (Token × Cursor) := do
  let name := (cursor.rest.drop 1).takeWhile isNameChar
  let place := cursor.advance (1 + name.length)
  let (tagEnd, last) ← scanAttributes (String.ofList name) cursor.offset place
  .ok (.startTag (String.ofList name) tagEnd.attributes tagEnd.selfClosing cursor.offset, last)

/-- The end tag at the cursor, which has nothing but a name. -/
def scanEndTag (cursor : Cursor) : Except FaultAt (Token × Cursor) :=
  let name := (cursor.rest.drop 2).takeWhile isNameChar
  if name.isEmpty then cursor.fail .malformedClosingTag
  else
    let named := (cursor.advance (2 + name.length)).skipSpace
    if named.rest.head? = some '>' then
      .ok (.endTag (String.ofList name) cursor.offset, named.advance 1)
    else cursor.fail (.unterminatedClosingTag (String.ofList name))

end MustacheHtml.Template
