import MustacheHtml.Template.Scan.Tag

namespace MustacheHtml.Template

/-- Whether a mustache, a tag, a comment or a declaration begins here. -/
def startsMarkup : List Char → Bool
  | '{' :: '{' :: _ => true
  | '<' :: c :: _ => c == '/' || c == '!' || c.isAlpha
  | _ => false

/-- Scans text. Its first character is no markup; the text goes on until markup begins. -/
def scanText (cursor : Cursor) : Token × Cursor :=
  let taken := cursor.rest.take 1 ++ takeUntil startsMarkup (cursor.rest.drop 1)
  (.text (String.ofList (Reference.decode taken)) cursor.offset, cursor.advance taken.length)

/-- Scans what begins here. Comments and declarations yield no token. -/
def scanOne (cursor : Cursor) : Except FaultAt (Option Token × Cursor) :=
  match cursor.rest with
  | '{' :: '{' :: _ => do
      let (mustache, next) ← scanMustache cursor
      .ok (mustache.map Token.mustache, next)
  | '<' :: '!' :: '-' :: '-' :: _ => do
      .ok (none, ← skipPast ['-', '-', '>'] .unterminatedComment cursor)
  | '<' :: '!' :: _ => do
      .ok (none, ← skipPast ['>'] .unterminatedDeclaration cursor)
  | '<' :: '/' :: _ => do
      let (tag, next) ← scanEndTag cursor
      .ok (some tag, next)
  | '<' :: c :: _ =>
      if c.isAlpha then do
        let (tag, next) ← scanStartTag cursor
        .ok (some tag, next)
      else
        let (text, next) := scanText cursor
        .ok (some text, next)
  | _ =>
      let (text, next) := scanText cursor
      .ok (some text, next)

theorem length_scanStartTag {cursor next : Cursor} {token : Token} (nonempty : cursor.rest ≠ [])
    (h : scanStartTag cursor = .ok (token, next)) : next.rest.length < cursor.rest.length := by
  have positive := List.length_pos_iff.mpr nonempty
  simp only [scanStartTag, bind, Except.bind] at h
  split at h
  · simp at h
  · next value found =>
      obtain ⟨_, _⟩ := value
      have shorter := length_scanAttributes found
      simp only [Cursor.rest_advance, List.length_drop] at shorter
      simp only [Except.ok.injEq, Prod.mk.injEq] at h
      rw [← h.2]
      omega

theorem length_scanEndTag {cursor next : Cursor} {token : Token} (nonempty : cursor.rest ≠ [])
    (h : scanEndTag cursor = .ok (token, next)) : next.rest.length < cursor.rest.length := by
  have positive := List.length_pos_iff.mpr nonempty
  simp only [scanEndTag] at h
  split at h
  · simp [Cursor.fail] at h
  · split at h
    · have spaces := Cursor.length_rest_skipSpace_le
        (cursor.advance (2 + ((cursor.rest.drop 2).takeWhile isNameChar).length))
      simp only [Cursor.rest_advance, List.length_drop] at spaces
      simp only [Except.ok.injEq, Prod.mk.injEq] at h
      rw [← h.2]
      simp only [Cursor.rest_advance, List.length_drop]
      omega
    · simp [Cursor.fail] at h

theorem length_scanText {cursor : Cursor} (nonempty : cursor.rest ≠ []) :
    (scanText cursor).2.rest.length < cursor.rest.length := by
  have positive := List.length_pos_iff.mpr nonempty
  simp only [scanText, Cursor.rest_advance, List.length_drop, List.length_append, List.length_take]
  omega

theorem length_scanOne {cursor next : Cursor} {token : Option Token} (nonempty : cursor.rest ≠ [])
    (h : scanOne cursor = .ok (token, next)) : next.rest.length < cursor.rest.length := by
  simp only [scanOne, bind, Except.bind] at h
  split at h
  · split at h
    · simp at h
    · next value found =>
        obtain ⟨_, _⟩ := value
        simp only [Except.ok.injEq, Prod.mk.injEq] at h
        exact h.2 ▸ length_scanMustache nonempty found
  · split at h
    · simp at h
    · next found =>
        simp only [Except.ok.injEq, Prod.mk.injEq] at h
        exact h.2 ▸ length_skipPast (by simp) found
  · split at h
    · simp at h
    · next found =>
        simp only [Except.ok.injEq, Prod.mk.injEq] at h
        exact h.2 ▸ length_skipPast (by simp) found
  · split at h
    · simp at h
    · next value found =>
        obtain ⟨_, _⟩ := value
        simp only [Except.ok.injEq, Prod.mk.injEq] at h
        exact h.2 ▸ length_scanEndTag nonempty found
  · split at h
    · split at h
      · simp at h
      · next value found =>
          obtain ⟨_, _⟩ := value
          simp only [Except.ok.injEq, Prod.mk.injEq] at h
          exact h.2 ▸ length_scanStartTag nonempty found
    · simp only [Except.ok.injEq, Prod.mk.injEq] at h
      exact h.2 ▸ length_scanText nonempty
  · simp only [Except.ok.injEq, Prod.mk.injEq] at h
    exact h.2 ▸ length_scanText nonempty

/-- The tokens from the cursor on, or the first fault behind it. -/
def tokensFrom (cursor : Cursor) : Except FaultAt (List Token) :=
  if _atEnd : cursor.rest = [] then .ok []
  else
    match _scanned : scanOne cursor with
    | .error fault => .error fault
    | .ok (token, next) => do
        let tokens ← tokensFrom next
        .ok (token.toList ++ tokens)
termination_by cursor.rest.length
decreasing_by
  exact length_scanOne _atEnd _scanned

def tokens (source : List Char) : Except FaultAt (List Token) :=
  tokensFrom (Cursor.start source)

end MustacheHtml.Template
