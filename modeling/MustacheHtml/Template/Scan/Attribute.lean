import MustacheHtml.Reference
import MustacheHtml.Template.Scan.Mustache

namespace MustacheHtml.Template

/-- The text up to the place where what remains satisfies the test. -/
def takeUntil (stops : List Char → Bool) : List Char → List Char
  | [] => []
  | c :: rest => if stops (c :: rest) then [] else c :: takeUntil stops rest

theorem takeUntil_length_pos {stops : List Char → Bool} {c : Char} {rest : List Char}
    (h : stops (c :: rest) = false) : 0 < (takeUntil stops (c :: rest)).length := by
  simp [takeUntil, h]

def isAttributeNameChar (c : Char) : Bool :=
  !(Text.isSpace c || c == '/' || c == '>' || c == '=' || c == '"' || c == '\'' || c == '<')

/-- The characters of an attribute value up to its end or to a mustache. -/
def takeLiteral (stops : Char → Bool) : List Char → List Char :=
  takeUntil fun text => startsMustache text || text.head?.any stops

/-- A literal part of a value, with its character references decoded. -/
def literalPart (literal : List Char) : RawPart :=
  .text (String.ofList (Reference.decode literal))

/-- Scans an attribute value up to the character that ends it, or to the end of the source. -/
def scanValue (stops : Char → Bool) (cursor : Cursor) : Except FaultAt (List RawPart × Cursor) :=
  match _atRest : cursor.rest with
  | [] => .ok ([], cursor)
  | c :: rest =>
      if stops c then .ok ([], cursor)
      else if startsMustache (c :: rest) then
        match _scanned : scanMustache cursor with
        | .error fault => .error fault
        | .ok (mustache, next) => do
            let (parts, last) ← scanValue stops next
            .ok (mustache.toList.map RawPart.mustache ++ parts, last)
      else do
        let (parts, last) ← scanValue stops (cursor.advance (takeLiteral stops (c :: rest)).length)
        .ok (literalPart (takeLiteral stops (c :: rest)) :: parts, last)
termination_by cursor.rest.length
decreasing_by
  · exact length_scanMustache (by simp [_atRest]) _scanned
  · have taken : 0 < (takeLiteral stops (c :: rest)).length :=
      takeUntil_length_pos (by simp_all)
    simp only [Cursor.rest_advance, List.length_drop, _atRest, List.length_cons]
    omega

theorem length_scanValue_le {stops : Char → Bool} {cursor last : Cursor} {parts : List RawPart}
    (h : scanValue stops cursor = .ok (parts, last)) : last.rest.length ≤ cursor.rest.length := by
  fun_induction scanValue stops cursor generalizing parts last with
  | case1 cursor atRest => simp_all
  | case2 cursor c rest atRest stop => simp_all
  | case3 cursor c rest atRest stop starts fault scanned => simp at h
  | case4 cursor c rest atRest stop starts mustache next scanned ih =>
      simp only [bind, Except.bind] at h
      split at h
      · simp at h
      · next value found =>
          have shorter := length_scanMustache (by simp [atRest]) scanned
          obtain ⟨_, _⟩ := value
          have tail := ih found
          simp only [Except.ok.injEq, Prod.mk.injEq] at h
          rw [← h.2]
          omega
  | case5 cursor c rest atRest stop starts ih =>
      simp only [bind, Except.bind] at h
      split at h
      · simp at h
      · next value found =>
          obtain ⟨_, _⟩ := value
          have tail := ih found
          simp only [Except.ok.injEq, Prod.mk.injEq] at h
          rw [← h.2]
          simp only [Cursor.rest_advance, List.length_drop] at tail
          omega

/-- Scans the value of an attribute after its equals sign: between quotes, or up to a space or the
end of the tag. -/
def scanAssigned (offset : Nat) (name : String) (cursor : Cursor) :
    Except FaultAt (List RawPart × Cursor) :=
  match cursor.rest with
  | [] => .error ⟨offset, .missingValue name⟩
  | c :: _ =>
      if Text.isQuote c then do
        let (parts, last) ← scanValue (· == c) (cursor.advance 1)
        if last.rest.head? = some c then .ok (parts, last.advance 1)
        else .error ⟨offset, .unterminatedValue name⟩
      else if c = '>' then .error ⟨offset, .missingValue name⟩
      else scanValue (fun c => Text.isSpace c || c == '>') cursor

/-- Scans an attribute: a name, and a value if an equals sign follows. -/
def scanAttribute (cursor : Cursor) : Except FaultAt (RawAttribute × Cursor) :=
  let name := cursor.rest.takeWhile isAttributeNameChar
  if name.isEmpty then cursor.fail .malformedAttribute
  else
    let named := (cursor.advance name.length).skipSpace
    if named.rest.head? = some '=' then do
      let place := (named.advance 1).skipSpace
      let (value, last) ← scanAssigned cursor.offset (String.ofList name) place
      .ok ({ name := String.ofList name, value := value, offset := cursor.offset }, last)
    else .ok ({ name := String.ofList name, value := [], offset := cursor.offset }, named)

theorem length_scanAssigned_le {offset : Nat} {name : String} {cursor last : Cursor}
    {parts : List RawPart} (h : scanAssigned offset name cursor = .ok (parts, last)) :
    last.rest.length ≤ cursor.rest.length := by
  simp only [scanAssigned] at h
  split at h
  · simp at h
  · split at h
    · simp only [bind, Except.bind] at h
      split at h
      · simp at h
      · next value found =>
          obtain ⟨_, _⟩ := value
          have inner := length_scanValue_le found
          simp only [Cursor.rest_advance, List.length_drop] at inner
          split at h
          · simp only [Except.ok.injEq, Prod.mk.injEq] at h
            rw [← h.2]
            simp only [Cursor.rest_advance, List.length_drop]
            omega
          · simp at h
    · split at h
      · simp at h
      · exact length_scanValue_le h

theorem length_scanAttribute {cursor last : Cursor} {scanned : RawAttribute}
    (h : scanAttribute cursor = .ok (scanned, last)) : last.rest.length < cursor.rest.length := by
  simp only [scanAttribute] at h
  split at h
  · simp [Cursor.fail] at h
  · next named =>
      have taken : 0 < (cursor.rest.takeWhile isAttributeNameChar).length := by
        rw [List.length_pos_iff]
        simpa using named
      have available := (List.takeWhile_prefix isAttributeNameChar (l := cursor.rest)).length_le
      have spaces := Cursor.length_rest_skipSpace_le
        (cursor.advance (cursor.rest.takeWhile isAttributeNameChar).length)
      simp only [Cursor.rest_advance, List.length_drop] at spaces
      split at h
      · simp only [bind, Except.bind] at h
        split at h
        · simp at h
        · next value found =>
            obtain ⟨_, _⟩ := value
            have inner := length_scanAssigned_le found
            have more := Cursor.length_rest_skipSpace_le
              ((cursor.advance
                (cursor.rest.takeWhile isAttributeNameChar).length).skipSpace.advance 1)
            simp only [Cursor.rest_advance, List.length_drop] at more
            simp only [Except.ok.injEq, Prod.mk.injEq] at h
            rw [← h.2]
            omega
      · simp only [Except.ok.injEq, Prod.mk.injEq] at h
        rw [← h.2]
        omega

end MustacheHtml.Template
