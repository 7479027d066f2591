import MustacheHtml.Proofs.Template.Balanced
import MustacheHtml.Proofs.Template.Spans

namespace MustacheHtml.Template

/-- The mustache is written somewhere behind the place. -/
def Cursor.Holds (cursor : Cursor) (raw : RawMustache) : Prop :=
  ∃ front place span next, cursor.Passes front place ∧ place.Passes span next ∧
    MustacheSpan place.offset (some raw) span

section Holding

variable {cursor middle next : Cursor} {raw : RawMustache} {front : List Char}

theorem Cursor.Passes.holds (hfront : cursor.Passes front middle) (hholds : middle.Holds raw) :
    cursor.Holds raw := by
  obtain ⟨before, place, span, last, hbefore, hspan, hmustache⟩ := hholds
  exact ⟨front ++ before, place, span, last, hfront.trans hbefore, hspan, hmustache⟩

theorem holds_scanMustache (hstarts : startsMustache cursor.rest = true)
    (hscan : scanMustache cursor = .ok (some raw, next)) : cursor.Holds raw := by
  obtain ⟨span, hspan, hmustache⟩ := passes_scanMustache hstarts hscan
  exact ⟨[], cursor, span, next, Cursor.passes_refl cursor, hspan, hmustache⟩

theorem Cursor.FindsParts.holds {stops : Char → Bool} {parts : List RawPart}
    (hfinds : cursor.FindsParts stops parts next)
    (hraw : raw ∈ parts.filterMap RawPart.mustache?) : cursor.Holds raw := by
  induction hfinds with
  | done hends => cases hraw
  | @mustache cursor place next raw? parts hstarts hbrace hscan _ ih =>
      rw [List.filterMap_append, List.mem_append] at hraw
      rcases hraw with hfirst | hlater
      · cases raw? with
        | none => cases hfirst
        | some found =>
            obtain rfl : raw = found := List.mem_singleton.mp hfirst
            exact holds_scanMustache hstarts hscan
      · obtain ⟨span, hspan, -⟩ := passes_scanMustache hstarts hscan
        exact hspan.holds (ih hlater)
  | literal hspan hnonempty _ ih => exact (Cursor.passes_advance _ _).holds (ih hraw)

theorem Cursor.FindsValue.holds {parts : List RawPart} (hfinds : cursor.FindsValue parts next)
    (hraw : raw ∈ parts.filterMap RawPart.mustache?) : cursor.Holds raw := by
  cases hfinds with
  | quoted hrest hquote hinner hclosed =>
      exact (cursor.passes_advance 1).holds (hinner.holds hraw)
  | unquoted hrest hquote hend hinner => exact hinner.holds hraw

theorem Cursor.FindsAttribute.holds {attr : RawAttribute} (hfinds : cursor.FindsAttribute attr next)
    (hraw : raw ∈ attr.value.filterMap RawPart.mustache?) : cursor.Holds raw := by
  cases hfinds with
  | bare hnamed hbare => cases hraw
  | assigned hnamed hequals hvalue =>
      obtain ⟨front, hfront⟩ := hnamed.passes_equals
      exact hfront.holds (hvalue.holds hraw)

theorem Cursor.FindsTagEnd.holds {tagEnd : TagEnd} (hfinds : cursor.FindsTagEnd tagEnd next)
    {attr : RawAttribute} (hattr : attr ∈ tagEnd.attributes)
    (hraw : raw ∈ attr.value.filterMap RawPart.mustache?) : cursor.Holds raw := by
  induction hfinds with
  | closed hrest => cases hattr
  | selfClosed hrest => cases hattr
  | @cons cursor place next first tagEnd hplain hfirst _ ih =>
      apply cursor.passes_skipSpace.holds
      rcases List.mem_cons.mp hattr with rfl | hlater
      · exact hfirst.holds hraw
      · obtain ⟨span, hspan⟩ := hfirst.passes
        exact hspan.holds (ih hlater)

theorem Cursor.Finds.holds {token? : Option Token} (hfinds : cursor.Finds token? next)
    {token : Token} (htoken : token ∈ token?) (hraw : raw ∈ token.mustaches) :
    cursor.Holds raw := by
  cases hfinds with
  | mustache hrest hscan =>
      obtain ⟨found, rfl, rfl⟩ := Option.map_eq_some_iff.mp htoken
      obtain rfl : raw = found := List.mem_singleton.mp hraw
      exact holds_scanMustache (by rw [hrest]; rfl) hscan
  | comment hrest hskip => cases htoken
  | declaration hrest hplain hskip => cases htoken
  | startTag hrest hletter hname hend =>
      cases htoken
      obtain ⟨attr, hattr, hpart⟩ := List.mem_flatMap.mp hraw
      exact (cursor.passes_advance _).holds (hend.holds hattr hpart)
  | endTag hrest hname hnonempty hnamed hclosed =>
      cases htoken
      cases hraw
  | text hplain =>
      cases htoken
      cases hraw

theorem holds_tokensFrom {tokens : List Token} (hscan : tokensFrom cursor = .ok tokens)
    (hraw : raw ∈ tokens.flatMap Token.mustaches) : cursor.Holds raw := by
  obtain ⟨token, htoken, hinside⟩ := List.mem_flatMap.mp hraw
  obtain ⟨span, place, next, hspan, hfinds⟩ := exists_finds hscan htoken
  exact hspan.holds (hfinds.holds rfl hinside)

end Holding

/-- The mustache stands in the source with the body between its braces, as its offset tells. -/
structure Encloses (source : List Char) (raw : RawMustache) (body : List Char) : Prop where
  source_eq : raw.source = String.ofList (Text.trimBlank body)
  place : ∃ before closing after, ClosingBraces raw.escaped closing ∧
    raw.offset = Text.byteLength before ∧
    source = before ++ (openingBraces raw.escaped ++ body ++ closing) ++ after

theorem ClosesAfter.length_le {state : BodyState} {first second after others : List Char}
    (hfirst : ClosesAfter state first) (hsecond : ClosesAfter state second)
    (hsame : first ++ ['}', '}'] ++ after = second ++ ['}', '}'] ++ others) :
    second.length ≤ first.length := by
  by_contra hlonger
  have hstarts : first ++ ['}', '}'] <+: second ++ ['}', '}'] := by
    refine List.prefix_of_prefix_length_le (hsame ▸ List.prefix_append _ after)
      (List.prefix_append _ others) ?_
    simp only [List.length_append, List.length_cons, List.length_nil]
    omega
  obtain ⟨back, hback⟩ := hstarts
  refine hfirst.outside (hsecond.first first back ?_ ?_)
  · rw [← hback]
    simp
  · rintro rfl
    have hlength := congrArg List.length hback
    simp only [List.length_append, List.length_cons, List.length_nil] at hlength
    omega

theorem ClosingBraces.starts {escaped : Bool} {closing : List Char}
    (hclosing : ClosingBraces escaped closing) : ['}', '}'] <+: closing := by
  cases hclosing <;> decide

theorem Encloses.unique {source first second : List Char} {raw : RawMustache}
    (hfirst : Encloses source raw first) (hsecond : Encloses source raw second)
    (hcloses : ClosesAfter .tokenStart first) (halso : ClosesAfter .tokenStart second) :
    first = second := by
  obtain ⟨before, closing, after, hclosing, hplace, hsource⟩ := hfirst.place
  obtain ⟨before', closing', after', hclosing', hplace', hsource'⟩ := hsecond.place
  obtain ⟨more, rfl⟩ := hclosing.starts
  obtain ⟨more', rfl⟩ := hclosing'.starts
  -- The offset fixes what stands before, and the longer body would close where the shorter does.
  have hbefore : before = before' := by
    have htaken := Text.takeBytes?_byteLength before
    have htaken' := Text.takeBytes?_byteLength before'
    rw [List.append_assoc] at hsource hsource'
    have hsame := htaken (openingBraces raw.escaped ++ first ++ (['}', '}'] ++ more) ++ after)
    rw [← hsource, ← hplace, hplace', hsource', htaken'] at hsame
    exact (Option.some.inj hsame).symm
  have hsame : first ++ ['}', '}'] ++ (more ++ after) =
      second ++ ['}', '}'] ++ (more' ++ after') := by
    have hjoined := hsource.symm.trans hsource'
    rw [hbefore] at hjoined
    simpa using hjoined
  have hlength : first.length = second.length :=
    Nat.le_antisymm (halso.length_le hcloses hsame.symm) (hcloses.length_le halso hsame)
  rw [List.append_assoc, List.append_assoc] at hsame
  exact List.append_inj_left hsame hlength

/-- Every mustache of the tokens stands in the source, and its body ends at the first two closing
braces outside the strings that the scan has seen. -/
theorem exists_encloses {source : List Char} {found : List Token}
    (htokens : tokens source = .ok found) {raw : RawMustache}
    (hraw : raw ∈ found.flatMap Token.mustaches) :
    ∃ body, Encloses source raw body ∧ ClosesAfter .tokenStart body := by
  obtain ⟨before, place, span, next, hbefore, hspan, hmustache⟩ := holds_tokensFrom htokens hraw
  cases hmustache with
  | @mustache escaped body closing hbody hclosing =>
      refine ⟨body, ⟨rfl, before, closing, next.rest, hclosing, ?_, ?_⟩, hbody⟩
      · exact hbefore.offset_eq.trans (Nat.zero_add _)
      · calc source = before ++ place.rest := hbefore.rest_eq
          _ = before ++ ((openingBraces escaped ++ body ++ closing) ++ next.rest) := by
            rw [hspan.rest_eq]
          _ = _ := (List.append_assoc _ _ _).symm

end MustacheHtml.Template
