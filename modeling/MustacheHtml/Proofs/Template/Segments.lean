import MustacheHtml.Proofs.Expression.Words
import MustacheHtml.Proofs.Template.TagPlaces
import MustacheHtml.Proofs.Template.WellNamed

/-!
The lexical grammar of templates: the source of a list of tokens is made of segments, each with a
part to play, and what the scan returns is what the grammar says of the segments that it passed.
-/

namespace MustacheHtml.Template

open MustacheHtml.Expression (AllSpace)

/-- What a stretch of the source is there for. The marks are what else a tag is written with: its
brackets and slashes, white space, equals signs and quotes. -/
inductive Role where
  | text
  | mustache
  | dropped
  | mark
  | tagName
  | attributeName
  | literal
deriving DecidableEq, Repr

/-- A part of the source, and what it is there for. -/
structure Segment where
  role : Role
  span : List Char
deriving DecidableEq, Repr

/-- The text that the segments stand for. -/
def spelling (segments : List Segment) : List Char :=
  segments.flatMap Segment.span

@[simp] theorem spelling_nil : spelling [] = [] :=
  rfl

@[simp] theorem spelling_cons (segment : Segment) (segments : List Segment) :
    spelling (segment :: segments) = segment.span ++ spelling segments :=
  List.flatMap_cons

@[simp] theorem spelling_append (front back : List Segment) :
    spelling (front ++ back) = spelling front ++ spelling back :=
  List.flatMap_append

/-- No two braces begin at a character of the span, whatever follows it. -/
def ClearBefore (rest span : List Char) : Prop :=
  ∀ skipped left, span = skipped ++ left → left ≠ [] → ¬ ['{', '{'] <+: left ++ rest

/-- How the value of an attribute is written, with the rest of the source behind it. -/
inductive ValueSegments (rest : List Char) : Nat → List RawPart → List Segment → Prop where
  | nil (offset : Nat) : ValueSegments rest offset [] []
  | literal {offset : Nat} {span : List Char} {parts : List RawPart} {segments : List Segment}
      (hnonempty : span ≠ []) (hclear : ClearBefore (spelling segments ++ rest) span)
      (hothers : ValueSegments rest (offset + Text.byteLength span) parts segments) :
      ValueSegments rest offset (literalPart span :: parts) (⟨.literal, span⟩ :: segments)
  | mustache {offset : Nat} {raw : RawMustache} {span : List Char} {parts : List RawPart}
      {segments : List Segment} (hspan : MustacheSpan offset (some raw) span)
      (hothers : ValueSegments rest (offset + Text.byteLength span) parts segments) :
      ValueSegments rest offset (.mustache raw :: parts) (⟨.mustache, span⟩ :: segments)
  | comment {offset : Nat} {span : List Char} {parts : List RawPart} {segments : List Segment}
      (hspan : MustacheSpan offset none span)
      (hothers : ValueSegments rest (offset + Text.byteLength span) parts segments) :
      ValueSegments rest offset parts (⟨.dropped, span⟩ :: segments)

/-- Nothing, or a quote. -/
def IsDelimiter (quotes : List Char) : Prop :=
  quotes = [] ∨ ∃ quote, Text.isQuote quote = true ∧ quotes = [quote]

/-- How an attribute is written, with the rest of the source behind it. -/
inductive AttributeSegments (rest : List Char) (offset : Nat) :
    RawAttribute → List Segment → Prop where
  | bare {name blanks : List Char} (hname : IsAttributeName name) (hblanks : AllSpace blanks)
      (hends : ∀ c ∈ (blanks ++ rest).head?, isAttributeNameChar c = false) :
      AttributeSegments rest offset ⟨String.ofList name, [], offset⟩
        [⟨.attributeName, name⟩, ⟨.mark, blanks⟩]
  | assigned {name before after quotes : List Char} {parts : List RawPart}
      {value : List Segment} (hname : IsAttributeName name) (hbefore : AllSpace before)
      (hafter : AllSpace after) (hquotes : IsDelimiter quotes)
      (hvalue : ValueSegments (quotes ++ rest)
        (offset + Text.byteLength (name ++ (before ++ ('=' :: after ++ quotes)))) parts value) :
      AttributeSegments rest offset ⟨String.ofList name, parts, offset⟩
        (⟨.attributeName, name⟩ :: ⟨.mark, before ++ ('=' :: after ++ quotes)⟩ ::
          (value ++ [⟨.mark, quotes⟩]))

/-- How the attributes and the end of a start tag are written, with the rest of the source behind
it. -/
inductive TagSegments (rest : List Char) : Nat → TagEnd → List Segment → Prop where
  | closed {blanks : List Char} (offset : Nat) (hblanks : AllSpace blanks) :
      TagSegments rest offset ⟨[], false⟩ [⟨.mark, blanks ++ ['>']⟩]
  | selfClosed {blanks : List Char} (offset : Nat) (hblanks : AllSpace blanks) :
      TagSegments rest offset ⟨[], true⟩ [⟨.mark, blanks ++ ['/', '>']⟩]
  | cons {offset : Nat} {blanks : List Char} {attr : RawAttribute} {tagEnd : TagEnd}
      {first others : List Segment} (hblanks : AllSpace blanks)
      (hfirst : AttributeSegments (spelling others ++ rest) (offset + Text.byteLength blanks) attr
        first)
      (hothers : TagSegments rest (offset + Text.byteLength (blanks ++ spelling first)) tagEnd
        others) :
      TagSegments rest offset { tagEnd with attributes := attr :: tagEnd.attributes }
        (⟨.mark, blanks⟩ :: (first ++ others))

/-- How a token is written, or what makes none, with the rest of the source behind it. -/
inductive TokenSegments (rest : List Char) (offset : Nat) :
    Option Token → List Segment → Prop where
  | text {span : List Char} (hnonempty : span ≠ []) (hplain : PlainBefore rest span) :
      TokenSegments rest offset (some (.text (String.ofList (Reference.decode span)) offset))
        [⟨.text, span⟩]
  | mustache {raw : RawMustache} {span : List Char}
      (hspan : MustacheSpan offset (some raw) span) :
      TokenSegments rest offset (some (.mustache raw)) [⟨.mustache, span⟩]
  | dropped {span : List Char} (hspan : Dropped span) :
      TokenSegments rest offset none [⟨.dropped, span⟩]
  | startTag {name : List Char} {tagEnd : TagEnd} {segments : List Segment}
      (hname : IsTagName name)
      (hend : TagSegments rest (offset + Text.byteLength ('<' :: name)) tagEnd segments) :
      TokenSegments rest offset
        (some (.startTag (String.ofList name) tagEnd.attributes tagEnd.selfClosing offset))
        (⟨.mark, ['<']⟩ :: ⟨.tagName, name⟩ :: segments)
  | endTag {name blanks : List Char} (hname : name ≠ []) (hchars : ∀ c ∈ name, isNameChar c = true)
      (hblanks : AllSpace blanks) :
      TokenSegments rest offset (some (.endTag (String.ofList name) offset))
        [⟨.mark, ['<', '/']⟩, ⟨.tagName, name⟩, ⟨.mark, blanks ++ ['>']⟩]

/-- How the tokens of a source are written. -/
inductive SourceSegments : Nat → List Token → List Segment → Prop where
  | nil (offset : Nat) : SourceSegments offset [] []
  | cons {offset : Nat} {token? : Option Token} {tokens : List Token}
      {first others : List Segment}
      (hfirst : TokenSegments (spelling others) offset token? first)
      (hothers : SourceSegments (offset + Text.byteLength (spelling first)) tokens others) :
      SourceSegments offset (token?.toList ++ tokens) (first ++ others)

theorem Cursor.passes_one {cursor : Cursor} {c : Char} (hhead : cursor.rest.head? = some c) :
    cursor.Passes [c] (cursor.advance 1) :=
  passes_of_prefix (List.singleton_prefix_iff_head?_eq_some.mpr hhead)

section Values

variable {cursor next : Cursor} {stops : Char → Bool}

theorem clearBefore_of_takeUntil {span rest : List Char}
    (hinside : ∀ skipped left, span = skipped ++ left → left ≠ [] →
      (startsMustache (left ++ rest) || (left ++ rest).head?.any stops) = false) :
    ClearBefore rest span := by
  intro skipped left hsplit hleft hopens
  have hfalse := (Bool.or_eq_false_iff.mp (hinside skipped left hsplit hleft)).1
  exact Bool.false_ne_true (hfalse.symm.trans (startsMustache_iff.mpr hopens))

theorem Cursor.FindsParts.valueSegments {parts : List RawPart}
    (hfinds : cursor.FindsParts stops parts next) :
    ∃ segments, cursor.Passes (spelling segments) next ∧
      ValueSegments next.rest cursor.offset parts segments := by
  induction hfinds with
  | @done cursor hends => exact ⟨[], cursor.passes_refl, .nil _⟩
  | @mustache cursor place next raw? parts hstarts hbrace hscan _ ih =>
      obtain ⟨span, hpasses, hspan⟩ := passes_scanMustache hstarts hscan
      obtain ⟨segments, hsegments, hvalue⟩ := ih
      rw [hpasses.offset_eq] at hvalue
      cases raw? with
      | none => exact ⟨⟨.dropped, span⟩ :: segments, hpasses.trans hsegments, .comment hspan hvalue⟩
      | some raw =>
          exact ⟨⟨.mustache, span⟩ :: segments, hpasses.trans hsegments, .mustache hspan hvalue⟩
  | @literal cursor next span parts hspan hnonempty _ ih =>
      obtain ⟨left, hjoined, -, hinside⟩ := takeUntil_splits
        (fun text => startsMustache text || text.head?.any stops) cursor.rest
      rw [← takeLiteral, ← hspan] at hjoined hinside
      have hpasses := Cursor.passes_of_prefix ⟨left, hjoined.symm⟩
      have hleft : (cursor.advance span.length).rest = left := Cursor.rest_advance_append hjoined
      obtain ⟨segments, hsegments, hvalue⟩ := ih
      rw [hpasses.offset_eq] at hvalue
      refine ⟨⟨.literal, _⟩ :: segments, hpasses.trans hsegments, .literal hnonempty ?_ hvalue⟩
      rw [← hsegments.rest_eq, hleft]
      exact clearBefore_of_takeUntil hinside

theorem Cursor.FindsValue.valueSegments {parts : List RawPart}
    (hfinds : cursor.FindsValue parts next) :
    ∃ quotes segments, IsDelimiter quotes ∧
      cursor.Passes (quotes ++ (spelling segments ++ quotes)) next ∧
      ValueSegments (quotes ++ next.rest) (cursor.offset + Text.byteLength quotes) parts
        segments := by
  cases hfinds with
  | @quoted quote after parts last hrest hquote hinner hclosed =>
      have hopened : cursor.Passes [quote] (cursor.advance 1) :=
        Cursor.passes_one (by rw [hrest, List.head?_cons])
      have hend := Cursor.passes_one hclosed
      obtain ⟨segments, hsegments, hvalue⟩ := hinner.valueSegments
      rw [hopened.offset_eq, hend.rest_eq] at hvalue
      exact ⟨[quote], segments, .inr ⟨quote, hquote, rfl⟩, hopened.trans (hsegments.trans hend),
        hvalue⟩
  | unquoted hrest hquote hend hinner =>
      obtain ⟨segments, hsegments, hvalue⟩ := hinner.valueSegments
      refine ⟨[], segments, .inl rfl, ?_, hvalue⟩
      rwa [List.append_nil]

end Values

section Tags

variable {cursor next : Cursor}

theorem allSpace_takeWhile (text : List Char) : AllSpace (text.takeWhile Text.isSpace) :=
  List.all_eq_true.mp List.all_takeWhile

theorem getLast?_of_suffix {mark span : List Char} {c : Char} (hsuffix : mark <:+ span)
    (hlast : mark.getLast? = some c) : span.getLast? = some c := by
  obtain ⟨front, rfl⟩ := hsuffix
  rw [List.getLast?_append, hlast, Option.some_or]

theorem exists_blanks (cursor : Cursor) :
    ∃ blanks, AllSpace blanks ∧ cursor.Passes blanks cursor.skipSpace :=
  ⟨_, allSpace_takeWhile cursor.rest, cursor.passes_skipSpace⟩

theorem head?_dropWhile {test : Char → Bool} (text : List Char) :
    ∀ c ∈ (text.dropWhile test).head?, test c = false := by
  intro c hc
  have hstops := List.head?_dropWhile_not test text
  rw [Option.mem_def.mp hc] at hstops
  exact hstops

theorem Cursor.Names.head?_eq {name before : List Char} {named : Cursor}
    (hnamed : cursor.Names name named) (hpasses : cursor.Passes (name ++ before) named) :
    ∀ c ∈ (before ++ named.rest).head?, isAttributeNameChar c = false := by
  have hbehind : before ++ named.rest = cursor.rest.dropWhile isAttributeNameChar := by
    have hsplit : name ++ (before ++ named.rest) = cursor.rest := by
      rw [← List.append_assoc, ← hpasses.rest_eq]
    rw [← List.takeWhile_append_dropWhile (p := isAttributeNameChar) (l := cursor.rest),
      ← hnamed.name_eq] at hsplit
    exact List.append_cancel_left hsplit
  rw [hbehind]
  exact head?_dropWhile cursor.rest

theorem Cursor.Names.exists_blanks {name : List Char} {named : Cursor}
    (hnamed : cursor.Names name named) :
    ∃ before, AllSpace before ∧ cursor.Passes (name ++ before) named := by
  obtain ⟨before, hbefore, hspace⟩ := Template.exists_blanks (cursor.advance name.length)
  rw [hnamed.named_eq]
  exact ⟨before, hbefore, hnamed.passes_name.trans hspace⟩

theorem Cursor.FindsAttribute.attributeSegments {attr : RawAttribute}
    (hfinds : cursor.FindsAttribute attr next) (hbraces : ¬ ['{', '{'] <+: cursor.rest) :
    ∃ segments, cursor.Passes (spelling segments) next ∧
      AttributeSegments next.rest cursor.offset attr segments := by
  cases hfinds with
  | bare hnamed hbare =>
      obtain ⟨before, hbefore, hpasses⟩ := hnamed.exists_blanks
      refine ⟨_, ?_, .bare (hnamed.isAttributeName hbraces) hbefore (hnamed.head?_eq hpasses)⟩
      simpa using hpasses
  | @assigned name named _ value hnamed hequals hvalue =>
      obtain ⟨before, hbefore, hpasses⟩ := hnamed.exists_blanks
      obtain ⟨after, hafter, hblanks⟩ := exists_blanks (named.advance 1)
      have hopening := (hpasses.trans (Cursor.passes_one hequals)).trans hblanks
      obtain ⟨quotes, segments, hquotes, hsegments, hparts⟩ := hvalue.valueSegments
      rw [hopening.offset_eq, Nat.add_assoc, ← Text.byteLength_append] at hparts
      simp only [List.append_assoc] at hparts
      have hname := hnamed.isAttributeName hbraces
      refine ⟨_, ?_, .assigned hname hbefore hafter hquotes hparts⟩
      simpa using hopening.trans hsegments

theorem Cursor.FindsTagEnd.tagSegments {tagEnd : TagEnd} (hfinds : cursor.FindsTagEnd tagEnd next) :
    ∃ segments, cursor.Passes (spelling segments) next ∧
      TagSegments next.rest cursor.offset tagEnd segments := by
  induction hfinds with
  | @closed cursor rest hrest =>
      obtain ⟨blanks, hblanks, hspace⟩ := exists_blanks cursor
      have hend : cursor.skipSpace.Passes ['>'] (cursor.skipSpace.advance 1) :=
        Cursor.passes_of_prefix (hrest ▸ ⟨rest, rfl⟩)
      refine ⟨_, ?_, .closed _ hblanks⟩
      simpa using hspace.trans hend
  | @selfClosed cursor rest hrest =>
      obtain ⟨blanks, hblanks, hspace⟩ := exists_blanks cursor
      have hend : cursor.skipSpace.Passes ['/', '>'] (cursor.skipSpace.advance 2) :=
        Cursor.passes_of_prefix (hrest ▸ ⟨rest, rfl⟩)
      refine ⟨_, ?_, .selfClosed _ hblanks⟩
      simpa using hspace.trans hend
  | @cons cursor place next attr tagEnd hplain hattr _ ih =>
      obtain ⟨first, hfirst, hwritten⟩ := hattr.attributeSegments hplain
      obtain ⟨segments, hsegments, htag⟩ := ih
      obtain ⟨blanks, hblanks, hspace⟩ := exists_blanks cursor
      rw [hspace.offset_eq, hsegments.rest_eq] at hwritten
      rw [(hspace.trans hfirst).offset_eq] at htag
      refine ⟨_, ?_, .cons hblanks hwritten htag⟩
      simpa using hspace.trans (hfirst.trans hsegments)

end Tags

section Sources

variable {cursor next : Cursor}

theorem TokenSpan.eq_text {offset place : Nat} {content : String} {span : List Char}
    (hspan : TokenSpan offset (.text content place) span) :
    Token.text content place = .text (String.ofList (Reference.decode span)) offset := by
  cases hspan with
  | text span => rfl

theorem tokenSegments_of_scanOne {token? : Option Token} (hleft : cursor.rest ≠ [])
    (hscan : scanOne cursor = .ok (token?, next)) :
    ∃ segments, cursor.Passes (spelling segments) next ∧
      TokenSegments next.rest cursor.offset token? segments := by
  obtain ⟨span, hpasses, hcut⟩ := scanOne_piece hleft hscan
  cases finds_of_scanOne hscan with
  | @mustache raw? _ _ hrest hmustache =>
      cases raw? with
      | none => exact ⟨[⟨.dropped, span⟩], by simpa using hpasses, .dropped hcut.fits⟩
      | some raw =>
          have hfits : TokenSpan cursor.offset (.mustache raw) span := hcut.fits
          cases hfits with
          | mustache hspan => exact ⟨[⟨.mustache, span⟩], by simpa using hpasses, .mustache hspan⟩
  | comment hrest hskip => exact ⟨[⟨.dropped, span⟩], by simpa using hpasses, .dropped hcut.fits⟩
  | declaration hrest hplain hskip =>
      exact ⟨[⟨.dropped, span⟩], by simpa using hpasses, .dropped hcut.fits⟩
  | @startTag letter after name tagEnd _ hrest hletter hname hend =>
      subst hname
      obtain ⟨segments, hsegments, htag⟩ := hend.tagSegments
      have hopened : cursor.Passes ('<' :: (letter :: after).takeWhile isNameChar)
          (cursor.advance (1 + _)) := passes_tagName ['<'] hrest
      rw [hopened.offset_eq] at htag
      refine ⟨_, ?_, .startTag (isTagName_takeWhile after hletter) htag⟩
      simpa using hopened.trans hsegments
  | @endTag after name named hrest hname hnonempty hnamed hclosed =>
      subst hname hnamed
      have hopened := passes_tagName ['<', '/'] hrest
      obtain ⟨blanks, hblanks, hspace⟩ :=
        exists_blanks (cursor.advance (2 + (after.takeWhile isNameChar).length))
      have hchars := List.all_eq_true.mp (List.all_takeWhile (p := isNameChar) (l := after))
      refine ⟨_, ?_, .endTag hnonempty hchars hblanks⟩
      simpa using hopened.trans (hspace.trans (Cursor.passes_one hclosed))
  | text hplain =>
      have htext : (scanText cursor).1 =
          .text (String.ofList (Reference.decode span)) cursor.offset := TokenSpan.eq_text hcut.fits
      rw [htext]
      exact ⟨[⟨.text, span⟩], by simpa using hpasses,
        .text hcut.nonempty (hcut.plain ⟨_, _, rfl⟩)⟩

/-- The tokens of a source are written as the grammar says. -/
theorem exists_sourceSegments {tokens : List Token} (hscan : tokensFrom cursor = .ok tokens) :
    ∃ segments, spelling segments = cursor.rest ∧
      SourceSegments cursor.offset tokens segments := by
  fun_induction tokensFrom cursor generalizing tokens with
  | case1 cursor hend =>
      cases hscan
      exact ⟨[], hend.symm, .nil _⟩
  | case2 cursor hleft fault hfault => cases hscan
  | case3 cursor hleft token? next hone ih =>
      obtain ⟨others, hothers, hresult⟩ := bind_eq_ok_iff.mp hscan
      cases hresult
      obtain ⟨first, hfirst, htoken⟩ := tokenSegments_of_scanOne hleft hone
      obtain ⟨segments, hsegments, hsource⟩ := ih hothers
      rw [← hsegments] at htoken
      rw [hfirst.offset_eq] at hsource
      refine ⟨first ++ segments, ?_, .cons htoken hsource⟩
      rw [spelling_append, hsegments, hfirst.rest_eq]

end Sources

end MustacheHtml.Template
