import Mathlib.Data.List.Infix
import MustacheHtml.Proofs.Template.Finding

namespace MustacheHtml.Template

/-- From one place to another stands just this text. -/
structure Cursor.Passes (cursor : Cursor) (span : List Char) (next : Cursor) : Prop where
  rest_eq : cursor.rest = span ++ next.rest
  offset_eq : next.offset = cursor.offset + Text.byteLength span

namespace Cursor

variable {cursor middle next : Cursor} {span front back : List Char}

theorem passes_refl (cursor : Cursor) : cursor.Passes [] cursor :=
  ⟨rfl, rfl⟩

theorem Passes.trans (hfront : cursor.Passes front middle) (hback : middle.Passes back next) :
    cursor.Passes (front ++ back) next := by
  constructor
  · rw [hfront.rest_eq, hback.rest_eq, List.append_assoc]
  · rw [hback.offset_eq, hfront.offset_eq, Text.byteLength_append, Nat.add_assoc]

theorem Passes.next_eq (hpasses : cursor.Passes span next) :
    next = ⟨cursor.offset + Text.byteLength span, next.rest⟩ := by
  rw [← hpasses.offset_eq]

theorem Passes.ne_nil (hpasses : cursor.Passes span next)
    (hshorter : next.rest.length < cursor.rest.length) : span ≠ [] := by
  rintro rfl
  rw [hpasses.rest_eq] at hshorter
  exact Nat.lt_irrefl _ hshorter

theorem passes_advance (cursor : Cursor) (count : Nat) :
    cursor.Passes (cursor.rest.take count) (cursor.advance count) :=
  ⟨(List.take_append_drop count cursor.rest).symm, rfl⟩

theorem passes_of_prefix (hstarts : span <+: cursor.rest) :
    cursor.Passes span (cursor.advance span.length) := by
  have htake : cursor.rest.take span.length = span := (List.prefix_iff_eq_take.mp hstarts).symm
  have hpasses := cursor.passes_advance span.length
  rwa [htake] at hpasses

theorem passes_skipSpace (cursor : Cursor) :
    cursor.Passes (cursor.rest.takeWhile Text.isSpace) cursor.skipSpace :=
  passes_of_prefix (List.takeWhile_prefix Text.isSpace)

end Cursor

/-- The span ends with the mark, which occurs nowhere before in it. -/
def EndsAtFirst (mark span : List Char) : Prop :=
  mark <:+ span ∧ ¬ mark <:+: span.dropLast

section Marks

variable {mark text before after : List Char}

theorem endsAtFirst_of_cut? (hmark : mark ≠ [])
    (hcut : Text.cut? mark text = some (before, after)) :
    EndsAtFirst mark (before ++ mark) := by
  refine ⟨List.suffix_append before mark, ?_⟩
  induction text generalizing before after with
  | nil =>
      rw [Text.cut?, if_neg hmark] at hcut
      cases hcut
  | cons c rest ih =>
      rw [Text.cut?] at hcut
      split at hcut
      · cases hcut
        intro hinfix
        have hlength := hinfix.length_le
        have hpos := List.length_pos_iff.mpr hmark
        rw [List.nil_append, List.length_dropLast] at hlength
        omega
      · next hnot =>
          obtain ⟨⟨before', after'⟩, hfound, hsame⟩ := Option.map_eq_some_iff.mp hcut
          cases hsame
          have hjoined := Text.cut?_eq_append hfound
          have hnonempty : before' ++ mark ≠ [] := by simp [hmark]
          rw [List.cons_append, List.dropLast_cons_of_ne_nil hnonempty, List.infix_cons_iff, not_or]
          refine ⟨?_, ih hfound⟩
          intro hstarts
          apply hnot
          rw [List.isPrefixOf_iff_prefix]
          refine hstarts.trans ?_
          rw [hjoined, List.cons_prefix_cons]
          exact ⟨rfl, (List.dropLast_prefix _).trans (List.prefix_append _ _)⟩

theorem passes_skipPast {fault : Fault} {cursor next : Cursor} (hmark : mark ≠ [])
    (hskip : skipPast mark fault cursor = .ok next) :
    ∃ span, cursor.Passes span next ∧ EndsAtFirst mark span := by
  unfold skipPast at hskip
  split at hskip
  · next before after hcut =>
      cases hskip
      refine ⟨before ++ mark, ?_, endsAtFirst_of_cut? hmark hcut⟩
      rw [← List.length_append]
      apply Cursor.passes_of_prefix
      rw [Text.cut?_eq_append hcut]
      exact List.prefix_append _ _
  · cases hskip

theorem opening_prefix {opening span text : List Char} (hopening : opening <+: text)
    (hspan : span <+: text) (hends : mark <:+ span) (hapart : ¬ mark <:+: opening) :
    opening <+: span := by
  rcases List.prefix_or_prefix_of_prefix hopening hspan with hwithin | hshort
  · exact hwithin
  · exact absurd (hends.isInfix.trans hshort.isInfix) hapart

end Marks

section Mustaches

variable {cursor next : Cursor}

/-- Reading on from the state through the text ends within a string. -/
def InString (state : BodyState) (text : List Char) : Prop :=
  ∃ quote, text.foldl BodyState.next state = .quoted quote

/-- The first two closing braces outside a string are those after the body. -/
structure ClosesAfter (state : BodyState) (body : List Char) : Prop where
  outside : ¬ InString state body
  first : ∀ front back, body ++ ['}', '}'] = front ++ '}' :: '}' :: back → back ≠ [] →
    InString state front

theorem ClosesAfter.nil {state : BodyState} (hstate : ∀ quote, state ≠ .quoted quote) :
    ClosesAfter state [] := by
  constructor
  · rintro ⟨quote, hquoted⟩
    exact hstate quote hquoted
  · intro front back hsplit hback
    have hlength := congrArg List.length hsplit
    have hpos := List.length_pos_iff.mpr hback
    simp only [List.length_append, List.length_cons, List.length_nil] at hlength
    omega

theorem ClosesAfter.cons {state : BodyState} {c : Char} {body : List Char}
    (hbody : ClosesAfter (state.next c) body)
    (hfirst : ∀ back, c :: body ++ ['}', '}'] = '}' :: '}' :: back → InString state []) :
    ClosesAfter state (c :: body) := by
  constructor
  · exact hbody.outside
  · intro front back hsplit hback
    cases front with
    | nil => exact hfirst back hsplit
    | cons first front =>
        obtain ⟨rfl, htail⟩ := List.cons.inj hsplit
        exact hbody.first front back htail hback

theorem scanBody_closes {state : BodyState} {text body : List Char}
    (hscan : scanBody state text = .ok body) :
    ClosesAfter state body ∧ ∃ after, text = body ++ '}' :: '}' :: after := by
  fun_induction scanBody state text generalizing body with
  | case1 quote => cases hscan
  | case2 quote c rest ih =>
      obtain ⟨others, hothers, hjoin⟩ := bind_eq_ok_iff.mp hscan
      cases hjoin
      obtain ⟨hcloses, after, rfl⟩ := ih hothers
      exact ⟨.cons hcloses fun _ _ => ⟨quote, rfl⟩, after, rfl⟩
  | case3 state hstate => cases hscan
  | case4 state after hstate =>
      cases hscan
      exact ⟨.nil hstate, after, rfl⟩
  | case5 state c rest hstate hbraces ih =>
      obtain ⟨others, hothers, hjoin⟩ := bind_eq_ok_iff.mp hscan
      cases hjoin
      obtain ⟨hcloses, after, rfl⟩ := ih hothers
      refine ⟨.cons hcloses ?_, after, rfl⟩
      intro back hsplit
      obtain ⟨rfl, htail⟩ := List.cons.inj hsplit
      have htail : others ++ ['}', '}'] = '}' :: back := htail
      refine (hbraces (back ++ after) rfl ?_).elim
      rw [← List.cons_append, ← htail, List.append_assoc]
      rfl

/-- The braces that a mustache begins with. -/
def openingBraces (escaped : Bool) : List Char :=
  if escaped then ['{', '{'] else ['{', '{', '{']

/-- A mustache that is inserted as markup may close with two braces or with three. -/
inductive ClosingBraces : Bool → List Char → Prop where
  | two (escaped : Bool) : ClosingBraces escaped ['}', '}']
  | three : ClosingBraces false ['}', '}', '}']

/-- How a mustache, or a comment in its place, is written. -/
inductive MustacheSpan (offset : Nat) : Option RawMustache → List Char → Prop where
  | dashedComment {span : List Char} (hopens : ['{', '{', '!', '-', '-'] <+: span)
      (hends : EndsAtFirst ['-', '-', '}', '}'] span) : MustacheSpan offset none span
  | comment {span : List Char} (hopens : ['{', '{', '!'] <+: span)
      (hplain : ¬ ['{', '{', '!', '-', '-'] <+: span) (hends : EndsAtFirst ['}', '}'] span) :
      MustacheSpan offset none span
  | mustache {escaped : Bool} {body closing : List Char} (hbody : ClosesAfter .tokenStart body)
      (hclosing : ClosingBraces escaped closing) :
      MustacheSpan offset (some ⟨String.ofList (Text.trimBlank body), escaped, offset⟩)
        (openingBraces escaped ++ body ++ closing)

theorem rest_eq_opening {text : List Char} (hstarts : startsMustache text = true) :
    text = openingBraces (!isTriple text) ++ text.drop (openingLength text) := by
  unfold startsMustache at hstarts
  split at hstarts
  · next rest =>
      unfold openingLength
      cases htriple : isTriple ('{' :: '{' :: rest) with
      | false => rfl
      | true =>
          unfold isTriple at htriple
          split at htriple
          · next hrest =>
              cases hrest
              rfl
          · cases htriple
  · cases hstarts

theorem length_openingBraces (text : List Char) :
    (openingBraces (!isTriple text)).length = openingLength text := by
  unfold openingLength openingBraces
  cases isTriple text <;> rfl

theorem passes_scanPlainMustache {mustache : RawMustache}
    (hstarts : startsMustache cursor.rest = true)
    (hscan : scanPlainMustache cursor = .ok (mustache, next)) :
    ∃ span, cursor.Passes span next ∧ MustacheSpan cursor.offset (some mustache) span := by
  have hopening := rest_eq_opening hstarts
  have hlength := length_openingBraces cursor.rest
  unfold scanPlainMustache at hscan
  split at hscan
  · cases hscan
  · next body hbody =>
      obtain ⟨hcloses, after, hafter⟩ := scanBody_closes hbody
      let opening := openingBraces (!isTriple cursor.rest)
      have hrest : cursor.rest = opening ++ body ++ ['}', '}'] ++ after := by
        rw [hopening, hafter]
        simp [opening]
      have hclosed : cursor.Passes (opening ++ body ++ ['}', '}'])
          (cursor.advance (openingLength cursor.rest + body.length + 2)) := by
        have hcount : (opening ++ body ++ ['}', '}']).length =
            openingLength cursor.rest + body.length + 2 := by
          simp only [opening, List.length_append, hlength]
          rfl
        rw [← hcount]
        apply Cursor.passes_of_prefix
        rw [hrest]
        exact List.prefix_append _ _
      dsimp only at hscan
      split at hscan
      · next hthree =>
          obtain ⟨htriple, hbrace⟩ : isTriple cursor.rest = true ∧
              (cursor.advance (openingLength cursor.rest + body.length + 2)).rest.head? =
                some '}' := by
            simpa using hthree
          cases hscan
          have hbrace := Cursor.passes_of_prefix
            (List.singleton_prefix_iff_head?_eq_some.mpr hbrace)
          refine ⟨_, hclosed.trans hbrace, ?_⟩
          simp only [opening, htriple, List.append_assoc]
          rw [← List.append_assoc]
          exact .mustache hcloses .three
      · cases hscan
        exact ⟨_, hclosed, .mustache hcloses (.two _)⟩

theorem passes_scanMustache {mustache? : Option RawMustache}
    (hstarts : startsMustache cursor.rest = true)
    (hscan : scanMustache cursor = .ok (mustache?, next)) :
    ∃ span, cursor.Passes span next ∧ MustacheSpan cursor.offset mustache? span := by
  unfold scanMustache at hscan
  split at hscan
  · next hdashes =>
      obtain ⟨place, hskip, hresult⟩ := bind_eq_ok_iff.mp hscan
      cases hresult
      obtain ⟨span, hpasses, hends⟩ := passes_skipPast (by decide) hskip
      refine ⟨span, hpasses, .dashedComment ?_ hends⟩
      refine opening_prefix (List.isPrefixOf_iff_prefix.mp hdashes) ?_ hends.1 (by decide)
      rw [hpasses.rest_eq]
      exact List.prefix_append _ _
  · next hplain =>
      split at hscan
      · next hbang =>
          obtain ⟨place, hskip, hresult⟩ := bind_eq_ok_iff.mp hscan
          cases hresult
          obtain ⟨span, hpasses, hends⟩ := passes_skipPast (by decide) hskip
          have hwithin : span <+: cursor.rest := by
            rw [hpasses.rest_eq]
            exact List.prefix_append _ _
          refine ⟨span, hpasses, .comment ?_ ?_ hends⟩
          · exact opening_prefix (List.isPrefixOf_iff_prefix.mp hbang) hwithin hends.1 (by decide)
          · intro hdashes
            exact hplain (List.isPrefixOf_iff_prefix.mpr (hdashes.trans hwithin))
      · obtain ⟨⟨mustache, place⟩, hfound, hresult⟩ := bind_eq_ok_iff.mp hscan
        cases hresult
        exact passes_scanPlainMustache hstarts hfound

end Mustaches

section Attributes

variable {cursor next : Cursor}

theorem Cursor.FindsParts.passes {stops : Char → Bool} {parts : List RawPart}
    (hfinds : cursor.FindsParts stops parts next) : ∃ span, cursor.Passes span next := by
  induction hfinds with
  | @done cursor hends => exact ⟨[], cursor.passes_refl⟩
  | mustache hstarts hbrace hscan _ ih =>
      obtain ⟨front, hfront, -⟩ := passes_scanMustache hstarts hscan
      obtain ⟨back, hback⟩ := ih
      exact ⟨front ++ back, hfront.trans hback⟩
  | literal hspan hnonempty _ ih =>
      obtain ⟨back, hback⟩ := ih
      exact ⟨_, (Cursor.passes_advance _ _).trans hback⟩

theorem Cursor.FindsValue.passes {parts : List RawPart} (hfinds : cursor.FindsValue parts next) :
    ∃ span, cursor.Passes span next := by
  cases hfinds with
  | @quoted quote after parts last hrest hquote hinner hclosed =>
      obtain ⟨inner, hpasses⟩ := hinner.passes
      exact ⟨_, ((cursor.passes_advance 1).trans hpasses).trans (last.passes_advance 1)⟩
  | unquoted hrest hquote hend hinner => exact hinner.passes

variable {name : List Char} {named : Cursor}

theorem Cursor.Names.passes_name (hnamed : cursor.Names name named) :
    cursor.Passes name (cursor.advance name.length) := by
  apply Cursor.passes_of_prefix
  rw [hnamed.name_eq]
  exact List.takeWhile_prefix isAttributeNameChar

theorem Cursor.Names.passes (hnamed : cursor.Names name named) :
    ∃ span, cursor.Passes span named := by
  rw [hnamed.named_eq]
  exact ⟨_, hnamed.passes_name.trans (Cursor.passes_skipSpace _)⟩

theorem Cursor.Names.passes_equals (hnamed : cursor.Names name named) :
    ∃ span, cursor.Passes span (named.advance 1).skipSpace := by
  obtain ⟨front, hfront⟩ := hnamed.passes
  exact ⟨_, (hfront.trans (named.passes_advance 1)).trans (Cursor.passes_skipSpace _)⟩

theorem Cursor.FindsAttribute.passes {attr : RawAttribute}
    (hfinds : cursor.FindsAttribute attr next) : ∃ span, cursor.Passes span next := by
  cases hfinds with
  | bare hnamed hbare => exact hnamed.passes
  | assigned hnamed hequals hvalue =>
      obtain ⟨front, hfront⟩ := hnamed.passes_equals
      obtain ⟨inner, hinner⟩ := hvalue.passes
      exact ⟨_, hfront.trans hinner⟩

end Attributes

section Tags

variable {cursor next : Cursor}

theorem passes_tagName (mark : List Char) {after : List Char}
    (hrest : cursor.rest = mark ++ after) :
    cursor.Passes (mark ++ after.takeWhile isNameChar)
      (cursor.advance (mark.length + (after.takeWhile isNameChar).length)) := by
  rw [← List.length_append]
  apply Cursor.passes_of_prefix
  rw [hrest, List.prefix_append_right_inj]
  exact List.takeWhile_prefix isNameChar

theorem Cursor.FindsTagEnd.passes {tagEnd : TagEnd} (hfinds : cursor.FindsTagEnd tagEnd next) :
    ∃ inner, cursor.Passes (inner ++ ['>']) next := by
  induction hfinds with
  | @closed cursor rest hrest =>
      have hend : cursor.skipSpace.Passes ['>'] (cursor.skipSpace.advance 1) :=
        Cursor.passes_of_prefix (hrest ▸ ⟨rest, rfl⟩)
      exact ⟨_, cursor.passes_skipSpace.trans hend⟩
  | @selfClosed cursor rest hrest =>
      have hend : cursor.skipSpace.Passes (['/'] ++ ['>']) (cursor.skipSpace.advance 2) :=
        Cursor.passes_of_prefix (hrest ▸ ⟨rest, rfl⟩)
      refine ⟨cursor.rest.takeWhile Text.isSpace ++ ['/'], ?_⟩
      rw [List.append_assoc]
      exact cursor.passes_skipSpace.trans hend
  | @cons cursor place next attr tagEnd hplain hattr _ ih =>
      obtain ⟨front, hfront⟩ := hattr.passes
      obtain ⟨inner, hinner⟩ := ih
      refine ⟨cursor.rest.takeWhile Text.isSpace ++ front ++ inner, ?_⟩
      rw [List.append_assoc]
      exact (cursor.passes_skipSpace.trans hfront).trans hinner

end Tags

end MustacheHtml.Template
