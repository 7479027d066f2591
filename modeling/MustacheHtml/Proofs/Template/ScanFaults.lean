import MustacheHtml.Proofs.Template.TagPlaces

namespace MustacheHtml.Template

/-- The opening stands here, and the mark that would end what it opens does not follow. -/
structure Endless (opening mark text : List Char) : Prop where
  opens : opening <+: text
  endless : ¬ mark <:+: text

/-- A mustache begins here that is no comment, and no closing braces follow but in strings. -/
structure OpenMustache (text body : List Char) : Prop where
  opens : ['{', '{'] <+: text
  plain : ¬ ['{', '{', '!'] <+: text
  body_eq : body = text.drop (openingLength text)
  endless : ∀ front back, body = front ++ '}' :: '}' :: back → InString .tokenStart front

/-- An expression cannot be read, and the mustache that it stands in begins here. -/
inductive Misread (fault : Expression.Fault) (text : List Char) : Prop where
  | mustache {escaped : Bool} {body closing : List Char} (hbody : ClosesAfter .tokenStart body)
      (hclosing : ClosingBraces escaped closing)
      (hstands : openingBraces escaped ++ body ++ closing <+: text)
      (hread : Expression.read (Text.trimBlank body) = .error fault)

/-- The rest of the source begins with what the fault is about. -/
def Fault.Concerns (source rest : List Char) : Fault → Prop
  | .unterminatedMustache => ∃ body, OpenMustache rest body ∧ ¬ InString .tokenStart body
  | .unterminatedString => ∃ body, OpenMustache rest body ∧ InString .tokenStart body
  | .unterminatedComment =>
      Endless ['{', '{', '!', '-', '-'] ['-', '-', '}', '}'] rest ∨
        (Endless ['{', '{', '!'] ['}', '}'] rest ∧ ¬ ['{', '{', '!', '-', '-'] <+: rest) ∨
        Endless ['<', '!', '-', '-'] ['-', '-', '>'] rest
  | .unterminatedDeclaration =>
      Endless ['<', '!'] ['>'] rest ∧ ¬ ['<', '!', '-', '-'] <+: rest
  | .malformedClosingTag => ClosesTag [] rest
  | .unterminatedClosingTag name =>
      name ≠ "" ∧ ClosesTag name.toList rest ∧
        ¬ ['>'] <+: ((rest.drop 2).dropWhile isNameChar).dropWhile Text.isSpace
  | .unterminatedTag name =>
      OpensTag name.toList rest ∧ Attributes (behindTagName rest) []
  | .mustacheInTag name => InTag source name.toList rest ∧ ['{', '{'] <+: rest
  | .malformedAttribute => ∃ tag c after, InTag source tag rest ∧ rest = c :: after ∧
      isAttributeNameChar c = false ∧ ¬ ['>'] <+: rest ∧ ¬ ['/', '>'] <+: rest
  | .unterminatedValue name => ∃ tag quote value, InTag source tag rest ∧
      NamesAttribute name.toList rest ∧ Assigns rest (quote :: value) ∧
      Text.isQuote quote = true ∧ ValueTo (· == quote) value []
  | .missingValue name => ∃ tag value, InTag source tag rest ∧
      NamesAttribute name.toList rest ∧ Assigns rest value ∧ ∀ c ∈ value.head?, c = '>'
  | .unclosedElement tag => OpensTag tag.toList rest
  | .mismatchedClosingTag name _ => name ≠ "" ∧ ClosesTag name.toList rest
  | .unexpectedClosingTag name => name ≠ "" ∧ ClosesTag name.toList rest
  | .expression fault => Misread fault rest

/-- At the offset of the fault, behind the cursor, stands what the fault is about. -/
def Cursor.Blames (source : List Char) (cursor : Cursor) (found : FaultAt) : Prop :=
  ∃ span place, cursor.Passes span place ∧ found.offset = place.offset ∧
    found.fault.Concerns source place.rest

variable {source : List Char} {cursor next : Cursor} {found : FaultAt} {fault : Fault}

theorem Cursor.blames_here (hconcerns : fault.Concerns source cursor.rest) :
    cursor.Blames source ⟨cursor.offset, fault⟩ :=
  ⟨[], cursor, cursor.passes_refl, rfl, hconcerns⟩

theorem Cursor.Passes.blames {front : List Char} (hfront : cursor.Passes front next)
    (hblames : next.Blames source found) : cursor.Blames source found := by
  obtain ⟨span, place, hspan, hoffset, hconcerns⟩ := hblames
  exact ⟨front ++ span, place, hfront.trans hspan, hoffset, hconcerns⟩

section Mustaches

theorem not_infix_of_cut? {mark text : List Char} (hcut : Text.cut? mark text = none) :
    ¬ mark <:+: text := by
  induction text with
  | nil =>
      rw [Text.cut?] at hcut
      split at hcut
      · cases hcut
      · next hmark => rwa [List.infix_nil]
  | cons c rest ih =>
      rw [Text.cut?] at hcut
      split at hcut
      · cases hcut
      · next hnot =>
          rw [List.infix_cons_iff, not_or]
          exact ⟨fun hstarts => hnot (List.isPrefixOf_iff_prefix.mpr hstarts),
            ih (Option.map_eq_none_iff.mp hcut)⟩

theorem skipPast_eq_error {mark opening : List Char} (hopens : opening <+: cursor.rest)
    (hskip : skipPast mark fault cursor = .error found) :
    found = ⟨cursor.offset, fault⟩ ∧ Endless opening mark cursor.rest := by
  unfold skipPast at hskip
  split at hskip
  · cases hskip
  · next hcut =>
      cases hskip
      exact ⟨rfl, hopens, not_infix_of_cut? hcut⟩

theorem scanBody_eq_error {state : BodyState} {text : List Char}
    (hscan : scanBody state text = .error fault) :
    (∀ front back, text = front ++ '}' :: '}' :: back → InString state front) ∧
      (fault = .unterminatedMustache ∧ ¬ InString state text ∨
        fault = .unterminatedString ∧ InString state text) := by
  fun_induction scanBody state text with
  | case1 quote =>
      cases hscan
      refine ⟨fun front back hsplit => ?_, .inr ⟨rfl, quote, rfl⟩⟩
      cases front <;> cases hsplit
  | case2 quote c rest ih =>
      rcases bind_eq_error_iff.mp hscan with hrest | ⟨others, -, hjoin⟩
      · obtain ⟨hendless, hfault⟩ := ih hrest
        refine ⟨fun front back hsplit => ?_, hfault⟩
        cases front with
        | nil => exact ⟨quote, rfl⟩
        | cons first front =>
            obtain ⟨rfl, htail⟩ := List.cons.inj hsplit
            exact hendless front back htail
      · cases hjoin
  | case3 state hstate =>
      cases hscan
      have houtside : ¬ InString state [] := by
        rintro ⟨quote, hquoted⟩
        exact hstate quote hquoted
      refine ⟨fun front back hsplit => ?_, .inl ⟨rfl, houtside⟩⟩
      cases front <;> cases hsplit
  | case4 state after hstate => cases hscan
  | case5 state c rest hstate hbraces ih =>
      rcases bind_eq_error_iff.mp hscan with hrest | ⟨others, -, hjoin⟩
      · obtain ⟨hendless, hfault⟩ := ih hrest
        refine ⟨fun front back hsplit => ?_, hfault⟩
        cases front with
        | nil =>
            obtain ⟨rfl, rfl⟩ := List.cons.inj hsplit
            exact absurd rfl (hbraces back rfl)
        | cons first front =>
            obtain ⟨rfl, htail⟩ := List.cons.inj hsplit
            exact hendless front back htail
      · cases hjoin

theorem blames_scanMustache (hstarts : startsMustache cursor.rest = true)
    (hscan : scanMustache cursor = .error found) : cursor.Blames source found := by
  have hopens := startsMustache_iff.mp hstarts
  unfold scanMustache at hscan
  split at hscan
  · next hdashes =>
      rcases bind_eq_error_iff.mp hscan with hskip | ⟨place, -, hresult⟩
      · obtain ⟨rfl, hendless⟩ := skipPast_eq_error (List.isPrefixOf_iff_prefix.mp hdashes) hskip
        exact Cursor.blames_here (.inl hendless)
      · cases hresult
  · next hdashes =>
      split at hscan
      · next hbang =>
          rcases bind_eq_error_iff.mp hscan with hskip | ⟨place, -, hresult⟩
          · obtain ⟨rfl, hendless⟩ := skipPast_eq_error (List.isPrefixOf_iff_prefix.mp hbang) hskip
            have hplain := fun hopening => hdashes (List.isPrefixOf_iff_prefix.mpr hopening)
            exact Cursor.blames_here (.inr (.inl ⟨hendless, hplain⟩))
          · cases hresult
      · next hbang =>
          have hplain := fun hopening => hbang (List.isPrefixOf_iff_prefix.mpr hopening)
          rcases bind_eq_error_iff.mp hscan with hbody | ⟨place, -, hresult⟩
          · unfold scanPlainMustache at hbody
            split at hbody
            · next fault hfault =>
                cases hbody
                obtain ⟨hendless, hfault⟩ := scanBody_eq_error hfault
                have hopen : OpenMustache cursor.rest _ := ⟨hopens, hplain, rfl, hendless⟩
                rcases hfault with ⟨rfl, houtside⟩ | ⟨rfl, hinside⟩
                · exact Cursor.blames_here ⟨_, hopen, houtside⟩
                · exact Cursor.blames_here ⟨_, hopen, hinside⟩
            · next body _ =>
                dsimp only at hbody
                split at hbody <;> cases hbody
          · cases hresult

end Mustaches

section Attributes

theorem blames_scanValue {stops : Char → Bool} (hscan : scanValue stops cursor = .error found) :
    cursor.Blames source found := by
  fun_induction scanValue stops cursor with
  | case1 cursor hrest => cases hscan
  | case2 cursor c rest hrest hstop => cases hscan
  | case3 cursor c rest hrest hstop hstarts fault hfault =>
      cases hscan
      rw [← hrest] at hstarts
      exact blames_scanMustache hstarts hfault
  | case4 cursor c rest hrest hstop hstarts mustache? place hfound ih =>
      rcases bind_eq_error_iff.mp hscan with hothers | ⟨⟨others, last⟩, -, hresult⟩
      · rw [← hrest] at hstarts
        obtain ⟨span, hspan, -⟩ := passes_scanMustache hstarts hfound
        exact hspan.blames (ih hothers)
      · cases hresult
  | case5 cursor c rest hrest hstop hstarts ih =>
      rcases bind_eq_error_iff.mp hscan with hothers | ⟨⟨others, last⟩, -, hresult⟩
      · exact (cursor.passes_advance _).blames (ih hothers)
      · cases hresult

theorem ValueTo.ends {stops : Char → Bool} {text rest : List Char}
    (hvalue : ValueTo stops text rest) : ∀ c ∈ rest.head?, stops c = true := by
  induction hvalue with
  | done hends => exact hends
  | char _ _ _ ih => exact ih
  | mustache _ _ _ ih => exact ih

variable {name tag : List Char} {place : Cursor} {span : List Char}

theorem blames_scanAssigned (htag : InTag source tag cursor.rest)
    (hname : NamesAttribute name cursor.rest) (hspan : cursor.Passes span place)
    (hassigns : Assigns cursor.rest place.rest)
    (hscan : scanAssigned cursor.offset (String.ofList name) place = .error found) :
    cursor.Blames source found := by
  have hnamed : NamesAttribute (String.ofList name).toList cursor.rest := by
    rwa [String.toList_ofList]
  unfold scanAssigned at hscan
  split at hscan
  · next hrest =>
      cases hscan
      exact Cursor.blames_here ⟨tag, _, htag, hnamed, hassigns, by simp [hrest]⟩
  · next c value hrest =>
      split at hscan
      · next hquote =>
          rcases bind_eq_error_iff.mp hscan with hvalue | ⟨⟨parts, last⟩, hvalue, hresult⟩
          · exact (hspan.trans (place.passes_advance 1)).blames (blames_scanValue hvalue)
          · dsimp only at hresult
            split at hresult
            · cases hresult
            · next hopen =>
                cases hresult
                have hinner := (scanValue_eq_ok_iff.mp hvalue).valueTo
                have hend : last.rest = [] := by
                  cases hlast : last.rest with
                  | nil => rfl
                  | cons d more =>
                      have hstop := hinner.ends d (by rw [hlast]; rfl)
                      refine absurd ?_ hopen
                      rw [hlast, List.head?_cons, eq_of_beq hstop]
                rw [Cursor.rest_advance_one hrest, hend] at hinner
                rw [hrest] at hassigns
                exact Cursor.blames_here ⟨tag, c, value, htag, hnamed, hassigns, hquote, hinner⟩
      · split at hscan
        · next hend =>
            cases hscan
            exact Cursor.blames_here ⟨tag, _, htag, hnamed, hassigns, by simp [hrest, hend]⟩
        · exact hspan.blames (blames_scanValue hscan)

theorem blames_scanAttribute {c : Char} {after : List Char} (htag : InTag source tag cursor.rest)
    (hrest : cursor.rest = c :: after) (hplain : ¬ ['{', '{'] <+: cursor.rest)
    (hopen : ¬ ['>'] <+: cursor.rest) (hslash : ¬ ['/', '>'] <+: cursor.rest)
    (hscan : scanAttribute cursor = .error found) : cursor.Blames source found := by
  unfold scanAttribute at hscan
  dsimp only at hscan
  split at hscan
  · next hempty =>
      cases hscan
      have hc : isAttributeNameChar c = false := by
        rw [hrest, List.isEmpty_iff] at hempty
        by_contra hchar
        rw [List.takeWhile_cons_of_pos (Bool.of_not_eq_false hchar)] at hempty
        cases hempty
      exact Cursor.blames_here ⟨tag, c, after, htag, hrest, hc, hopen, hslash⟩
  · next hnonempty =>
      have hname : NamesAttribute (cursor.rest.takeWhile isAttributeNameChar) cursor.rest :=
        ⟨hplain, rfl, by simpa using hnonempty⟩
      split at hscan
      · next hequals =>
          obtain ⟨behind, hbehind⟩ := List.head?_eq_some_iff.mp hequals
          rcases bind_eq_error_iff.mp hscan with hvalue | ⟨⟨parts, last⟩, -, hresult⟩
          · have hspan := (((cursor.passes_advance
              (cursor.rest.takeWhile isAttributeNameChar).length).trans
                (Cursor.passes_skipSpace _)).trans (Cursor.passes_advance _ 1)).trans
                  (Cursor.passes_skipSpace _)
            refine blames_scanAssigned htag hname hspan ⟨behind, ?_, ?_⟩ hvalue
            · rw [← rest_behindName, hbehind]
            · rw [Cursor.rest_skipSpace, Cursor.rest_advance_one hbehind]
          · cases hresult
      · cases hscan

end Attributes

section Tags

theorem scanAttributes_eq_error {name : String} {offset : Nat} {text : List Char}
    (hsource : text <:+ source) (htag : OpensTag name.toList text)
    (hplace : Attributes (behindTagName text) cursor.skipSpace.rest)
    (hscan : scanAttributes name offset cursor = .error found) :
    (found = ⟨offset, .unterminatedTag name⟩ ∧ Attributes (behindTagName text) []) ∨
      cursor.Blames source found := by
  fun_induction scanAttributes name offset cursor with
  | case1 cursor hrest =>
      cases hscan
      exact .inl ⟨rfl, hrest ▸ hplace⟩
  | case2 cursor rest hrest => cases hscan
  | case3 cursor rest hrest => cases hscan
  | case4 cursor rest hrest =>
      cases hscan
      refine .inr (cursor.passes_skipSpace.blames (Cursor.blames_here ?_))
      exact ⟨⟨text, hsource, htag, hplace⟩, hrest ▸ ⟨rest, rfl⟩⟩
  | case5 cursor fault hfault hnil hend hslash hbraces =>
      cases hscan
      obtain ⟨c, after, hrest⟩ := List.exists_cons_of_ne_nil hnil
      have hintag : InTag source name.toList cursor.skipSpace.rest := ⟨text, hsource, htag, hplace⟩
      refine .inr (cursor.passes_skipSpace.blames
        (blames_scanAttribute hintag hrest ?_ ?_ ?_ hfault))
      · rintro ⟨rest, hopens⟩
        exact hbraces rest hopens.symm
      · rintro ⟨rest, hopens⟩
        exact hend rest hopens.symm
      · rintro ⟨rest, hopens⟩
        exact hslash rest hopens.symm
  | case6 cursor first place hfound hnil hend hslash hbraces ih =>
      have hplain : ¬ ['{', '{'] <+: cursor.skipSpace.rest := by
        rintro ⟨rest, hopens⟩
        exact hbraces rest hopens.symm
      rcases bind_eq_error_iff.mp hscan with hothers | ⟨⟨others, last⟩, -, hresult⟩
      · have hfirst := scanAttribute_eq_ok_iff.mp hfound
        have hnext := Attributes.next hplace (hfirst.attributeTo hplain)
        rw [← Cursor.rest_skipSpace] at hnext
        obtain ⟨span, hspan⟩ := hfirst.passes
        refine (ih hnext hothers).imp_right fun hblames => ?_
        exact (cursor.passes_skipSpace.trans hspan).blames hblames
      · cases hresult

theorem blames_scanStartTag {letter : Char} {after : List Char} (hsource : cursor.rest <:+ source)
    (hrest : cursor.rest = '<' :: letter :: after) (hletter : letter.isAlpha = true)
    (hscan : scanStartTag cursor = .error found) : cursor.Blames source found := by
  rcases bind_eq_error_iff.mp hscan with hattributes | ⟨⟨tagEnd, last⟩, -, hresult⟩
  · have htag : OpensTag (String.ofList ((cursor.rest.drop 1).takeWhile isNameChar)).toList
        cursor.rest := by
      refine ⟨letter, after, hletter, hrest, ?_⟩
      rw [String.toList_ofList, hrest, List.drop_succ_cons, List.drop_zero]
    let place := cursor.advance (1 + ((cursor.rest.drop 1).takeWhile isNameChar).length)
    have hplace : Attributes (behindTagName cursor.rest) place.skipSpace.rest := by
      rw [Cursor.rest_skipSpace, rest_advance_name, ← behindTagName]
      exact .first _
    rcases scanAttributes_eq_error hsource htag hplace hattributes with ⟨rfl, hend⟩ | hblames
    · exact Cursor.blames_here ⟨htag, hend⟩
    · exact (cursor.passes_advance _).blames hblames
  · cases hresult

theorem blames_scanEndTag {after : List Char} (hrest : cursor.rest = '<' :: '/' :: after)
    (hscan : scanEndTag cursor = .error found) : cursor.Blames source found := by
  have htag : ClosesTag ((cursor.rest.drop 2).takeWhile isNameChar) cursor.rest :=
    ⟨after, hrest, by rw [hrest, List.drop_succ_cons, List.drop_succ_cons, List.drop_zero]⟩
  unfold scanEndTag at hscan
  dsimp only at hscan
  split at hscan
  · next hempty =>
      cases hscan
      rw [List.isEmpty_iff.mp hempty] at htag
      exact Cursor.blames_here htag
  · next hname =>
      split at hscan
      · cases hscan
      · next hend =>
          cases hscan
          rw [Cursor.rest_skipSpace, rest_advance_name] at hend
          refine Cursor.blames_here ⟨?_, ?_, ?_⟩
          · rw [Ne, String.ofList_eq_empty_iff, ← List.isEmpty_iff]
            exact hname
          · rwa [String.toList_ofList]
          · exact fun hopens => hend (List.singleton_prefix_iff_head?_eq_some.mp hopens)

theorem blames_scanOne (hsource : cursor.rest <:+ source) (hscan : scanOne cursor = .error found) :
    cursor.Blames source found := by
  unfold scanOne at hscan
  split at hscan
  · next rest hrest =>
      rcases bind_eq_error_iff.mp hscan with hmustache | ⟨⟨raw?, place⟩, -, hresult⟩
      · exact blames_scanMustache (by rw [hrest]; rfl) hmustache
      · cases hresult
  · next rest hrest =>
      have hopens : ['<', '!', '-', '-'] <+: cursor.rest := hrest ▸ ⟨rest, rfl⟩
      rcases bind_eq_error_iff.mp hscan with hskip | ⟨place, -, hresult⟩
      · obtain ⟨rfl, hendless⟩ := skipPast_eq_error hopens hskip
        exact Cursor.blames_here (.inr (.inr hendless))
      · cases hresult
  · next rest hplain hrest =>
      have hopens : ['<', '!'] <+: cursor.rest := hrest ▸ ⟨rest, rfl⟩
      rcases bind_eq_error_iff.mp hscan with hskip | ⟨place, -, hresult⟩
      · obtain ⟨rfl, hendless⟩ := skipPast_eq_error hopens hskip
        refine Cursor.blames_here ⟨hendless, ?_⟩
        rw [hrest]
        rintro ⟨after, hafter⟩
        exact hplain after (List.cons.inj (List.cons.inj hafter).2).2.symm
      · cases hresult
  · next rest hrest =>
      rcases bind_eq_error_iff.mp hscan with htag | ⟨⟨tag, place⟩, -, hresult⟩
      · exact blames_scanEndTag hrest htag
      · cases hresult
  · next c rest _ hbang hslash hrest =>
      split at hscan
      · next halpha =>
          rcases bind_eq_error_iff.mp hscan with htag | ⟨⟨tag, place⟩, -, hresult⟩
          · exact blames_scanStartTag hsource hrest halpha htag
          · cases hresult
      · cases hscan
  · cases hscan

/-- A scan that fails tells the offset of what it fails on. -/
theorem blames_tokensFrom (hsource : cursor.rest <:+ source)
    (hscan : tokensFrom cursor = .error found) : cursor.Blames source found := by
  fun_induction tokensFrom cursor with
  | case1 cursor hend => cases hscan
  | case2 cursor hleft fault hfault =>
      cases hscan
      exact blames_scanOne hsource hfault
  | case3 cursor hleft token? next hone ih =>
      rcases bind_eq_error_iff.mp hscan with hothers | ⟨others, -, hresult⟩
      · obtain ⟨span, hspan, -⟩ := scanOne_piece hleft hone
        have hwithin : next.rest <:+ cursor.rest := ⟨span, hspan.rest_eq.symm⟩
        exact hspan.blames (ih (hwithin.trans hsource) hothers)
      · cases hresult

end Tags

end MustacheHtml.Template
