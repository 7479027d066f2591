import MustacheHtml.Proofs.Expression.WrittenCall
import MustacheHtml.Proofs.Template.Balanced
import MustacheHtml.Proofs.Template.Passing
import MustacheHtml.Proofs.Template.Scanning

namespace MustacheHtml.Template

open MustacheHtml.Expression (AllSpace IsIdentifier IsPath IsPlain IsWord Spaced WrittenArgument
  WrittenCall WrittenPair pathText)

section Bodies

/-- From one state to the next, the scan of a body takes the text in. -/
def TakesIn (state : BodyState) (text : List Char) (next : BodyState) : Prop :=
  ∀ after body, scanBody next after = .ok body → scanBody state (text ++ after) = .ok (text ++ body)

/-- The state is not inside a string. -/
def Unquoted (state : BodyState) : Prop :=
  ∀ quote, state ≠ .quoted quote

theorem unquoted_tokenStart : Unquoted .tokenStart :=
  nofun

theorem unquoted_inToken : Unquoted .inToken :=
  nofun

variable {state middle next : BodyState} {front back text : List Char}

theorem TakesIn.nil (state : BodyState) : TakesIn state [] state :=
  fun _ _ hbody => hbody

theorem TakesIn.append (hfront : TakesIn state front middle) (hback : TakesIn middle back next) :
    TakesIn state (front ++ back) next := by
  intro after body hbody
  rw [List.append_assoc, List.append_assoc]
  exact hfront _ _ (hback after body hbody)

theorem takesIn_char {c : Char} (hstate : Unquoted state) (hc : c ≠ '}') :
    TakesIn state [c] (state.next c) := by
  intro after body hbody
  rw [List.singleton_append, scanBody, hbody]
  · rfl
  · exact fun _ hbrace => absurd hbrace hc
  · exact hstate

theorem next_plain {c : Char} (hstate : Unquoted state) (hc : IsPlain c) :
    state.next c = .inToken := by
  have hspace : Text.isSpace c = false := by
    rw [← Bool.not_eq_true]
    intro hspace
    exact Bool.false_ne_true (hc.notBlank.symm.trans (Text.isBlank_of_isSpace c hspace))
  cases state with
  | quoted quote => exact absurd rfl (hstate quote)
  | tokenStart => simp [BodyState.next, hc.notQuote, hspace, hc.notEquals]
  | inToken => simp [BodyState.next, hspace, hc.notEquals]

theorem takesIn_plain (hstate : Unquoted state) (hnonempty : text ≠ [])
    (hplain : ∀ c ∈ text, IsPlain c) : TakesIn state text .inToken := by
  induction text generalizing state with
  | nil => exact absurd rfl hnonempty
  | cons c others ih =>
      obtain ⟨hc, hothers⟩ := List.forall_mem_cons.mp hplain
      have hfirst := takesIn_char hstate hc.notBrace
      rw [next_plain hstate hc] at hfirst
      cases others with
      | nil => exact hfirst
      | cons second more => exact hfirst.append (ih unquoted_inToken (List.cons_ne_nil _ _) hothers)

theorem takesIn_quoted {quote : Char} {content : List Char} (hcontent : quote ∉ content) :
    TakesIn (.quoted quote) (content ++ [quote]) .inToken := by
  intro after body hbody
  induction content with
  | nil =>
      rw [List.nil_append, List.singleton_append, scanBody, BodyState.next, if_pos rfl, hbody]
      rfl
  | cons c others ih =>
      rw [List.mem_cons, not_or] at hcontent
      rw [List.cons_append, List.cons_append, scanBody, BodyState.next,
        if_neg (Ne.symm hcontent.1), ih hcontent.2]
      rfl

theorem takesIn_separator {c : Char} (hstate : Unquoted state)
    (hc : Text.isSpace c = true ∨ c = '=') : TakesIn state [c] .tokenStart := by
  have hquote : Text.isQuote c = false := by
    rcases hc with hspace | rfl
    · exact Expression.isQuote_of_isBlank (Text.isBlank_of_isSpace c hspace)
    · decide
  have hbrace : c ≠ '}' := by
    rintro rfl
    exact absurd hc (by decide)
  have hnext : state.next c = .tokenStart := by
    have hseparates : (Text.isSpace c || c == '=') = true := by simpa using hc
    cases state with
    | quoted quote => exact absurd rfl (hstate quote)
    | tokenStart =>
        simp only [BodyState.next, hquote, hseparates, Bool.false_eq_true, if_false, if_true]
    | inToken => simp only [BodyState.next, hseparates, if_true]
  rw [← hnext]
  exact takesIn_char hstate hbrace

theorem takesIn_isWord (hword : IsWord text) : TakesIn .tokenStart text .inToken := by
  induction hword with
  | plain hnonempty hplain => exact takesIn_plain unquoted_tokenStart hnonempty hplain
  | @string quote content hquote hcontent =>
      have hbrace : quote ≠ '}' := by
        rintro rfl
        exact absurd hquote (by decide)
      have hopened := takesIn_char unquoted_tokenStart hbrace
      rw [BodyState.next, if_pos hquote] at hopened
      exact hopened.append (takesIn_quoted hcontent)
  | @assigned key word hkey _ ih =>
      cases key with
      | nil => exact (takesIn_separator unquoted_tokenStart (.inr rfl)).append ih
      | cons c others =>
          have hfront := takesIn_plain unquoted_tokenStart (List.cons_ne_nil c others) hkey
          exact hfront.append ((takesIn_separator unquoted_inToken (.inr rfl)).append ih)

theorem takesIn_allSpace (hstate : Unquoted state) (hnonempty : text ≠ [])
    (hspace : AllSpace text) : TakesIn state text .tokenStart := by
  induction text generalizing state with
  | nil => exact absurd rfl hnonempty
  | cons c others ih =>
      obtain ⟨hc, hothers⟩ := List.forall_mem_cons.mp hspace
      have hfirst := takesIn_separator hstate (.inl hc)
      cases others with
      | nil => exact hfirst
      | cons second more =>
          exact hfirst.append (ih unquoted_tokenStart (List.cons_ne_nil _ _) hothers)

theorem takesIn_spaced {words : List (List Char)} (htext : Spaced words text)
    (hwords : ∀ word ∈ words, IsWord word) :
    ∃ next, Unquoted next ∧ TakesIn .inToken text next := by
  induction htext with
  | @nil blanks hblanks =>
      by_cases hempty : blanks = []
      · rw [hempty]
        exact ⟨.inToken, unquoted_inToken, .nil .inToken⟩
      · exact ⟨.tokenStart, unquoted_tokenStart, takesIn_allSpace unquoted_inToken hempty hblanks⟩
  | @cons blanks word text words hnonempty hblanks _ ih =>
      obtain ⟨hword, hothers⟩ := List.forall_mem_cons.mp hwords
      obtain ⟨next, hnext, hrest⟩ := ih hothers
      have hspace := takesIn_allSpace unquoted_inToken hnonempty hblanks
      exact ⟨next, hnext, hspace.append ((takesIn_isWord hword).append hrest)⟩

variable {name : List String} {params : List Param} {pairs : List (String × Param)}

theorem takesIn_writtenCall (hcall : WrittenCall name params pairs text) :
    ∃ next, Unquoted next ∧ TakesIn .tokenStart text next := by
  cases hcall with
  | @call blanks text paramWords pairWords hname _ _ hblanks hparams hpairs htext =>
      have hwords := Expression.isWord_arguments hparams hpairs
      obtain ⟨next, hnext, hrest⟩ := takesIn_spaced htext hwords
      have hfirst : TakesIn .tokenStart (pathText name) .inToken := by
        obtain ⟨c, others, hchars, -⟩ := hname.first
        exact takesIn_plain unquoted_tokenStart (by simp [hchars]) hname.plain
      refine ⟨next, hnext, ?_⟩
      by_cases hempty : blanks = []
      · rw [hempty]
        exact hfirst.append hrest
      · exact (takesIn_allSpace unquoted_tokenStart hempty hblanks).append (hfirst.append hrest)

theorem scanBody_writtenCall (hcall : WrittenCall name params pairs text) (after : List Char) :
    scanBody .tokenStart (text ++ '}' :: '}' :: after) = .ok text := by
  obtain ⟨next, hnext, htext⟩ := takesIn_writtenCall hcall
  have hclosed : scanBody next ('}' :: '}' :: after) = .ok [] := by
    rw [scanBody]
    exact hnext
  have hscan := htext _ _ hclosed
  rwa [List.append_nil] at hscan

theorem first_writtenCall (hcall : WrittenCall name params pairs text) :
    ∃ c others, text = c :: others ∧ c ≠ '{' ∧ c ≠ '!' := by
  cases hcall with
  | @call blanks text paramWords pairWords hname _ _ hblanks hparams hpairs htext =>
      cases blanks with
      | nil =>
          obtain ⟨c, others, hchars, hc⟩ := hname.first
          rw [hchars]
          refine ⟨c, others ++ text, rfl, ?_, ?_⟩
          · rintro rfl
            exact absurd hc (by decide)
          · rintro rfl
            exact absurd hc (by decide)
      | cons c others =>
          refine ⟨c, _, rfl, ?_, ?_⟩
          · rintro rfl
            exact absurd (hblanks _ List.mem_cons_self) (by decide)
          · rintro rfl
            exact absurd (hblanks _ List.mem_cons_self) (by decide)

end Bodies

section Mustaches

variable {cursor : Cursor} {text rest : List Char} {escaped : Bool} {name : List String}
  {params : List Param} {pairs : List (String × Param)}

/-- The braces that a mustache ends with. -/
def closingBraces (escaped : Bool) : List Char :=
  if escaped then ['}', '}'] else ['}', '}', '}']

/-- The text between two braces, or between three for what is not to be escaped. -/
def braced (escaped : Bool) (text : List Char) : List Char :=
  openingBraces escaped ++ (text ++ closingBraces escaped)

theorem isTriple_braced {c : Char} (hc : c ≠ '{') (others : List Char) (escaped : Bool) :
    isTriple (openingBraces escaped ++ c :: others) = !escaped := by
  cases escaped with
  | false => rfl
  | true =>
      unfold isTriple
      split
      · next hbraces =>
          cases hbraces
          exact absurd rfl hc
      · rfl

theorem scanPlainMustache_braced {c : Char} {others : List Char} (hfirst : text = c :: others)
    (hc : c ≠ '{') (hbody : ∀ after, scanBody .tokenStart (text ++ '}' :: '}' :: after) = .ok text)
    (hcursor : cursor.rest = braced escaped text ++ rest) : ∃ next,
    scanPlainMustache cursor =
        .ok (⟨String.ofList (Text.trimBlank text), escaped, cursor.offset⟩, next) ∧
      next.rest = rest := by
  have htriple : isTriple cursor.rest = !escaped := by
    rw [hcursor, braced, List.append_assoc, hfirst]
    exact isTriple_braced hc _ escaped
  have hopening : openingLength cursor.rest = (openingBraces escaped).length := by
    rw [← length_openingBraces, htriple, Bool.not_not]
  have hdrop : cursor.rest.drop (openingLength cursor.rest) =
      text ++ (closingBraces escaped ++ rest) := by
    rw [hopening, hcursor, braced, List.append_assoc, List.drop_left, List.append_assoc]
  have hinner (after : List Char) (hafter : closingBraces escaped ++ rest = '}' :: '}' :: after) :
      scanBody .tokenStart (cursor.rest.drop (openingLength cursor.rest)) = .ok text := by
    rw [hdrop, hafter]
    exact hbody after
  have hclosed (taken after : List Char) (htaken : closingBraces escaped ++ rest = taken ++ after)
      (htwo : taken.length = 2) :
      (cursor.advance (openingLength cursor.rest + text.length + 2)).rest = after := by
    have hsplit : cursor.rest = (openingBraces escaped ++ (text ++ taken)) ++ after := by
      rw [hcursor, braced, List.append_assoc, List.append_assoc, htaken]
      simp only [List.append_assoc]
    have hlength : openingLength cursor.rest + text.length + 2 =
        (openingBraces escaped ++ (text ++ taken)).length := by
      rw [List.length_append, List.length_append, hopening, htwo, Nat.add_assoc]
    rw [hlength]
    exact Cursor.rest_advance_append hsplit
  unfold scanPlainMustache
  cases escaped with
  | true =>
      have hrest := hclosed ['}', '}'] rest rfl rfl
      have hscan := hinner rest rfl
      refine ⟨_, ?_, hrest⟩
      rw [hscan]
      simp only [htriple, Bool.not_true, Bool.false_and, Bool.false_eq_true, if_false,
        Bool.not_false]
  | false =>
      have hrest := hclosed ['}', '}'] ('}' :: rest) rfl rfl
      have hscan := hinner ('}' :: rest) rfl
      refine ⟨(cursor.advance (openingLength cursor.rest + text.length + 2)).advance 1, ?_, ?_⟩
      · rw [hscan]
        simp only [htriple, hrest]
        rfl
      · exact Cursor.rest_advance_one hrest

theorem scanMustache_writtenCall (hcall : WrittenCall name params pairs text)
    (hcursor : cursor.rest = braced escaped text ++ rest) : ∃ next,
    scanMustache cursor =
        .ok (some ⟨String.ofList (Text.trimBlank text), escaped, cursor.offset⟩, next) ∧
      next.rest = rest := by
  obtain ⟨c, others, hfirst, hbrace, hbang⟩ := first_writtenCall hcall
  obtain ⟨next, hscan, hnext⟩ :=
    scanPlainMustache_braced hfirst hbrace (scanBody_writtenCall hcall) hcursor
  have hcomment : ¬ ['{', '{', '!'] <+: cursor.rest := by
    rw [hcursor, hfirst]
    cases escaped with
    | false => simp [braced, openingBraces]
    | true => simp [braced, openingBraces, Ne.symm hbang]
  refine ⟨next, ?_, hnext⟩
  unfold scanMustache
  rw [if_neg, if_neg, hscan]
  · rfl
  · rwa [List.isPrefixOf_iff_prefix]
  · rw [List.isPrefixOf_iff_prefix]
    intro hdashes
    exact hcomment (List.IsPrefix.trans ⟨['-', '-'], rfl⟩ hdashes)

theorem readMustache_writtenCall (hcall : WrittenCall name params pairs text) (escaped : Bool)
    (offset : Nat) :
    readMustache ⟨String.ofList (Text.trimBlank text), escaped, offset⟩ =
      .ok ⟨.call (String.ofList (pathText name)) params (Dict.ofList pairs), escaped⟩ := by
  have hread := Expression.read_writtenCall hcall
  unfold readMustache
  rw [String.toList_ofList, Expression.read, Expression.tokens_trimBlank, ← Expression.read, hread]

theorem startsMustache_braced (escaped : Bool) (text rest : List Char) :
    startsMustache (braced escaped text ++ rest) = true := by
  cases escaped <;> rfl

theorem braced_cons (escaped : Bool) (text : List Char) :
    ∃ others, braced escaped text = '{' :: '{' :: others := by
  cases escaped
  · exact ⟨_, rfl⟩
  · exact ⟨_, rfl⟩

theorem scan_braced (hcall : WrittenCall name params pairs text)
    (hcursor : cursor.rest = braced escaped text ++ rest) : ∃ next,
    Scans cursor [.mustache ⟨String.ofList (Text.trimBlank text), escaped, cursor.offset⟩] next ∧
      next.rest = rest := by
  obtain ⟨next, hscan, hnext⟩ := scanMustache_writtenCall hcall hcursor
  obtain ⟨others, hbraces⟩ := braced_cons escaped text
  rw [hbraces] at hcursor
  refine ⟨next, .single hcursor ?_, hnext⟩
  rw [scanOne_mustache hcursor, hscan]
  rfl

theorem scanValue_braced (stops : Char → Bool) {c : Char}
    (hcall : WrittenCall name params pairs text) (hbrace : stops '{' = false) (hc : stops c = true)
    (hcursor : cursor.rest = braced escaped text ++ c :: rest) : ∃ next,
    scanValue stops cursor = .ok
        ([.mustache ⟨String.ofList (Text.trimBlank text), escaped, cursor.offset⟩], next) ∧
      next.rest = c :: rest := by
  obtain ⟨next, hscan, hnext⟩ := scanMustache_writtenCall hcall hcursor
  have hstarts := startsMustache_braced escaped text (c :: rest)
  refine ⟨next, ?_, hnext⟩
  rw [← hcursor] at hstarts
  rw [scanValue_mustache hstarts hbrace hscan, scanValue_stop hnext hc]
  rfl

/-- Nothing, or one of the two quotes. -/
def IsQuoting (quotes : List Char) : Prop :=
  quotes = [] ∨ quotes = ['"'] ∨ quotes = ['\'']

theorem scanAssigned_braced {quotes : List Char} (hcall : WrittenCall name params pairs text)
    (hquotes : IsQuoting quotes) (offset : Nat) (attr : String)
    (hcursor : cursor.rest = quotes ++ (braced escaped text ++ (quotes ++ '>' :: rest))) :
    ∃ place next, scanAssigned offset attr cursor = .ok
        ([.mustache ⟨String.ofList (Text.trimBlank text), escaped, place⟩], next) ∧
      next.rest = '>' :: rest := by
  have hquoted (quote : Char) (hquote : Text.isQuote quote = true)
      (hcursor : cursor.rest = quote :: (braced escaped text ++ quote :: '>' :: rest)) :
      ∃ place next, scanAssigned offset attr cursor = .ok
          ([.mustache ⟨String.ofList (Text.trimBlank text), escaped, place⟩], next) ∧
        next.rest = '>' :: rest := by
    have hinner : (cursor.advance 1).rest = braced escaped text ++ quote :: '>' :: rest :=
      Cursor.rest_advance_one hcursor
    have hbrace : ('{' == quote) = false := by
      rcases Expression.quote_cases hquote with rfl | rfl <;> decide
    obtain ⟨last, hscan, hlast⟩ :=
      scanValue_braced (· == quote) hcall hbrace (beq_self_eq_true quote) hinner
    exact ⟨(cursor.advance 1).offset, last.advance 1,
      scanAssigned_quoted hcursor hquote offset attr hscan hlast, Cursor.rest_advance_one hlast⟩
  rcases hquotes with rfl | rfl | rfl
  · obtain ⟨next, hscan, hnext⟩ :=
      scanValue_braced (fun c => Text.isSpace c || c == '>') hcall (by decide) (by decide) hcursor
    obtain ⟨others, hbraces⟩ := braced_cons escaped text
    refine ⟨cursor.offset, next, ?_, hnext⟩
    rw [hbraces] at hcursor
    rw [scanAssigned_unquoted hcursor (by decide) (by decide), hscan]
  · exact hquoted '"' rfl hcursor
  · exact hquoted '\'' rfl hcursor

theorem scan_attribute_braced {quotes : List Char} {tag attr : String}
    (hcall : WrittenCall name params pairs text) (hquotes : IsQuoting quotes)
    (htag : IsTagName tag.toList) (hattr : IsAttributeName attr.toList)
    (hcursor : cursor.rest = '<' :: (tag.toList ++ ' ' :: (attr.toList ++
      '=' :: (quotes ++ (braced escaped text ++ (quotes ++ '>' :: rest)))))) :
    ∃ place valuePlace next, Scans cursor
        [.startTag tag
          [⟨attr, [.mustache ⟨String.ofList (Text.trimBlank text), escaped, valuePlace⟩], place⟩]
          false cursor.offset] next ∧
      next.rest = rest := by
  have hnamed := rest_advance_tagName hcursor
  have hspace := rest_skipSpace_attribute hattr hnamed
  obtain ⟨c, after, hafter, hc⟩ : ∃ c after,
      quotes ++ (braced escaped text ++ (quotes ++ '>' :: rest)) = c :: after ∧
        Text.isSpace c = false := by
    obtain ⟨others, hbraces⟩ := braced_cons escaped text
    rcases hquotes with rfl | rfl | rfl
    · exact ⟨'{', _, by rw [hbraces]; rfl, by decide⟩
    · exact ⟨'"', _, rfl, by decide⟩
    · exact ⟨'\'', _, rfl, by decide⟩
  obtain ⟨valuePlace, last, hvalue, hlast⟩ := scanAssigned_braced hcall hquotes
    (cursor.advance (1 + tag.toList.length)).skipSpace.offset (String.ofList attr.toList)
    (rest_advance_assigned hspace)
  rw [hafter] at hspace hnamed
  have hattribute := scanAttribute_of_assigned hattr hspace hc hvalue
  have hend := scanAttributes_end tag cursor.offset hlast
  have hattributes := scanAttributes_named tag cursor.offset hattr hspace (by simp) hattribute
  rw [hend] at hattributes
  rw [String.ofList_toList] at hattributes
  refine ⟨_, valuePlace, last.advance 1,
    scan_startTag_of_attributes htag hcursor (by decide) hattributes, ?_⟩
  exact Cursor.rest_advance_one hlast

end Mustaches

section Templates

variable {text quotes : List Char} {escaped : Bool} {name : List String} {params : List Param}
  {pairs : List (String × Param)} {tag attr : String}

/-- An empty element whose only attribute has the value written. -/
def elementWith (tag attr : String) (value : List Char) : List Char :=
  '<' :: (tag.toList ++ ' ' :: (attr.toList ++ '=' :: (value ++ '>' ::
    if TagName.isVoid tag then [] else '<' :: '/' :: (tag.toList ++ ['>']))))

theorem parse_braced (hcall : WrittenCall name params pairs text) :
    parse (String.ofList (braced escaped text)) =
      .ok [.mustache
        ⟨.call (String.ofList (pathText name)) params (Dict.ofList pairs), escaped⟩] := by
  have hcursor : (Cursor.start (braced escaped text)).rest = braced escaped text ++ [] := by
    rw [List.append_nil]
    rfl
  obtain ⟨next, hscans, hnext⟩ := scan_braced hcall hcursor
  rw [parse, mapError_eq_ok_iff, String.toList_ofList]
  refine bind_eq_ok_iff.mpr ⟨_, hscans.tokensFrom_eq hnext, ?_⟩
  exact nodesOfTokens_eq_ok_iff.mpr
    (.cons (.mustache (readMustache_writtenCall hcall escaped _)) (.nil _))

theorem readAttributes_mustache {raw : RawMustache} {mustache : Mustache} (attr : String)
    (offset : Nat) (hraw : readMustache raw = .ok mustache) :
    [RawAttribute.mk attr [.mustache raw] offset].mapM readAttribute =
      .ok [⟨attr, [.mustache mustache]⟩] := by
  have hparts : [RawPart.mustache raw].mapM readPart = .ok [.mustache mustache] := by
    refine mapM_cons_eq_ok_iff.mpr ⟨_, [], ?_, rfl, rfl⟩
    rw [readPart, hraw]
    rfl
  refine mapM_cons_eq_ok_iff.mpr ⟨_, [], ?_, rfl, rfl⟩
  rw [readAttribute, hparts]
  rfl

theorem nodesOfTokens_pair {raw : List RawAttribute} {attributes : List Attribute}
    (offset closingOffset : Nat) (hread : raw.mapM readAttribute = .ok attributes)
    (hvoid : TagName.isVoid tag = false) :
    nodesOfTokens [.startTag tag raw false offset, .endTag tag closingOffset] =
      .ok [.element tag attributes []] := by
  let frame : Frame := ⟨tag, attributes, offset, []⟩
  have hopen : standsAlone tag false = false := hvoid
  have hsame : TagName.same frame.tag tag = true := beq_self_eq_true _
  have hclosed : Builder.Takes ⟨[], [frame]⟩ (.endTag tag closingOffset) ⟨frame.close [], []⟩ :=
    .closed closingOffset rfl hsame
  exact nodesOfTokens_eq_ok_iff.mpr (.cons (.opened offset hread hopen) (.cons hclosed (.nil _)))

theorem parse_elementWith_braced (hcall : WrittenCall name params pairs text)
    (hquotes : IsQuoting quotes) (htag : IsTagName tag.toList)
    (hattr : IsAttributeName attr.toList) :
    parse (String.ofList (elementWith tag attr (quotes ++ (braced escaped text ++ quotes)))) =
      .ok [.element tag [⟨attr, [.mustache
        ⟨.call (String.ofList (pathText name)) params (Dict.ofList pairs), escaped⟩]⟩] []] := by
  let source := elementWith tag attr (quotes ++ (braced escaped text ++ quotes))
  have hcursor : (Cursor.start source).rest =
      '<' :: (tag.toList ++ ' ' :: (attr.toList ++ '=' ::
        (quotes ++ (braced escaped text ++ (quotes ++ '>' ::
          if TagName.isVoid tag then [] else '<' :: '/' :: (tag.toList ++ ['>'])))))) := by
    simp only [source, Cursor.start, elementWith, List.append_assoc]
  obtain ⟨place, valuePlace, next, hstart, hnext⟩ :=
    scan_attribute_braced hcall hquotes htag hattr hcursor
  rw [parse, mapError_eq_ok_iff, String.toList_ofList]
  have hmustache := readMustache_writtenCall hcall escaped valuePlace
  have hread := readAttributes_mustache attr place hmustache
  cases hvoid : TagName.isVoid tag with
  | true =>
      rw [hvoid, if_pos rfl] at hnext
      have halone : standsAlone tag false = true := hvoid
      refine bind_eq_ok_iff.mpr ⟨_, hstart.tokensFrom_eq hnext, ?_⟩
      exact nodesOfTokens_eq_ok_iff.mpr (.cons (.alone _ hread halone) (.nil _))
  | false =>
      rw [hvoid, if_neg (by decide)] at hnext
      obtain ⟨last, hend, hlast⟩ := scan_endTag hnext htag
      refine bind_eq_ok_iff.mpr ⟨_, (hstart.append hend).tokensFrom_eq hlast, ?_⟩
      exact nodesOfTokens_pair _ next.offset hread hvoid

/-- A helper call written between braces is the call of that helper with those arguments in order
and those pairs, both alone and as the value of an attribute. -/
theorem parse_writtenCall (hcall : WrittenCall name params pairs text) (escaped : Bool) :
    ∃ hash : Dict Param, hash.Sorted ∧ hash.Perm pairs ∧
      let mustache : Mustache := ⟨.call (String.ofList (pathText name)) params hash, escaped⟩
      parse (String.ofList (braced escaped text)) = .ok [.mustache mustache] ∧
      ∀ tag attr quotes, IsTagName tag.toList → IsAttributeName attr.toList → IsQuoting quotes →
        parse (String.ofList (elementWith tag attr (quotes ++ (braced escaped text ++ quotes)))) =
          .ok [.element tag [⟨attr, [.mustache mustache]⟩] []] := by
  have hkeys : (pairs.map Prod.fst).Nodup := by
    cases hcall with
    | call _ _ hkeys => exact hkeys
  refine ⟨Dict.ofList pairs, Dict.sorted_ofList pairs, Dict.ofList_perm hkeys, ?_, ?_⟩
  · exact parse_braced hcall
  · intro tag attr quotes htag hattr hquotes
    exact parse_elementWith_braced hcall hquotes htag hattr

theorem parse_writtenCall_card :
    let text := " ui.card\t\"\x7d\x7d</p>\" -1.50 of=post.title\n by='\x7b\x7b=\"'".toList
    let params : List Param :=
      [.string "\x7d\x7d</p>", .number (Decimal.ofDigits true ['1'] ['5', '0'])]
    let pairs : List (String × Param) :=
      [("of", .id ["post", "title"]), ("by", .string "\x7b\x7b=\"")]
    WrittenCall ["ui", "card"] params pairs text ∧ ∃ hash : Dict Param, hash.Perm pairs ∧
      parse (String.ofList (braced true text)) =
        .ok [.mustache ⟨.call "ui.card" params hash, true⟩] ∧
      parse (String.ofList (elementWith "p" "id" (['"'] ++ (braced true text ++ ['"'])))) =
        .ok [.element "p" [⟨"id", [.mustache ⟨.call "ui.card" params hash, true⟩]⟩] []] := by
  intro text params pairs
  have hcall : WrittenCall ["ui", "card"] params pairs text := by
    have hname : IsPath ["ui", "card"] := by decide
    have hpath : IsPath ["post", "title"] := by decide
    have hof : IsIdentifier "of".toList := by decide
    have hby : IsIdentifier "by".toList := by decide
    have hmarkup : WrittenArgument (.string "\x7d\x7d</p>") "\"\x7d\x7d</p>\"".toList :=
      .string rfl (by decide)
    have hbraces : WrittenArgument (.string "\x7b\x7b=\"") "'\x7b\x7b=\"'".toList :=
      .string rfl (by decide)
    have hnumber :
        WrittenArgument (.number (Decimal.ofDigits true ['1'] ['5', '0'])) "-1.50".toList :=
      .decimal true rfl rfl
    have hspaced : Spaced
        ["\"\x7d\x7d</p>\"".toList, "-1.50".toList,
          "of=post.title".toList, "by='\x7b\x7b=\"'".toList]
        "\t\"\x7d\x7d</p>\" -1.50 of=post.title\n by='\x7b\x7b=\"'".toList := by
      apply Spaced.cons (List.cons_ne_nil '\t' []) (by decide)
      apply Spaced.cons (List.cons_ne_nil ' ' []) (by decide)
      apply Spaced.cons (List.cons_ne_nil ' ' []) (by decide)
      apply Spaced.cons (List.cons_ne_nil '\n' [' ']) (by decide)
      exact .nil (List.forall_mem_nil _)
    have hparams := List.Forall₂.cons hmarkup (.cons hnumber .nil)
    have hpairs := List.Forall₂.cons (WrittenPair.assigned hof (.path hpath))
      (.cons (.assigned hby hbraces) .nil)
    have hblanks : AllSpace [' '] := by decide
    exact .call hname (.inl (List.cons_ne_nil _ _)) (by decide) hblanks hparams hpairs hspaced
  obtain ⟨hash, -, hperm, halone, hvalue⟩ := parse_writtenCall hcall true
  refine ⟨hcall, hash, hperm, halone, hvalue "p" "id" ['"'] ?_ ?_ (.inr (.inl rfl))⟩
  · exact ⟨⟨'p', [], rfl, rfl⟩, by simp⟩
  · exact ⟨by decide, by simp [Text.isSpace], by decide⟩

end Templates

end MustacheHtml.Template
