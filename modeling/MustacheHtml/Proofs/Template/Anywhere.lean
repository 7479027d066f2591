import MustacheHtml.Proofs.Template.Enclosed
import MustacheHtml.Proofs.Template.Moving

namespace MustacheHtml.Template

open MustacheHtml.Expression (AllSpace)

/-- The source is one mustache, with its braces at the two ends. -/
structure OneMustache (source : String) (raw : RawMustache) : Prop where
  scanned : tokenize source = .ok [.mustache raw]
  span : MustacheSpan 0 (some raw) source.toList

/-- A closing brace behind the source would become one of the mustache's. -/
def TakesBrace (source : String) : Prop :=
  ['{', '{', '{'] <+: source.toList ∧ ¬ ['}', '}', '}'] <:+ source.toList

section Alone

variable {source : String} {raw : RawMustache} {behind : List Char}

theorem MustacheSpan.offset_eq {offset : Nat} {span : List Char}
    (hspan : MustacheSpan offset (some raw) span) : raw.offset = offset := by
  cases hspan
  rfl

theorem MustacheSpan.encloses {span rest : List Char} (hspan : MustacheSpan 0 (some raw) span) :
    ∃ body closing, Encloses (span ++ rest) raw body ∧ ClosesAfter .tokenStart body ∧
      ClosingBraces raw.escaped closing ∧ span = openingBraces raw.escaped ++ body ++ closing := by
  cases hspan with
  | @mustache escaped body closing hbody hclosing =>
      exact ⟨body, closing, ⟨rfl, [], closing, rest, hclosing, rfl, rfl⟩, hbody, hclosing, rfl⟩

theorem ClosingBraces.eq_or_eq {escaped : Bool} {closing : List Char}
    (hclosing : ClosingBraces escaped closing) :
    closing = ['}', '}'] ∨ closing = ['}', '}', '}'] := by
  cases hclosing with
  | two => exact .inl rfl
  | three => exact .inr rfl

theorem MustacheSpan.rest_eq {span rest : List Char}
    (hwhole : MustacheSpan 0 (some raw) (span ++ rest)) (hspan : MustacheSpan 0 (some raw) span) :
    rest = [] ∨ rest = ['}'] := by
  obtain ⟨body, closing, hencloses, hcloses, hclosing, hsplit⟩ := hwhole.encloses
  obtain ⟨body', closing', hencloses', hcloses', hclosing', rfl⟩ := hspan.encloses
  rw [List.append_nil] at hencloses
  obtain rfl := hencloses.unique hencloses' hcloses hcloses'
  rw [List.append_assoc] at hsplit
  have hrest := List.append_cancel_left hsplit
  rcases hclosing.eq_or_eq with rfl | rfl
  · rcases hclosing'.eq_or_eq with rfl | rfl
    · exact .inl (by simpa using hrest)
    · simp at hrest
  · rcases hclosing'.eq_or_eq with rfl | rfl
    · exact .inr (by simpa using hrest)
    · exact .inl (by simpa using hrest)

theorem tokensFrom_plain_ne_nil {cursor : Cursor} (hnonempty : cursor.rest ≠ [])
    (hplain : startsMarkup cursor.rest = false) : tokensFrom cursor ≠ .ok [] := by
  rw [tokensFrom_of_scanOne hnonempty (scanOne_text hplain)]
  intro hnone
  obtain ⟨others, -, hresult⟩ := bind_eq_ok_iff.mp hnone
  cases hresult

theorem MustacheSpan.opens {offset : Nat} {span : List Char}
    (hspan : MustacheSpan offset (some raw) span) : ['{', '{'] <+: span := by
  cases hspan with
  | @mustache escaped body closing hbody hclosing =>
      rw [List.append_assoc]
      refine List.IsPrefix.trans ?_ (List.prefix_append _ _)
      cases escaped <;> decide

theorem OneMustache.exists_cons (hone : OneMustache source raw) :
    ∃ rest, source.toList = '{' :: '{' :: rest := by
  obtain ⟨rest, hrest⟩ := hone.span.opens
  exact ⟨rest, hrest.symm⟩

theorem OneMustache.scanMustache_start (hone : OneMustache source raw) :
    scanMustache (Cursor.start source.toList) =
      .ok (some raw, ⟨Text.byteLength source.toList, []⟩) := by
  obtain ⟨rest, hrest⟩ := hone.exists_cons
  have hnonempty : (Cursor.start source.toList).rest ≠ [] := by
    rw [Cursor.start, hrest]
    exact List.cons_ne_nil _ _
  have hstarts : startsMustache (Cursor.start source.toList).rest = true :=
    startsMustache_iff.mpr hone.span.opens
  have hall : tokensFrom (Cursor.start source.toList) = .ok [.mustache raw] :=
    mapError_eq_ok_iff.mp hone.scanned
  rw [tokensFrom_step hnonempty] at hall
  obtain ⟨⟨token?, next⟩, hfirst, hmore⟩ := bind_eq_ok_iff.mp hall
  obtain ⟨others, hothers, hjoin⟩ := bind_eq_ok_iff.mp hmore
  have htokens : token?.toList ++ others = [.mustache raw] := Except.ok.inj hjoin
  rw [scanOne_mustache hrest] at hfirst
  obtain ⟨⟨raw?, place⟩, hscan, hresult⟩ := bind_eq_ok_iff.mp hfirst
  cases hresult
  obtain ⟨span, hpasses, hspan⟩ := passes_scanMustache hstarts hscan
  have hrest : source.toList = span ++ next.rest := hpasses.rest_eq
  have hplace := hpasses.offset_eq
  cases raw? with
  | none =>
      -- A mustache after a comment would not be the one at the start.
      obtain rfl : others = [.mustache raw] := htokens
      obtain ⟨front, place, body, last, hfront, -, hlater⟩ :=
        holds_tokensFrom hothers (List.mem_singleton_self raw)
      have hpos := Text.byteLength_pos (hpasses.ne_nil (length_scanMustache hnonempty hscan))
      have hzero := hone.span.offset_eq.symm.trans hlater.offset_eq
      rw [hfront.offset_eq, hplace] at hzero
      omega
  | some found =>
      obtain ⟨rfl, rfl⟩ : found = raw ∧ others = [] := by simpa using htokens
      have hwhole := hone.span
      rw [hrest] at hwhole
      rcases hwhole.rest_eq hspan with hnone | hbrace
      · have hnext : next = ⟨Text.byteLength source.toList, []⟩ := by
          rw [hpasses.next_eq, hrest, hnone, List.append_nil, Cursor.start, Nat.zero_add]
        rw [hscan, hnext]
      · have hleft : next.rest ≠ [] := by simp [hbrace]
        exact absurd hothers (tokensFrom_plain_ne_nil hleft (by rw [hbrace]; rfl))

theorem OneMustache.scanMustache_at (hone : OneMustache source raw) (offset : Nat)
    (hbrace : TakesBrace source → behind.head? ≠ some '}') :
    scanMustache ⟨offset, source.toList ++ behind⟩ =
      .ok (some (raw.shift offset), ⟨offset + Text.byteLength source.toList, behind⟩) :=
  scanMustache_within hone.scanMustache_start fun hopens _ hcloses => hbrace ⟨hopens, hcloses⟩

theorem OneMustache.tokensFrom_at {more : List Token} (hone : OneMustache source raw)
    (offset : Nat) (hbrace : TakesBrace source → behind.head? ≠ some '}')
    (hmore : tokensFrom ⟨offset + Text.byteLength source.toList, behind⟩ = .ok more) :
    tokensFrom ⟨offset, source.toList ++ behind⟩ = .ok (.mustache (raw.shift offset) :: more) := by
  obtain ⟨rest, hrest⟩ := hone.exists_cons
  have hcursor : (Cursor.mk offset (source.toList ++ behind)).rest =
      '{' :: '{' :: (rest ++ behind) := by
    rw [hrest]
    rfl
  have hfirst := scanOne_mustache hcursor
  rw [hone.scanMustache_at offset hbrace] at hfirst
  have hnonempty : (Cursor.mk offset (source.toList ++ behind)).rest ≠ [] := by
    rw [hcursor]
    exact List.cons_ne_nil _ _
  rw [tokensFrom_of_scanOne hnonempty hfirst, hmore]
  rfl

end Alone

section Between

variable {source before after : String} {raw : RawMustache} {tokens more : List Token}

theorem standsApart_braces {text rest : List Char} (htext : text.getLast? ≠ some '{') :
    StandsApart text ('{' :: '{' :: rest) := by
  refine ⟨.inr (.inl ⟨rest, rfl⟩), ?_⟩
  intro c hc hopens
  simp [OpensMarkup] at hopens
  exact htext (hopens ▸ hc)

/-- The tokens of a source go before those of what is behind it. -/
theorem tokens_append {text rest : List Char} (htext : Template.tokens text = .ok tokens)
    (hapart : StandsApart text rest)
    (hmore : tokensFrom ⟨Text.byteLength text, rest⟩ = .ok more) :
    Template.tokens (text ++ rest) = .ok (tokens ++ more) := by
  have hplace : 0 + ((Cursor.start text).offset + Text.byteLength text) = Text.byteLength text := by
    rw [Cursor.start, Nat.zero_add, Nat.zero_add]
  rw [← hplace] at hmore
  have hwithin := tokensFrom_within htext hapart hmore
  rwa [List.map_congr_left fun token _ => Token.shift_zero token, List.map_id'] at hwithin

theorem OneMustache.tokenize_between (hone : OneMustache source raw)
    (hbefore : tokenize before = .ok tokens) (hapart : before.toList.getLast? ≠ some '{')
    (hafter : tokenize after = .ok more)
    (hbrace : TakesBrace source → after.toList.head? ≠ some '}') :
    tokenize (before ++ source ++ after) = .ok
      (tokens ++ .mustache (raw.shift (Text.byteLength before.toList)) ::
        more.map (Token.shift (Text.byteLength (before ++ source).toList))) := by
  rw [tokenize, mapError_eq_ok_iff] at hbefore hafter ⊢
  obtain ⟨rest, hrest⟩ := hone.exists_cons
  have hmore := tokensFrom_shift (Text.byteLength (before ++ source).toList) hafter
  rw [String.toList_append, Text.byteLength_append] at hmore
  have hinner := hone.tokensFrom_at (Text.byteLength before.toList) hbrace hmore
  have happart : StandsApart before.toList (source.toList ++ after.toList) := by
    rw [hrest]
    exact standsApart_braces hapart
  rw [String.toList_append, String.toList_append, List.append_assoc, Text.byteLength_append]
  exact tokens_append hbefore happart hinner

end Between

/-- How a value is assigned to an attribute: behind its name and an equals sign with blanks around,
between quotes if there are any. -/
structure Assignment where
  name : List Char
  before : List Char
  after : List Char
  quotes : List Char
  isName : IsAttributeName name
  spaceBefore : AllSpace before
  spaceAfter : AllSpace after
  isDelimiter : IsDelimiter quotes

namespace Assignment

/-- An assignment up to its value. -/
def opening (assignment : Assignment) : List Char :=
  assignment.name ++ (assignment.before ++ ('=' :: assignment.after ++ assignment.quotes))

/-- An assignment with its value. -/
def text (assignment : Assignment) (value : List Char) : List Char :=
  assignment.opening ++ (value ++ assignment.quotes)

/-- Without quotes it is the text behind that ends the value. -/
def EndsBefore (assignment : Assignment) (behind : List Char) : Prop :=
  assignment.quotes = [] → ∀ c ∈ behind.head?, Text.isSpace c = true ∨ c = '>'

end Assignment

section Assigned

variable {source : String} {raw : RawMustache} {behind : List Char}

theorem OneMustache.scanValue_at (hone : OneMustache source raw) (stops : Char → Bool)
    (offset : Nat) (hopening : stops '{' = false) (hclosing : stops '}' = false)
    (hends : ∀ c ∈ behind.head?, stops c = true) :
    scanValue stops ⟨offset, source.toList ++ behind⟩ =
      .ok ([.mustache (raw.shift offset)],
        ⟨offset + Text.byteLength source.toList, behind⟩) := by
  have hstarts : startsMustache (source.toList ++ behind) = true :=
    startsMustache_iff.mpr (hone.span.opens.trans (List.prefix_append _ _))
  have hbrace : behind.head? ≠ some '}' := by
    intro hhead
    exact Bool.false_ne_true (hclosing.symm.trans (hends '}' hhead))
  have hend : scanValue stops ⟨offset + Text.byteLength source.toList, behind⟩ =
      .ok ([], ⟨offset + Text.byteLength source.toList, behind⟩) := by
    cases behind with
    | nil =>
        unfold scanValue
        rfl
    | cons c rest => exact scanValue_stop rfl (hends c rfl)
  rw [scanValue_mustache hstarts hopening (hone.scanMustache_at offset fun _ => hbrace), hend]
  rfl

theorem OneMustache.scanAssigned_between {quote : Char} (hone : OneMustache source raw)
    (hquote : Text.isQuote quote = true) (place : Nat) (name : String) (offset : Nat) :
    scanAssigned place name ⟨offset, quote :: (source.toList ++ quote :: behind)⟩ =
      .ok ([.mustache (raw.shift (offset + Text.byteLength [quote]))],
        ⟨offset + Text.byteLength ([quote] ++ (source.toList ++ [quote])), behind⟩) := by
  have hbraces : ('{' == quote) = false ∧ ('}' == quote) = false := by
    rcases Expression.quote_cases hquote with rfl | rfl <;> decide
  have hends : ∀ c ∈ (quote :: behind).head?, (c == quote) = true := by simp
  let cursor : Cursor := ⟨offset, quote :: (source.toList ++ quote :: behind)⟩
  let last : Cursor :=
    ⟨offset + Text.byteLength [quote] + Text.byteLength source.toList, quote :: behind⟩
  have hinner : cursor.advance 1 = ⟨offset + Text.byteLength [quote], _⟩ := cursor.advance_cons rfl
  have hvalue : scanValue (· == quote) (cursor.advance 1) =
      .ok ([.mustache (raw.shift (offset + Text.byteLength [quote]))], last) := by
    rw [hinner]
    exact hone.scanValue_at (· == quote) _ hbraces.1 hbraces.2 hends
  have hlast : last.advance 1 = ⟨last.offset + Text.byteLength [quote], behind⟩ :=
    last.advance_cons rfl
  rw [scanAssigned_quoted rfl hquote place name hvalue rfl, hlast]
  simp only [last, Text.byteLength_append, Nat.add_assoc]

theorem OneMustache.scanAssigned_bare (hone : OneMustache source raw) (place : Nat)
    (name : String) (offset : Nat)
    (hends : ∀ c ∈ behind.head?, Text.isSpace c = true ∨ c = '>') :
    scanAssigned place name ⟨offset, source.toList ++ behind⟩ =
      .ok ([.mustache (raw.shift offset)],
        ⟨offset + Text.byteLength source.toList, behind⟩) := by
  obtain ⟨rest, hrest⟩ := hone.exists_cons
  have hvalue := hone.scanValue_at (fun c => Text.isSpace c || c == '>') offset (by decide)
    (by decide) (by simpa using hends)
  have hcursor : (Cursor.mk offset (source.toList ++ behind)).rest =
      '{' :: ('{' :: rest ++ behind) := by
    rw [hrest]
    rfl
  rw [scanAssigned_unquoted hcursor (by decide) (by decide), hvalue]

theorem OneMustache.scanAssigned_at (hone : OneMustache source raw) (attr : Assignment)
    (hends : attr.EndsBefore behind) (place : Nat) (name : String) (offset : Nat) :
    scanAssigned place name ⟨offset, attr.quotes ++ (source.toList ++ (attr.quotes ++ behind))⟩ =
      .ok ([.mustache (raw.shift (offset + Text.byteLength attr.quotes))],
        ⟨offset + Text.byteLength (attr.quotes ++ (source.toList ++ attr.quotes)), behind⟩) := by
  rcases attr.isDelimiter with hnone | ⟨quote, hquote, hquotes⟩
  · rw [hnone, List.append_nil]
    exact hone.scanAssigned_bare place name offset (hends hnone)
  · rw [hquotes]
    exact hone.scanAssigned_between hquote place name offset

theorem OneMustache.exists_first (hone : OneMustache source raw) (attr : Assignment)
    (behind : List Char) :
    ∃ c rest, attr.quotes ++ (source.toList ++ (attr.quotes ++ behind)) = c :: rest ∧
      Text.isSpace c = false := by
  rcases attr.isDelimiter with hnone | ⟨quote, hquote, hquotes⟩
  · obtain ⟨rest, hrest⟩ := hone.exists_cons
    rw [hnone, hrest]
    exact ⟨'{', _, rfl, by decide⟩
  · rw [hquotes]
    refine ⟨quote, _, rfl, ?_⟩
    rcases Expression.quote_cases hquote with rfl | rfl <;> decide

theorem OneMustache.scanAttribute_at (hone : OneMustache source raw) (attr : Assignment)
    (hends : attr.EndsBefore behind) (offset : Nat) :
    scanAttribute ⟨offset, attr.text source.toList ++ behind⟩ =
      .ok (⟨String.ofList attr.name,
          [.mustache (raw.shift (offset + Text.byteLength attr.opening))], offset⟩,
        ⟨offset + Text.byteLength (attr.text source.toList), behind⟩) := by
  obtain ⟨c, rest, hvalue, hc⟩ := hone.exists_first attr behind
  have hcursor : (Cursor.mk offset (attr.text source.toList ++ behind)).rest =
      attr.name ++ (attr.before ++ '=' :: (attr.after ++ c :: rest)) := by
    rw [← hvalue, Assignment.text, Assignment.opening]
    simp only [List.append_assoc, List.cons_append]
  have hopening : attr.opening =
      attr.name ++ (attr.before ++ '=' :: attr.after) ++ attr.quotes := by
    rw [Assignment.opening]
    simp only [List.append_assoc, List.cons_append]
  rw [scanAttribute_of_spaced attr.isName attr.spaceBefore attr.spaceAfter hc hcursor, ← hvalue,
    hone.scanAssigned_at attr hends, Assignment.text, hopening]
  simp only [bind, Except.bind, Text.byteLength_append, Nat.add_assoc]

theorem OneMustache.scanAttributes_at {blanks : List Char} (hone : OneMustache source raw)
    (attr : Assignment) (hends : attr.EndsBefore behind) (hblanks : AllSpace blanks)
    (tag : String) (start offset : Nat) :
    scanAttributes tag start ⟨offset, blanks ++ (attr.text source.toList ++ behind)⟩ = (do
      let (others, last) ← scanAttributes tag start
        ⟨offset + Text.byteLength (blanks ++ attr.text source.toList), behind⟩
      let place := offset + Text.byteLength blanks
      let first : RawAttribute := ⟨String.ofList attr.name,
        [.mustache (raw.shift (place + Text.byteLength attr.opening))], place⟩
      .ok ({ others with attributes := first :: others.attributes }, last)) := by
  obtain ⟨c, name, hname⟩ := List.exists_cons_of_ne_nil attr.isName.nonempty
  have hc : Text.isSpace c = false := by
    refine (attr.isName.chars c ?_).1
    rw [hname]
    exact List.mem_cons_self
  obtain ⟨rest, hrest, hhead⟩ : ∃ rest,
      attr.text source.toList ++ behind = attr.name ++ rest ∧ rest.head? ≠ some '{' := by
    rw [Assignment.text, Assignment.opening]
    simp only [List.append_assoc, List.cons_append]
    refine ⟨_, rfl, ?_⟩
    cases hbefore : attr.before with
    | nil => simp
    | cons blank others =>
        intro hblank
        cases hblank
        exact absurd (attr.spaceBefore '{' (by rw [hbefore]; exact List.mem_cons_self)) (by decide)
  have hskip : (Cursor.mk offset (blanks ++ (attr.text source.toList ++ behind))).skipSpace =
      ⟨offset + Text.byteLength blanks, attr.text source.toList ++ behind⟩ := by
    rw [hrest, hname]
    exact Cursor.skipSpace_append hblanks hc rfl
  have hfirst := hone.scanAttribute_at attr hends (offset + Text.byteLength blanks)
  rw [← hskip] at hfirst
  rw [scanAttributes_named tag start attr.isName (by rw [hskip, hrest]) hhead hfirst,
    Text.byteLength_append, Nat.add_assoc]

end Assigned

section Tags

variable {source : String} {raw : RawMustache} {tag blanks behind : List Char}

theorem isNameChar_of_isSpace {c : Char} (hc : Text.isSpace c = true) : isNameChar c = false := by
  simp only [Text.isSpace, Bool.or_eq_true, beq_iff_eq] at hc
  rcases hc with (((rfl | rfl) | rfl) | rfl) | rfl <;> decide

theorem tokensFrom_startTag {cursor : Cursor} (htag : IsTagName tag) (hblanks : AllSpace blanks)
    (hnonempty : blanks ≠ []) (hcursor : cursor.rest = '<' :: tag ++ (blanks ++ behind)) :
    tokensFrom cursor = (do
      let (tagEnd, last) ← scanAttributes (String.ofList tag) cursor.offset
        ⟨cursor.offset + Text.byteLength ('<' :: tag), blanks ++ behind⟩
      let tokens ← tokensFrom last
      .ok (.startTag (String.ofList tag) tagEnd.attributes tagEnd.selfClosing cursor.offset ::
        tokens)) := by
  obtain ⟨letter, others, rfl, halpha⟩ := htag.letter
  obtain ⟨blank, more, rfl⟩ := List.exists_cons_of_ne_nil hnonempty
  have hleft : cursor.rest ≠ [] := by
    rw [hcursor]
    exact List.cons_ne_nil _ _
  have hname : (cursor.rest.drop 1).takeWhile isNameChar = letter :: others := by
    rw [hcursor]
    exact takeWhile_append_cons htag.all (isNameChar_of_isSpace (hblanks blank List.mem_cons_self))
  have hplace : cursor.advance (1 + (letter :: others).length) =
      ⟨cursor.offset + Text.byteLength ('<' :: letter :: others), blank :: more ++ behind⟩ := by
    rw [Nat.add_comm]
    exact Cursor.advance_append hcursor
  rw [tokensFrom_step hleft, scanOne_startTag hcursor halpha, scanStartTag]
  simp only [hname, hplace]
  cases scanAttributes (String.ofList (letter :: others)) cursor.offset
      ⟨cursor.offset + Text.byteLength ('<' :: letter :: others), blank :: more ++ behind⟩ with
  | error fault => rfl
  | ok result => rfl

theorem scanAttributes_congr {cursor other : Cursor} (name : String) (start : Nat)
    (hspace : cursor.skipSpace = other.skipSpace) :
    scanAttributes name start cursor = scanAttributes name start other := by
  rw [scanAttributes, scanAttributes, hspace]

theorem Cursor.skipSpace_blanks (hblanks : AllSpace blanks) (offset : Nat) :
    (Cursor.mk offset (blanks ++ behind)).skipSpace =
      (Cursor.mk (offset + Text.byteLength blanks) behind).skipSpace := by
  simp only [skipSpace, advance, List.takeWhile_append_of_pos hblanks, List.length_append,
    List.take_length_add_append, List.drop_length_add_append, Text.byteLength_append, Nat.add_assoc]

theorem scanAttributes_shift {name : String} {start : Nat} {cursor next : Cursor} {tagEnd : TagEnd}
    (count place : Nat) (hscan : scanAttributes name start cursor = .ok (tagEnd, next)) :
    scanAttributes name place ⟨count + cursor.offset, cursor.rest⟩ =
      .ok (tagEnd.shift count, ⟨count + next.offset, next.rest⟩) := by
  have hwithin : scanAttributes name place (cursor.within count []) =
      .ok (tagEnd.shift count, next.within count []) := scanAttributes_within place hscan
  rwa [Cursor.within, Cursor.within, List.append_nil, List.append_nil] at hwithin

/-- Put in front of the attributes of a tag, the assignment of the mustache moves all that comes
behind it. -/
theorem OneMustache.tokensFrom_tag {others : List RawAttribute} {selfClosing : Bool}
    {more : List Token} (hone : OneMustache source raw) (attr : Assignment)
    (hends : attr.EndsBefore behind) (htag : IsTagName tag) (hblanks : AllSpace blanks)
    (hnonempty : blanks ≠ [])
    (hwithout : tokens ('<' :: tag ++ (blanks ++ behind)) =
      .ok (.startTag (String.ofList tag) others selfClosing 0 :: more)) (offset : Nat) :
    let count := offset + Text.byteLength (attr.text source.toList)
    let place := offset + Text.byteLength ('<' :: tag ++ blanks)
    let first : RawAttribute := ⟨String.ofList attr.name,
      [.mustache (raw.shift (place + Text.byteLength attr.opening))], place⟩
    tokensFrom ⟨offset, '<' :: tag ++ (blanks ++ (attr.text source.toList ++ behind))⟩ =
      .ok (.startTag (String.ofList tag) (first :: others.map (RawAttribute.shift count))
        selfClosing offset :: more.map (Token.shift count)) := by
  intro count place first
  rw [tokens, tokensFrom_startTag htag hblanks hnonempty rfl] at hwithout
  obtain ⟨⟨tagEnd, last⟩, hattributes, hrest⟩ := bind_eq_ok_iff.mp hwithout
  obtain ⟨later, hlater, hjoin⟩ := bind_eq_ok_iff.mp hrest
  cases hjoin
  rw [scanAttributes_congr _ _ (Cursor.skipSpace_blanks hblanks _)] at hattributes
  have hplace : offset + Text.byteLength ('<' :: tag) +
        Text.byteLength (blanks ++ attr.text source.toList) =
      count + (0 + Text.byteLength ('<' :: tag) + Text.byteLength blanks) := by
    simp only [count, Text.byteLength_append]
    omega
  have hmoved : scanAttributes (String.ofList tag) offset ⟨offset + Text.byteLength ('<' :: tag) +
        Text.byteLength (blanks ++ attr.text source.toList), behind⟩ =
      .ok (tagEnd.shift count, ⟨count + last.offset, last.rest⟩) := by
    rw [hplace]
    exact scanAttributes_shift count offset hattributes
  rw [tokensFrom_startTag htag hblanks hnonempty rfl, hone.scanAttributes_at attr hends hblanks,
    hmoved]
  refine bind_eq_ok_iff.mpr ⟨_, rfl, bind_eq_ok_iff.mpr ⟨_, tokensFrom_shift count hlater, ?_⟩⟩
  simp only [first, place, Text.byteLength_append, Nat.add_assoc]
  rfl

theorem standsApart_startTag {text rest : List Char} (htag : IsTagName tag) :
    StandsApart text ('<' :: tag ++ rest) := by
  obtain ⟨letter, others, rfl, halpha⟩ := htag.letter
  refine ⟨.inr (.inr (.inr (.inr ⟨letter, halpha, others ++ rest, rfl⟩))), ?_⟩
  intro c hc hopens
  simp [OpensMarkup] at hopens

/-- A mustache is scanned the same wherever it stands: between two sources, and as the whole value
of an attribute, in any place where an attribute may begin and in the tags of a source. -/
theorem mustache_anywhere (hone : OneMustache source raw) :
    (∀ before after tokens more, tokenize before = .ok tokens →
      before.toList.getLast? ≠ some '{' → tokenize after = .ok more →
      (TakesBrace source → after.toList.head? ≠ some '}') →
      tokenize (before ++ source ++ after) = .ok
        (tokens ++ .mustache (raw.shift (Text.byteLength before.toList)) ::
          more.map (Token.shift (Text.byteLength (before ++ source).toList)))) ∧
    (∀ (attr : Assignment) (behind : List Char) (offset : Nat), attr.EndsBefore behind →
      scanAttribute ⟨offset, attr.text source.toList ++ behind⟩ =
        .ok (⟨String.ofList attr.name,
            [.mustache (raw.shift (offset + Text.byteLength attr.opening))], offset⟩,
          ⟨offset + Text.byteLength (attr.text source.toList), behind⟩)) ∧
    (∀ before tokens tag blanks behind others selfClosing more, ∀ attr : Assignment,
      tokenize before = .ok tokens → IsTagName tag → AllSpace blanks → blanks ≠ [] →
      tokenize (String.ofList ('<' :: tag ++ (blanks ++ behind))) =
        .ok (.startTag (String.ofList tag) others selfClosing 0 :: more) →
      attr.EndsBefore behind →
      let offset := Text.byteLength before.toList
      let place := offset + Text.byteLength ('<' :: tag ++ blanks)
      let count := offset + Text.byteLength (attr.text source.toList)
      let first : RawAttribute := ⟨String.ofList attr.name,
        [.mustache (raw.shift (place + Text.byteLength attr.opening))], place⟩
      tokenize (before ++
          String.ofList ('<' :: tag ++ (blanks ++ (attr.text source.toList ++ behind)))) =
        .ok (tokens ++ .startTag (String.ofList tag)
            (first :: others.map (RawAttribute.shift count)) selfClosing offset ::
          more.map (Token.shift count))) := by
  refine ⟨?_, ?_, ?_⟩
  · intro before after tokens more hbefore hapart hafter hbrace
    exact hone.tokenize_between hbefore hapart hafter hbrace
  · intro attr behind offset hends
    exact hone.scanAttribute_at attr hends offset
  · intro before tokens tag blanks behind others selfClosing more attr hbefore htag hblanks
      hnonempty hwithout hends
    rw [tokenize, mapError_eq_ok_iff] at hbefore hwithout
    rw [String.toList_ofList] at hwithout
    have hinner := hone.tokensFrom_tag attr hends htag hblanks hnonempty hwithout
      (Text.byteLength before.toList)
    intro offset place count first
    rw [tokenize, mapError_eq_ok_iff, String.toList_append, String.toList_ofList]
    exact tokens_append hbefore (standsApart_startTag htag) hinner

theorem mustache_anywhere_quoted :
    let source := "\x7b\x7b\x7b f \"\x7d\x7d\" by='>' \x7d\x7d"
    let raw : RawMustache := ⟨"f \"\x7d\x7d\" by='>'", false, 0⟩
    OneMustache source raw ∧ TakesBrace source ∧
      tokenize ("<b>1 <" ++ source ++ " \x7d</b>") =
        .ok [.startTag "b" [] false 0, .text "1 <" 3, .mustache (raw.shift 6), .text " \x7d" 26,
          .endTag "b" 28] ∧
      scanAttribute ⟨5, ("id = \"" ++ source ++ "\" lang>").toList⟩ =
        .ok (⟨"id", [.mustache (raw.shift 11)], 5⟩, ⟨32, " lang>".toList⟩) ∧
      tokenize ("&lt;" ++ ("<i id = \"" ++ source ++ "\" lang></i>")) =
        .ok [.text "<" 0,
          .startTag "i" [⟨"id", [.mustache (raw.shift 13)], 7⟩, ⟨"lang", [], 35⟩] false 4,
          .endTag "i" 40] := by
  intro source raw
  let body := " f \"\x7d\x7d\" by='>' ".toList
  have hone : OneMustache source raw := by
    have hscan : scanBody .tokenStart (body ++ ['}', '}']) = .ok body := by decide +kernel
    have hsource : source.toList = openingBraces false ++ body ++ ['}', '}'] := by decide +kernel
    have hraw : raw = ⟨String.ofList (Text.trimBlank body), false, 0⟩ := by decide +kernel
    refine ⟨by decide +kernel, ?_⟩
    rw [hsource, hraw]
    exact .mustache (scanBody_closes hscan).1 (.two false)
  let attr : Assignment :=
    { name := "id".toList, before := [' '], after := [' '], quotes := ['"']
      isName := ⟨by decide, by simp [Text.isSpace], by decide⟩
      spaceBefore := by decide, spaceAfter := by decide
      isDelimiter := .inr ⟨'"', rfl, rfl⟩ }
  have hends (behind : List Char) : attr.EndsBefore behind :=
    fun hnone => absurd hnone (List.cons_ne_nil _ _)
  obtain ⟨hbetween, hvalue, htag⟩ := mustache_anywhere hone
  refine ⟨hone, ⟨by decide +kernel, by decide +kernel⟩, ?_, ?_, ?_⟩
  · let before : List Token := [.startTag "b" [] false 0, .text "1 <" 3]
    let after : List Token := [.text " \x7d" 0, .endTag "b" 2]
    refine (hbetween "<b>1 <" " \x7d</b>" before after ?_ ?_ ?_ ?_).trans ?_
    · decide +kernel
    · decide +kernel
    · decide +kernel
    · exact fun _ => by decide +kernel
    · decide +kernel
  · have htext : ("id = \"" ++ source ++ "\" lang>").toList =
        attr.text source.toList ++ " lang>".toList := by decide +kernel
    rw [htext]
    exact (hvalue attr " lang>".toList 5 (hends _)).trans (by decide +kernel)
  · have htext : "<i id = \"" ++ source ++ "\" lang></i>" = String.ofList
        ('<' :: ['i'] ++ ([' '] ++ (attr.text source.toList ++ " lang></i>".toList))) := by
      decide +kernel
    rw [htext]
    refine (htag "&lt;" [.text "<" 0] ['i'] [' '] " lang></i>".toList [⟨"lang", [], 4⟩] false
      [.endTag "i" 9] attr ?_ ⟨⟨'i', [], rfl, rfl⟩, by simp⟩ ?_ (List.cons_ne_nil _ _) ?_
      (hends _)).trans ?_
    · decide +kernel
    · decide
    · decide +kernel
    · decide +kernel

end Tags

end MustacheHtml.Template
