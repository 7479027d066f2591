import MustacheHtml.Template.Building
import MustacheHtml.Proofs.Template.Passing
import MustacheHtml.Proofs.Template.Scanning

namespace MustacheHtml.Template

/-- A mustache, a tag, a comment or a declaration begins here. -/
def OpensMarkup (text : List Char) : Prop :=
  ['{', '{'] <+: text ∨ ['<', '/'] <+: text ∨ ['<', '!'] <+: text ∨
    ∃ letter, letter.isAlpha = true ∧ ['<', letter] <+: text

theorem startsMarkup_iff {text : List Char} : startsMarkup text = true ↔ OpensMarkup text := by
  unfold startsMarkup OpensMarkup
  split
  · next rest => simp
  · next c rest =>
      simp only [Bool.or_eq_true, beq_iff_eq, List.cons_prefix_cons, List.nil_prefix, and_true]
      constructor
      · rintro ((rfl | rfl) | halpha)
        · exact .inr (.inl ⟨trivial, rfl⟩)
        · exact .inr (.inr (.inl ⟨trivial, rfl⟩))
        · exact .inr (.inr (.inr ⟨c, halpha, trivial, rfl⟩))
      · rintro (⟨hbrace, -⟩ | ⟨-, rfl⟩ | ⟨-, rfl⟩ | ⟨letter, halpha, -, rfl⟩)
        · exact absurd hbrace (by decide)
        · exact .inl (.inl rfl)
        · exact .inl (.inr rfl)
        · exact .inr halpha
  · next hbraces hless =>
      refine ⟨fun hfalse => (Bool.false_ne_true hfalse).elim, ?_⟩
      rintro (⟨rest, rfl⟩ | ⟨rest, rfl⟩ | ⟨rest, rfl⟩ | ⟨letter, -, rest, rfl⟩)
      · exact absurd rfl (hbraces rest)
      · exact absurd rfl (hless '/' rest)
      · exact absurd rfl (hless '!' rest)
      · exact absurd rfl (hless letter rest)

theorem takeUntil_splits (stops : List Char → Bool) (text : List Char) : ∃ rest,
    text = takeUntil stops text ++ rest ∧ (rest = [] ∨ stops rest = true) ∧
      ∀ skipped left, takeUntil stops text = skipped ++ left → left ≠ [] →
        stops (left ++ rest) = false := by
  induction text with
  | nil =>
      refine ⟨[], rfl, .inl rfl, ?_⟩
      intro skipped left hsplit hleft
      exact absurd (List.append_eq_nil_iff.mp hsplit.symm).2 hleft
  | cons c others ih =>
      rw [takeUntil]
      split
      · next hstop =>
          refine ⟨c :: others, rfl, .inr hstop, ?_⟩
          intro skipped left hsplit hleft
          exact absurd (List.append_eq_nil_iff.mp hsplit.symm).2 hleft
      · next hpass =>
          obtain ⟨rest, hjoined, hend, hinside⟩ := ih
          refine ⟨rest, by rw [List.cons_append, ← hjoined], hend, ?_⟩
          intro skipped left hsplit hleft
          cases skipped with
          | nil =>
              rw [List.nil_append] at hsplit
              rw [← hsplit, List.cons_append, ← hjoined]
              exact Bool.eq_false_iff.mpr hpass
          | cons first skipped =>
              exact hinside skipped left (List.cons.inj hsplit).2 hleft

theorem takeUntil_of_splits {test : List Char → Bool} {span rest : List Char}
    (hinside : ∀ skipped left, span = skipped ++ left → left ≠ [] → test (left ++ rest) = false)
    (hend : rest = [] ∨ test rest = true) : takeUntil test (span ++ rest) = span := by
  induction span with
  | nil =>
      rw [List.nil_append]
      cases rest with
      | nil => rfl
      | cons c others => rw [takeUntil, if_pos (hend.resolve_left (List.cons_ne_nil c others))]
  | cons c others ih =>
      have hpass := hinside [] (c :: others) rfl (List.cons_ne_nil c others)
      rw [List.cons_append, takeUntil, ← List.cons_append, if_neg (Bool.eq_false_iff.mp hpass), ih]
      intro skipped left hsplit hleft
      exact hinside (c :: skipped) left (by rw [hsplit, List.cons_append]) hleft

/-- How the text of a token is written; the token tells where. -/
inductive TokenSpan (offset : Nat) : Token → List Char → Prop where
  | text (span : List Char) :
      TokenSpan offset (.text (String.ofList (Reference.decode span)) offset) span
  | mustache {raw : RawMustache} {span : List Char} (hspan : MustacheSpan offset (some raw) span) :
      TokenSpan offset (.mustache raw) span
  | startTag {name : List Char} (attributes : List RawAttribute) (selfClosing : Bool)
      (inner : List Char) (hname : IsTagName name) :
      TokenSpan offset (.startTag (String.ofList name) attributes selfClosing offset)
        ('<' :: name ++ (inner ++ ['>']))
  | endTag {name blanks : List Char} (hname : name ≠ [])
      (hchars : ∀ c ∈ name, isNameChar c = true) (hblanks : ∀ c ∈ blanks, Text.isSpace c = true) :
      TokenSpan offset (.endTag (String.ofList name) offset) ('<' :: '/' :: name ++ blanks ++ ['>'])

/-- What makes no token: comments, up to the first mark that ends them, and declarations. -/
inductive Dropped : List Char → Prop where
  | mustacheComment {offset : Nat} {span : List Char} (hspan : MustacheSpan offset none span) :
      Dropped span
  | comment {span : List Char} (hopens : ['<', '!', '-', '-'] <+: span)
      (hends : EndsAtFirst ['-', '-', '>'] span) : Dropped span
  | declaration {span : List Char} (hopens : ['<', '!'] <+: span)
      (hplain : ¬ ['<', '!', '-', '-'] <+: span) (hends : EndsAtFirst ['>'] span) : Dropped span

/-- No markup begins at any character of the span, whatever follows it. -/
def PlainBefore (rest span : List Char) : Prop :=
  ∀ skipped left, span = skipped ++ left → left ≠ [] → ¬ OpensMarkup (left ++ rest)

/-- A span of a source, and the token that it makes if it makes one. -/
structure Piece where
  span : List Char
  token? : Option Token

namespace Piece

/-- The span of a piece is one of its token, or it is dropped. -/
def Fits (offset : Nat) (piece : Piece) : Prop :=
  match piece.token? with
  | some token => TokenSpan offset token piece.span
  | none => Dropped piece.span

/-- The token of a piece is a text. -/
def IsText (piece : Piece) : Prop :=
  ∃ content offset, piece.token? = some (.text content offset)

/-- The piece is cut off where it ends: a text only where markup begins. -/
structure CutAt (offset : Nat) (rest : List Char) (piece : Piece) : Prop where
  nonempty : piece.span ≠ []
  fits : piece.Fits offset
  plain : piece.IsText → PlainBefore rest piece.span
  stops : piece.IsText → rest = [] ∨ OpensMarkup rest

theorem cutAt_of_not_isText {offset : Nat} {piece : Piece} (rest : List Char)
    (hnonempty : piece.span ≠ []) (hfits : piece.Fits offset) (htext : ¬ piece.IsText) :
    piece.CutAt offset rest :=
  ⟨hnonempty, hfits, fun h => absurd h htext, fun h => absurd h htext⟩

end Piece

/-- The text that pieces are of. -/
def spans (pieces : List Piece) : List Char :=
  pieces.flatMap Piece.span

/-- The pieces make up the source, which starts at the offset. No markup begins within the span of a
text, and there are no two texts side by side. -/
structure Partition (offset : Nat) (source : List Char) (pieces : List Piece) : Prop where
  spans_eq : spans pieces = source
  nonempty : ∀ piece ∈ pieces, piece.span ≠ []
  fits : ∀ before piece after, pieces = before ++ piece :: after →
    piece.Fits (offset + Text.byteLength (spans before))
  plain : ∀ before piece after, pieces = before ++ piece :: after → piece.IsText →
    PlainBefore (spans after) piece.span
  apart : ∀ before first second after, pieces = before ++ first :: second :: after →
    first.IsText → ¬ second.IsText

section Partition

variable {offset : Nat} {rest : List Char} {pieces : List Piece} {piece : Piece}

theorem Partition.nil (offset : Nat) : Partition offset [] [] := by
  constructor
  · rfl
  · exact List.forall_mem_nil _
  · exact fun before piece after hsplit => by simp at hsplit
  · exact fun before piece after hsplit => by simp at hsplit
  · exact fun before first second after hsplit => by simp at hsplit

theorem Partition.cons (hpiece : piece.CutAt offset rest)
    (hrest : Partition (offset + Text.byteLength piece.span) rest pieces) :
    Partition offset (piece.span ++ rest) (piece :: pieces) := by
  constructor
  · rw [spans, List.flatMap_cons, ← spans, hrest.spans_eq]
  · exact List.forall_mem_cons.mpr ⟨hpiece.nonempty, hrest.nonempty⟩
  · intro before other after hsplit
    cases before with
    | nil =>
        cases hsplit
        exact hpiece.fits
    | cons first before =>
        cases hsplit
        have hother := hrest.fits before other after rfl
        rwa [Nat.add_assoc, ← Text.byteLength_append] at hother
  · intro before other after hsplit hother
    cases before with
    | nil =>
        cases hsplit
        rw [hrest.spans_eq]
        exact hpiece.plain hother
    | cons first before =>
        cases hsplit
        exact hrest.plain before other after rfl hother
  · intro before first second after hsplit hfirst hsecond
    cases before with
    | nil =>
        cases hsplit
        have hnonempty := hrest.nonempty second List.mem_cons_self
        have hjoined : second.span ++ spans after = rest := hrest.spans_eq
        rcases hpiece.stops hfirst with rfl | hopens
        · exact hnonempty (List.append_eq_nil_iff.mp hjoined).1
        · rw [← hjoined] at hopens
          exact hrest.plain [] second after rfl hsecond [] second.span rfl hnonempty hopens
    | cons first' before =>
        cases hsplit
        exact hrest.apart before first second after rfl hfirst hsecond

end Partition

section Scanning

variable {cursor next : Cursor}

theorem scanText_eq (hleft : cursor.rest ≠ []) (hplain : startsMarkup cursor.rest = false) :
    scanText cursor =
      (.text (String.ofList (Reference.decode (takeUntil startsMarkup cursor.rest))) cursor.offset,
        cursor.advance (takeUntil startsMarkup cursor.rest).length) := by
  have htaken : cursor.rest.take 1 ++ takeUntil startsMarkup (cursor.rest.drop 1) =
      takeUntil startsMarkup cursor.rest := by
    cases hrest : cursor.rest with
    | nil => exact absurd hrest hleft
    | cons c others =>
        rw [hrest] at hplain
        rw [takeUntil, if_neg (by simp [hplain])]
        rfl
  rw [scanText, htaken]

theorem passes_scanText (hleft : cursor.rest ≠ []) (hplain : startsMarkup cursor.rest = false) :
    ∃ span, cursor.Passes span (scanText cursor).2 ∧
      Piece.CutAt cursor.offset (scanText cursor).2.rest ⟨span, some (scanText cursor).1⟩ := by
  obtain ⟨rest, hjoined, hend, hinside⟩ := takeUntil_splits startsMarkup cursor.rest
  have hpasses : cursor.Passes (takeUntil startsMarkup cursor.rest) (scanText cursor).2 := by
    rw [scanText_eq hleft hplain]
    exact Cursor.passes_of_prefix ⟨rest, hjoined.symm⟩
  have hrest : (scanText cursor).2.rest = rest :=
    List.append_cancel_left (hpasses.rest_eq.symm.trans hjoined)
  refine ⟨_, hpasses, ?_, ?_, ?_, ?_⟩
  · obtain ⟨c, others, hcons⟩ := List.exists_cons_of_ne_nil hleft
    rw [hcons] at hplain
    have hpos := takeUntil_length_pos hplain
    rw [← hcons] at hpos
    exact List.length_pos_iff.mp hpos
  · rw [scanText_eq hleft hplain]
    exact .text _
  · intro _ skipped left hsplit hnonempty
    rw [hrest, ← startsMarkup_iff, Bool.not_eq_true]
    exact hinside skipped left hsplit hnonempty
  · intro _
    rwa [hrest, ← startsMarkup_iff]

theorem isTagName_takeWhile {letter : Char} (after : List Char) (hletter : letter.isAlpha = true) :
    IsTagName ((letter :: after).takeWhile isNameChar) := by
  have hfirst : isNameChar letter = true := by simp [isNameChar, Char.isAlphanum, hletter]
  constructor
  · exact ⟨letter, _, List.takeWhile_cons_of_pos hfirst, hletter⟩
  · intro c hc
    have hname : isNameChar c = true := List.all_eq_true.mp List.all_takeWhile c hc
    simp only [isNameChar, Bool.or_eq_true, beq_iff_eq] at hname
    simp only [List.mem_cons, List.not_mem_nil, or_false]
    tauto

theorem passes_mustache {raw? : Option RawMustache} {after : List Char}
    (hrest : cursor.rest = '{' :: '{' :: after)
    (hscan : scanMustache cursor = .ok (raw?, next)) :
    ∃ span, cursor.Passes span next ∧
      Piece.CutAt cursor.offset next.rest ⟨span, raw?.map Token.mustache⟩ := by
  have hnonempty : cursor.rest ≠ [] := hrest ▸ List.cons_ne_nil _ _
  obtain ⟨span, hpasses, hspan⟩ := passes_scanMustache (by rw [hrest]; rfl) hscan
  refine ⟨span, hpasses, Piece.cutAt_of_not_isText _ ?_ ?_ ?_⟩
  · exact hpasses.ne_nil (length_scanMustache hnonempty hscan)
  · cases raw? with
    | none => exact .mustacheComment hspan
    | some raw => exact .mustache hspan
  · rintro ⟨content, offset, htext⟩
    cases raw? <;> cases htext

theorem passes_dropped {mark opening : List Char} {fault : Fault} (hmark : mark ≠ [])
    (hopening : opening <+: cursor.rest) (hapart : ¬ mark <:+: opening)
    (hskip : skipPast mark fault cursor = .ok next)
    (hdropped : ∀ span, span <+: cursor.rest → opening <+: span → EndsAtFirst mark span →
      Dropped span) :
    ∃ span, cursor.Passes span next ∧ Piece.CutAt cursor.offset next.rest ⟨span, none⟩ := by
  obtain ⟨span, hpasses, hends⟩ := passes_skipPast hmark hskip
  have hwithin : span <+: cursor.rest := ⟨next.rest, hpasses.rest_eq.symm⟩
  have hopens := opening_prefix hopening hwithin hends.1 hapart
  refine ⟨span, hpasses, Piece.cutAt_of_not_isText _ ?_ (hdropped span hwithin hopens hends) nofun⟩
  intro hnil
  exact hmark (List.suffix_nil.mp (hnil ▸ hends.1))

theorem scanOne_piece {token? : Option Token} (hleft : cursor.rest ≠ [])
    (hscan : scanOne cursor = .ok (token?, next)) :
    ∃ span, cursor.Passes span next ∧ Piece.CutAt cursor.offset next.rest ⟨span, token?⟩ := by
  cases finds_of_scanOne hscan with
  | mustache hrest hmustache => exact passes_mustache hrest hmustache
  | @comment _ after hrest hskip =>
      have hopening : ['<', '!', '-', '-'] <+: cursor.rest := hrest ▸ ⟨after, rfl⟩
      apply passes_dropped (by decide) hopening (by decide) hskip
      intro span _ hopens hends
      exact .comment hopens hends
  | @declaration _ after hrest hplain hskip =>
      have hopening : ['<', '!'] <+: cursor.rest := hrest ▸ ⟨after, rfl⟩
      apply passes_dropped (by decide) hopening (by decide) hskip
      intro span hwithin hopens hends
      refine .declaration hopens ?_ hends
      intro hdashes
      have hcomment := hdashes.trans hwithin
      rw [hrest, List.cons_prefix_cons, List.cons_prefix_cons] at hcomment
      exact hplain hcomment.2.2
  | @startTag letter after name tagEnd _ hrest hletter hname hend =>
      obtain ⟨inner, hinner⟩ := hend.passes
      subst hname
      have hopened := passes_tagName ['<'] hrest
      refine ⟨_, hopened.trans hinner, Piece.cutAt_of_not_isText _ (List.cons_ne_nil _ _) ?_ nofun⟩
      exact .startTag _ _ inner (isTagName_takeWhile after hletter)
  | @endTag after name named hrest hname hnonempty hnamed hclosed =>
      subst hname hnamed
      have hopened := (passes_tagName ['<', '/'] hrest).trans (Cursor.passes_skipSpace _)
      have hend := Cursor.passes_of_prefix (List.singleton_prefix_iff_head?_eq_some.mpr hclosed)
      refine ⟨_, hopened.trans hend,
        Piece.cutAt_of_not_isText _ (List.cons_ne_nil _ _) (.endTag hnonempty ?_ ?_) nofun⟩
      · exact List.all_eq_true.mp List.all_takeWhile
      · exact List.all_eq_true.mp List.all_takeWhile
  | text hplain => exact passes_scanText hleft hplain

theorem tokensFrom_partition {tokens : List Token} (hscan : tokensFrom cursor = .ok tokens) :
    ∃ pieces, Partition cursor.offset cursor.rest pieces ∧
      tokens = pieces.filterMap Piece.token? := by
  fun_induction tokensFrom cursor generalizing tokens with
  | case1 cursor hend =>
      cases hscan
      exact ⟨[], hend ▸ Partition.nil cursor.offset, rfl⟩
  | case2 cursor hleft fault hfault => cases hscan
  | case3 cursor hleft token? next hone ih =>
      obtain ⟨others, hothers, hresult⟩ := bind_eq_ok_iff.mp hscan
      cases hresult
      obtain ⟨pieces, hpieces, rfl⟩ := ih hothers
      obtain ⟨span, hpasses, hpiece⟩ := scanOne_piece hleft hone
      rw [hpasses.offset_eq] at hpieces
      refine ⟨⟨span, token?⟩ :: pieces, ?_, ?_⟩
      · rw [hpasses.rest_eq]
        exact Partition.cons hpiece hpieces
      · cases token? <;> rfl

/-- Every token is found at a place that the scan comes to. -/
theorem exists_finds {tokens : List Token} {token : Token}
    (hscan : tokensFrom cursor = .ok tokens) (htoken : token ∈ tokens) :
    ∃ span place next, cursor.Passes span place ∧ place.Finds (some token) next := by
  fun_induction tokensFrom cursor generalizing tokens with
  | case1 cursor hend =>
      cases hscan
      cases htoken
  | case2 cursor hleft fault hfault => cases hscan
  | case3 cursor hleft token? next hone ih =>
      obtain ⟨others, hothers, hresult⟩ := bind_eq_ok_iff.mp hscan
      cases hresult
      rcases List.mem_append.mp htoken with hfirst | hlater
      · obtain rfl := Option.mem_toList.mp hfirst
        exact ⟨[], cursor, next, cursor.passes_refl, finds_of_scanOne hone⟩
      · obtain ⟨front, hfront, -⟩ := scanOne_piece hleft hone
        obtain ⟨span, place, last, hspan, hfinds⟩ := ih hothers hlater
        exact ⟨front ++ span, place, last, hfront.trans hspan, hfinds⟩

end Scanning

/-- The tokens come one by one from the spans of a partition of the source, in their order. -/
theorem tokenize_partitions {source : String} {tokens : List Token}
    (htokens : tokenize source = .ok tokens) :
    ∃ pieces, Partition 0 source.toList pieces ∧ tokens = pieces.filterMap Piece.token? := by
  have hscan : tokensFrom (Cursor.start source.toList) = .ok tokens :=
    mapError_eq_ok_iff.mp htokens
  exact tokensFrom_partition hscan

theorem tokenize_partitions_quote :
    let source := "1 &lt; 2\x7b\x7b! so \x7d\x7d, " ++
      "<!-- or -->he&#32;<q lang=\x7b\x7bl\x7d\x7d>\x7b\x7b\x7b t \"\x7d\x7d\" \x7d\x7d\x7d</q >"
    let tokens : List Token :=
      [.text "1 < 2" 0, .text ", " 17, .text "he " 30,
        .startTag "q" [⟨"lang", [.mustache ⟨"l", true, 45⟩], 40⟩] false 37,
        .mustache ⟨"t \"\x7d\x7d\"", false, 51⟩, .endTag "q" 65]
    tokenize source = .ok tokens ∧
      ∃ pieces, Partition 0 source.toList pieces ∧ tokens = pieces.filterMap Piece.token? := by
  intro source tokens
  have htokens : tokenize source = .ok tokens := by decide +kernel
  exact ⟨htokens, tokenize_partitions htokens⟩

end MustacheHtml.Template
