import MustacheHtml.Proofs.Bytewise.Places

namespace MustacheHtml.Template

open Text (byteLength bytes charBytes isAscii)

section Bodies

variable {state : BodyState} {c : Char} {rest : List Char}

theorem scanBody_quoted (quote : Char) (text : List Char) :
    scanBody (.quoted quote) text =
      match Text.cut? [quote] text with
      | some (content, after) => (scanBody .inToken after).map (content ++ [quote] ++ ·)
      | none => .error .unterminatedString := by
  induction text with
  | nil => rfl
  | cons c rest ih =>
      rw [scanBody, BodyState.next, Text.cut?, List.isPrefixOf_cons_cons]
      by_cases hc : c = quote
      · subst hc
        rw [if_pos rfl, if_pos (by simp)]
        rfl
      · rw [if_neg hc, if_neg (by simp [Ne.symm hc]), ih]
        cases Text.cut? [quote] rest with
        | none => rfl
        | some halves =>
            dsimp only [Option.map_some]
            cases scanBody .inToken halves.2 <;> rfl

theorem scanBody_nil (hstate : ∀ quote, state ≠ .quoted quote) :
    scanBody state [] = .error .unterminatedMustache := by
  rw [scanBody]
  exact hstate

theorem scanBody_braces (hstate : ∀ quote, state ≠ .quoted quote)
    (hbraces : ['}', '}'] <+: rest) : scanBody state rest = .ok [] := by
  obtain ⟨others, rfl⟩ := hbraces
  rw [List.cons_append, List.cons_append, scanBody]
  exact hstate

theorem scanBody_cons (hstate : ∀ quote, state ≠ .quoted quote)
    (hbraces : ¬ ['}', '}'] <+: c :: rest) :
    scanBody state (c :: rest) = (scanBody (state.next c) rest).map ([c] ++ ·) := by
  rw [scanBody]
  · cases scanBody (state.next c) rest <;> rfl
  · rintro others rfl rfl
    exact hbraces ⟨others, rfl⟩
  · exact hstate

/-- A token may start behind a space and behind an equals sign. -/
def endsToken (c : Char) : Bool :=
  Text.isSpace c || c == '='

theorem endsToken_of_isQuote (hquote : Text.isQuote c = true) : endsToken c = false := by
  rcases Expression.quote_cases hquote with rfl | rfl <;> rfl

theorem next_of_not_opening (hstate : ∀ quote, state ≠ .quoted quote)
    (hopening : ¬ (state = .tokenStart ∧ Text.isQuote c = true)) :
    state.next c = if endsToken c then .tokenStart else .inToken := by
  cases state with
  | tokenStart => rw [BodyState.next, if_neg fun hquote => hopening ⟨rfl, hquote⟩, endsToken]
  | inToken => rw [BodyState.next, endsToken]
  | quoted quote => exact absurd rfl (hstate quote)

end Bodies

namespace Bytewise

section Behind

variable {source front back : List Char} {cursor next : Cursor} {bodyStart place offset : Nat}
  {b c : Char}

theorem atTokenStart_succ (hbyte : byte? source place = some b) (hbound : bodyStart ≤ place) :
    atTokenStart source bodyStart (place + 1) = .ok (endsToken b) := by
  rw [atTokenStart, if_neg (by omega), lookBehind, Nat.add_sub_cancel, hbyte]
  dsimp only
  rw [if_pos (Nat.lt_succ_of_le hbound)]
  rfl

theorem exists_atTokenStart (hbound : bodyStart ≤ place) (hplace : place ≤ byteLength source) :
    ∃ starts, atTokenStart source bodyStart place = .ok starts := by
  rcases Nat.eq_or_lt_of_le hbound with rfl | hlt
  · exact ⟨true, if_pos rfl⟩
  · obtain ⟨before, rfl⟩ := Nat.exists_eq_add_of_lt hlt
    rw [← Text.length_bytes] at hplace
    have hbyte : byte? source (bodyStart + before) = some (bytes source)[bodyStart + before] :=
      List.getElem?_eq_getElem hplace
    exact ⟨_, atTokenStart_succ hbyte (Nat.le_add_right _ _)⟩

theorem uniform_endsToken : Text.Uniform endsToken := by
  refine uniform_of_ascii fun c hc => ?_
  simp only [endsToken, Bool.or_eq_true, beq_iff_eq] at hc
  rcases hc with hspace | rfl
  · exact isAscii_of_isSpace hspace
  · decide

theorem atTokenStart_passed (hstands : cursor.StandsIn source)
    (hpasses : cursor.Passes (front ++ [c]) next) (hbound : bodyStart ≤ cursor.offset) :
    atTokenStart source bodyStart next.offset = .ok (endsToken c) := by
  obtain ⟨before, hsource, hoffset⟩ := hstands
  obtain ⟨others, b, hbytes⟩ :=
    (charBytes c).eq_nil_or_concat'.resolve_left (Text.charBytes_ne_nil c)
  have hwhole : bytes source = bytes (before ++ front) ++ others ++ b :: bytes next.rest := by
    rw [hsource, hpasses.rest_eq]
    simp [Text.bytes_cons, hbytes]
  have hplace : next.offset = (bytes (before ++ front) ++ others).length + 1 := by
    have hsize := congrArg List.length hbytes
    rw [Text.length_charBytes, List.length_append] at hsize
    rw [hpasses.offset_eq, hoffset, List.length_append, Text.length_bytes]
    simp only [Text.byteLength_append, Text.byteLength, hsize, List.length_singleton]
    omega
  have hbyte : byte? source (bytes (before ++ front) ++ others).length = some b := by
    rw [byte?, hwhole, List.getElem?_append_right (Nat.le_refl _), Nat.sub_self]
    rfl
  rw [hplace, atTokenStart_succ hbyte, uniform_endsToken.eq_of_mem (c := c)]
  · rw [hbytes]
    exact List.mem_append_right _ List.mem_cons_self
  · rw [List.length_append, Text.length_bytes, Text.byteLength_append]
    omega

end Behind

section Walk

variable {source front back rest : List Char} {cursor next : Cursor} {bodyStart place offset : Nat}
  {state : BodyState} {c b : Char}

/-- The end of a body as an offset. -/
def ended (offset place : Nat) : Except Fault (List Char) → Except Halt Nat
  | .ok body => .ok (place + byteLength body)
  | .error fault => fail offset fault

theorem ended_map (offset place : Nat) (span : List Char) (found : Except Fault (List Char)) :
    ended offset place (found.map (span ++ ·)) = ended offset (place + byteLength span) found := by
  cases found with
  | error fault => rfl
  | ok body =>
      rw [Except.map, ended, ended, Text.byteLength_append, Nat.add_assoc]

/-- The walk through a body and the scan of its characters are at the same place, outside of a
string, and agree on whether a token may start there. -/
structure Abreast (source : List Char) (bodyStart : Nat) (state : BodyState) (cursor : Cursor) :
    Prop where
  stands : cursor.StandsIn source
  inBody : bodyStart ≤ cursor.offset
  outside : ∀ quote, state ≠ .quoted quote
  starts : atTokenStart source bodyStart cursor.offset = .ok (decide (state = .tokenStart))

theorem Abreast.passes (habreast : Abreast source bodyStart state cursor)
    (hpasses : cursor.Passes (front ++ [c]) next) :
    Abreast source bodyStart (if endsToken c then .tokenStart else .inToken) next where
  stands := habreast.stands.passes hpasses
  inBody := by
    rw [hpasses.offset_eq]
    exact Nat.le_add_right_of_le habreast.inBody
  outside quote := by split <;> exact BodyState.noConfusion
  starts := by
    rw [atTokenStart_passed habreast.stands hpasses habreast.inBody]
    cases endsToken c <;> rfl

theorem bodyEnd_inside {starts : Bool} (hbyte : byte? source place = some b)
    (hbraces : ¬ ['}', '}'] <+: ahead source place)
    (hstarts : atTokenStart source bodyStart place = .ok starts) :
    bodyEnd source offset bodyStart place =
      if starts && Text.isQuote b then do
        match Text.cut? [b] (← restAt source (place + 1)) with
        | some (content, _) =>
            bodyEnd source offset bodyStart (place + 1 + byteLength content + 1)
        | none => fail offset .unterminatedString
      else bodyEnd source offset bodyStart (place + 1) := by
  rw [bodyEnd]
  split
  · next hnone => cases hbyte.symm.trans hnone
  · next c hsome =>
      obtain rfl : b = c := Option.some.inj (hbyte.symm.trans hsome)
      rw [if_neg fun hclosing => hbraces (List.isPrefixOf_iff_prefix.mp hclosing), hstarts]
      rfl

theorem bodyEnd_braces (hbraces : ['}', '}'] <+: ahead source place) :
    bodyEnd source offset bodyStart place = .ok place := by
  rw [bodyEnd]
  split
  · next hnone =>
      rw [byte?_eq_head?, List.head?_eq_none_iff] at hnone
      rw [hnone] at hbraces
      exact absurd hbraces (by decide)
  · rw [if_pos (List.isPrefixOf_iff_prefix.mpr hbraces)]

theorem bodyEnd_none (hbyte : byte? source place = none) :
    bodyEnd source offset bodyStart place = fail offset .unterminatedMustache := by
  rw [bodyEnd]
  split
  · rfl
  · next hsome => cases hbyte.symm.trans hsome

theorem bodyEnd_wide (hahead : ahead source place = front ++ back) (hbound : bodyStart ≤ place)
    (hwide : ∀ b ∈ front, isAscii b = false) :
    bodyEnd source offset bodyStart place =
      bodyEnd source offset bodyStart (place + front.length) := by
  refine eq_behind hahead fun here hhere b hb hhead => ?_
  have hascii := hwide b hb
  have hbyte := (byte?_eq_head? source here).trans hhead
  have hbraces : ¬ ['}', '}'] <+: ahead source here := by
    rintro ⟨others, hothers⟩
    rw [← hothers] at hhead
    exact ne_of_not_isAscii hascii rfl (Option.some.inj hhead).symm
  have hquote : ¬ Text.isQuote b = true := fun hquote =>
    Bool.false_ne_true (hascii.symm.trans (isAscii_of_isQuote hquote))
  have hplace := Nat.le_of_lt (lt_of_byte? hbyte)
  obtain ⟨starts, hstarts⟩ := exists_atTokenStart (Nat.le_trans hbound hhere) hplace
  rw [bodyEnd_inside hbyte hbraces hstarts, if_neg (by simp [hquote])]

theorem bodyEnd_plain (habreast : Abreast source bodyStart state cursor)
    (hrest : cursor.rest = c :: rest) (hbraces : ¬ ['}', '}'] <+: ahead source cursor.offset)
    (hopening : ¬ (state = .tokenStart ∧ Text.isQuote c = true)) :
    bodyEnd source offset bodyStart cursor.offset =
      bodyEnd source offset bodyStart (cursor.offset + c.utf8Size) := by
  cases hc : isAscii c with
  | true =>
      have hbyte := habreast.stands.byte?_of_ascii hrest hc
      rw [bodyEnd_inside hbyte hbraces habreast.starts, if_neg, Text.utf8Size_of_ascii hc]
      rwa [Bool.and_eq_true, decide_eq_true_eq]
  | false =>
      have hahead : ahead source cursor.offset = charBytes c ++ bytes rest := by
        rw [habreast.stands.ahead_eq, hrest, Text.bytes_cons]
      rw [bodyEnd_wide hahead habreast.inBody, Text.length_charBytes]
      intro b hb
      rw [Text.isAscii_of_mem hb, hc]

theorem bodyEnd_string (habreast : Abreast source bodyStart .tokenStart cursor)
    (hrest : cursor.rest = c :: rest) (hbraces : ¬ ['}', '}'] <+: ahead source cursor.offset)
    (hquote : Text.isQuote c = true) :
    bodyEnd source offset bodyStart cursor.offset =
      match Text.cut? [c] rest with
      | some (content, _) =>
          bodyEnd source offset bodyStart (cursor.offset + 1 + byteLength content + 1)
      | none => fail offset .unterminatedString := by
  have hc := isAscii_of_isQuote hquote
  have hbyte := habreast.stands.byte?_of_ascii hrest hc
  have hpasses : cursor.Passes [c] ⟨cursor.offset + 1, rest⟩ := by
    refine ⟨hrest, ?_⟩
    rw [Text.byteLength, Text.utf8Size_of_ascii hc]
    rfl
  have hbehind : restAt source (cursor.offset + 1) = .ok rest :=
    (habreast.stands.passes hpasses).restAt_eq
  rw [bodyEnd_inside hbyte hbraces habreast.starts, if_pos, hbehind]
  · rfl
  · rw [hquote]
    rfl

theorem passes_string {content after : List Char} (hrest : cursor.rest = c :: rest)
    (hc : isAscii c) (hcut : Text.cut? [c] rest = some (content, after)) :
    cursor.Passes (c :: content ++ [c]) ⟨cursor.offset + 1 + byteLength content + 1, after⟩ := by
  constructor
  · rw [hrest, Text.cut?_eq_append hcut, List.cons_append, List.cons_append]
  · simp only [Text.byteLength_append, Text.byteLength, Text.utf8Size_of_ascii hc]
    omega

/-- The walk ends where the scan of the characters ends the body, or both fail alike. -/
theorem bodyEnd_eq (offset : Nat) (habreast : Abreast source bodyStart state cursor) :
    bodyEnd source offset bodyStart cursor.offset =
      ended offset cursor.offset (scanBody state cursor.rest) := by
  induction hlength : cursor.rest.length using Nat.strong_induction_on
    generalizing state cursor with
  | _ count ih =>
      have hahead := habreast.stands.ahead_eq
      have hbraces_iff :
          ['}', '}'] <+: ahead source cursor.offset ↔ ['}', '}'] <+: cursor.rest := by
        rw [hahead]
        exact Text.prefix_bytes_iff rfl
      cases hrest : cursor.rest with
      | nil =>
          have hbyte := habreast.stands.byte?_eq
          rw [hrest] at hbyte
          rw [bodyEnd_none hbyte, scanBody_nil habreast.outside]
          rfl
      | cons c rest =>
          rw [hrest] at hbraces_iff hlength
          by_cases hbraces : ['}', '}'] <+: c :: rest
          · rw [bodyEnd_braces (hbraces_iff.mpr hbraces), scanBody_braces habreast.outside hbraces]
            rfl
          have hopen := fun hclosing => hbraces (hbraces_iff.mp hclosing)
          rw [scanBody_cons habreast.outside hbraces, ended_map]
          by_cases hopening : state = .tokenStart ∧ Text.isQuote c = true
          · -- The scan of the characters is within the string up to where the walk has jumped.
            obtain ⟨rfl, hquote⟩ := hopening
            rw [bodyEnd_string habreast hrest hopen hquote, BodyState.next, if_pos hquote,
              scanBody_quoted]
            cases hcut : Text.cut? [c] rest with
            | none => rfl
            | some halves =>
                obtain ⟨content, after⟩ := halves
                have hpasses := passes_string hrest (isAscii_of_isQuote hquote) hcut
                have hnext := habreast.passes hpasses
                rw [endsToken_of_isQuote hquote] at hnext
                have hshorter : after.length < count := by
                  rw [← hlength, Text.cut?_eq_append hcut]
                  simp only [List.length_cons, List.length_append]
                  omega
                have hplace := hpasses.offset_eq
                rw [List.cons_append, ← List.singleton_append, Text.byteLength_append,
                  ← Nat.add_assoc] at hplace
                dsimp only at hplace ⊢
                rw [ended_map, ← hplace]
                exact ih _ hshorter hnext rfl
          · rw [bodyEnd_plain habreast hrest hopen hopening,
              next_of_not_opening habreast.outside hopening]
            have hpasses : cursor.Passes ([] ++ [c]) ⟨cursor.offset + c.utf8Size, rest⟩ :=
              ⟨hrest, rfl⟩
            exact ih _ (by rw [← hlength]; exact Nat.lt_succ_self _) (habreast.passes hpasses) rfl

end Walk

section Mustaches

variable {source : List Char} {cursor : Cursor}

theorem abreast_start (hstands : cursor.StandsIn source) :
    Abreast source cursor.offset .tokenStart cursor where
  stands := hstands
  inBody := Nat.le_refl _
  outside _ := BodyState.noConfusion
  starts := if_pos rfl

theorem skipThird_eq (hstands : cursor.StandsIn source) (triple : Bool) :
    skipThird source triple cursor.offset =
      .ok (if triple && cursor.rest.head? = some '}' then cursor.advance 1 else cursor).offset := by
  have hbyte : (byte? source cursor.offset == some '}') =
      decide (cursor.rest.head? = some '}') := by
    rw [Bool.eq_iff_iff, beq_iff_eq, decide_eq_true_eq, hstands.byte?_eq_some_iff rfl]
  rw [skipThird, hbyte]
  split
  · next hthird =>
      rw [Bool.and_eq_true, decide_eq_true_eq] at hthird
      exact hstands.goTo_succ rfl hthird.2
  · rfl

theorem byteLength_openingBraces (text : List Char) :
    byteLength (openingBraces (!isTriple text)) = openingLength text := by
  unfold openingLength openingBraces
  cases isTriple text <;> rfl

theorem advance_closed {body after : List Char}
    (hrest : cursor.rest = openingBraces (!isTriple cursor.rest) ++ (body ++ '}' :: '}' :: after)) :
    cursor.advance (openingLength cursor.rest + body.length + 2) =
      ⟨cursor.offset + openingLength cursor.rest + byteLength body + 2, after⟩ := by
  have hsplit : cursor.rest =
      (openingBraces (!isTriple cursor.rest) ++ body ++ ['}', '}']) ++ after := by
    rw [List.append_assoc, List.append_assoc]
    exact hrest
  have hcount : (openingBraces (!isTriple cursor.rest) ++ body ++ ['}', '}']).length =
      openingLength cursor.rest + body.length + 2 := by
    rw [List.length_append, List.length_append, length_openingBraces]
    rfl
  rw [← hcount, Cursor.advance_append hsplit, Text.byteLength_append, Text.byteLength_append,
    byteLength_openingBraces, ← Nat.add_assoc, ← Nat.add_assoc]
  rfl

theorem scanPlainMustache_eq (hstands : cursor.StandsIn source)
    (hstarts : startsMustache cursor.rest = true) :
    scanPlainMustache source cursor.rest cursor.offset =
      placed (Template.scanPlainMustache cursor) := by
  have hopening := rest_eq_opening hstarts
  obtain ⟨inner, hinner⟩ : ∃ inner, cursor.rest.drop (openingLength cursor.rest) = inner := ⟨_, rfl⟩
  rw [hinner] at hopening
  have hbody : cursor.Passes (openingBraces (!isTriple cursor.rest))
      ⟨cursor.offset + openingLength cursor.rest, inner⟩ := by
    refine ⟨hopening, ?_⟩
    rw [byteLength_openingBraces]
  have hstandsBody := hstands.passes hbody
  have hend := bodyEnd_eq cursor.offset (abreast_start hstandsBody)
  dsimp only at hend
  rw [scanPlainMustache, Template.scanPlainMustache, hend, hinner]
  cases hscan : scanBody .tokenStart inner with
  | error fault => rfl
  | ok body =>
      obtain ⟨-, after, rfl⟩ := scanBody_closes hscan
      let stop : Cursor :=
        ⟨cursor.offset + openingLength cursor.rest + byteLength body, '}' :: '}' :: after⟩
      have hinside : Cursor.Passes ⟨cursor.offset + openingLength cursor.rest, _⟩ body stop :=
        ⟨rfl, rfl⟩
      have hbraces : stop.Passes ['}', '}'] ⟨stop.offset + 2, after⟩ := ⟨rfl, rfl⟩
      have hclosed := (hstandsBody.passes hinside).passes hbraces
      have hslice := hstandsBody.slice_eq hinside
      dsimp only
      rw [advance_closed hopening, ended]
      simp only [bind, Except.bind]
      rw [hclosed.goTo_eq]
      dsimp only
      rw [skipThird_eq hclosed, hslice]
      dsimp only
      split <;> rfl

/-- The mustache at a place is the same byte by byte, and no step on the way goes astray. -/
theorem scanMustache_eq (hstands : cursor.StandsIn source)
    (hstarts : startsMustache cursor.rest = true) :
    scanMustache source cursor.offset = placed (Template.scanMustache cursor) := by
  rw [scanMustache, hstands.restAt_eq, Template.scanMustache]
  simp only [bind, Except.bind]
  split
  · rw [hstands.skipPast_eq]
    cases Template.skipPast ['-', '-', '}', '}'] .unterminatedComment cursor <;> rfl
  split
  · rw [hstands.skipPast_eq]
    cases Template.skipPast ['}', '}'] .unterminatedComment cursor <;> rfl
  · rw [scanPlainMustache_eq hstands hstarts]
    cases Template.scanPlainMustache cursor <;> rfl

end Mustaches

end Bytewise

end MustacheHtml.Template
