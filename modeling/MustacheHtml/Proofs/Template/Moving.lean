import MustacheHtml.Proofs.Template.Segments

/-!
The scan does not look at what it has not come to. Text is scanned as it is by itself wherever it
stands, with offsets that count from the start of the source, unless the text behind it goes on with
what would have ended.
-/

namespace MustacheHtml.Template

/-- The same place in a longer source, with so many bytes before and more text behind. -/
def Cursor.within (count : Nat) (behind : List Char) (cursor : Cursor) : Cursor :=
  ⟨count + cursor.offset, cursor.rest ++ behind⟩

/-- The mustache with its place moved on by some bytes. -/
def RawMustache.shift (count : Nat) (raw : RawMustache) : RawMustache :=
  { raw with offset := count + raw.offset }

def RawPart.shift (count : Nat) : RawPart → RawPart
  | .text content => .text content
  | .mustache raw => .mustache (raw.shift count)

/-- The attribute with all its places moved on. -/
def RawAttribute.shift (count : Nat) (attr : RawAttribute) : RawAttribute :=
  { attr with value := attr.value.map (RawPart.shift count), offset := count + attr.offset }

/-- The token with all its places moved on. -/
def Token.shift (count : Nat) : Token → Token
  | .text content offset => .text content (count + offset)
  | .mustache raw => .mustache (raw.shift count)
  | .startTag name attributes selfClosing offset =>
      .startTag name (attributes.map (RawAttribute.shift count)) selfClosing (count + offset)
  | .endTag name offset => .endTag name (count + offset)

theorem RawMustache.shift_zero (raw : RawMustache) : raw.shift 0 = raw := by
  rw [shift, Nat.zero_add]

theorem RawPart.shift_zero (part : RawPart) : part.shift 0 = part := by
  cases part with
  | text content => rfl
  | mustache raw => rw [shift, RawMustache.shift_zero]

theorem RawAttribute.shift_zero (attr : RawAttribute) : attr.shift 0 = attr := by
  rw [shift, List.map_congr_left fun part _ => RawPart.shift_zero part, List.map_id',
    Nat.zero_add]

theorem Token.shift_zero (token : Token) : token.shift 0 = token := by
  cases token with
  | text content offset => rw [shift, Nat.zero_add]
  | mustache raw => rw [shift, RawMustache.shift_zero]
  | startTag name attributes selfClosing offset =>
      rw [shift, List.map_congr_left fun attr _ => RawAttribute.shift_zero attr, List.map_id',
        Nat.zero_add]
  | endTag name offset => rw [shift, Nat.zero_add]

section Cursors

variable {cursor : Cursor} {count : Nat} {behind text : List Char}

@[simp] theorem Cursor.rest_within :
    (cursor.within count behind).rest = cursor.rest ++ behind :=
  rfl

theorem Cursor.rest_within_cons {c : Char} {after : List Char} (hrest : cursor.rest = c :: after) :
    (cursor.within count behind).rest = c :: (after ++ behind) := by
  rw [rest_within, hrest, List.cons_append]

@[simp] theorem Cursor.offset_within :
    (cursor.within count behind).offset = count + cursor.offset :=
  rfl

theorem Cursor.advance_within {taken : Nat} (htaken : taken ≤ cursor.rest.length) :
    (cursor.within count behind).advance taken = (cursor.advance taken).within count behind := by
  simp only [advance, within, List.take_append_of_le_length htaken,
    List.drop_append_of_le_length htaken, Nat.add_assoc]

theorem takeWhile_append_of_stops {test : Char → Bool} (hstops : text.dropWhile test ≠ []) :
    (text ++ behind).takeWhile test = text.takeWhile test := by
  obtain ⟨c, rest, hdrop⟩ := List.exists_cons_of_ne_nil hstops
  have hc : test c = false := head?_dropWhile text c (by rw [hdrop]; rfl)
  have hsplit := (List.takeWhile_append_dropWhile (p := test) (l := text)).symm
  rw [hdrop] at hsplit
  conv_lhs => rw [hsplit, List.append_assoc, List.cons_append]
  exact takeWhile_append_cons (List.all_eq_true.mp List.all_takeWhile) hc

theorem Cursor.skipSpace_within (hstops : cursor.skipSpace.rest ≠ []) :
    (cursor.within count behind).skipSpace = cursor.skipSpace.within count behind := by
  rw [Cursor.rest_skipSpace] at hstops
  rw [skipSpace, rest_within, takeWhile_append_of_stops hstops]
  exact advance_within (List.takeWhile_prefix _).length_le

theorem prefix_append_iff {mark : List Char} (hlong : mark.length ≤ text.length) :
    mark <+: text ++ behind ↔ mark <+: text := by
  constructor
  · intro hmark
    exact List.prefix_of_prefix_length_le hmark (List.prefix_append _ _) hlong
  · intro hmark
    exact hmark.trans (List.prefix_append _ _)

end Cursors

section Mustaches

variable {cursor next : Cursor} {count : Nat} {behind text : List Char}

theorem not_scanBody_nil {state : BodyState} {body : List Char} :
    scanBody state [] ≠ .ok body := by
  cases state <;> exact nofun

theorem scanBody_append {state : BodyState} {body : List Char}
    (hscan : scanBody state text = .ok body) : scanBody state (text ++ behind) = .ok body := by
  fun_induction scanBody state text generalizing body with
  | case1 quote => cases hscan
  | case2 quote c rest ih =>
      obtain ⟨others, hothers, hjoin⟩ := bind_eq_ok_iff.mp hscan
      cases hjoin
      rw [List.cons_append, scanBody, ih hothers]
      rfl
  | case3 state hstate => cases hscan
  | case4 state after hstate =>
      cases hscan
      cases state with
      | quoted quote => exact absurd rfl (hstate quote)
      | _ => rfl
  | case5 state c rest hstate hbraces ih =>
      obtain ⟨others, hothers, hjoin⟩ := bind_eq_ok_iff.mp hscan
      cases hjoin
      rw [List.cons_append, scanBody, ih hothers]
      · rfl
      · rintro after rfl hafter
        cases rest with
        | nil => exact not_scanBody_nil hothers
        | cons d more =>
            obtain ⟨rfl, -⟩ := List.cons.inj hafter
            exact hbraces more rfl rfl
      · exact hstate

theorem cut?_append_right {mark before after : List Char} (hmark : mark ≠ [])
    (hcut : Text.cut? mark text = some (before, after)) :
    Text.cut? mark (text ++ behind) = some (before, after ++ behind) := by
  induction text generalizing before after with
  | nil =>
      rw [Text.cut?, if_neg hmark] at hcut
      cases hcut
  | cons c rest ih =>
      rw [List.cons_append, Text.cut?]
      rw [Text.cut?] at hcut
      split at hcut
      · next hstarts =>
          cases hcut
          have hlong := (List.isPrefixOf_iff_prefix.mp hstarts)
          rw [← List.cons_append, if_pos, List.drop_append_of_le_length hlong.length_le]
          exact List.isPrefixOf_iff_prefix.mpr (hlong.trans (List.prefix_append _ _))
      · next hstarts =>
          obtain ⟨⟨before', after'⟩, hfound, hsame⟩ := Option.map_eq_some_iff.mp hcut
          cases hsame
          have hlong : mark.length ≤ (c :: rest).length := by
            have hlength := congrArg List.length (Text.cut?_eq_append hfound)
            simp only [List.length_append, List.length_cons] at hlength ⊢
            omega
          rw [← List.cons_append, if_neg, ih hfound]
          · rfl
          · rwa [List.isPrefixOf_iff_prefix, prefix_append_iff hlong, ← List.isPrefixOf_iff_prefix]

theorem skipPast_within {mark : List Char} {fault : Fault} (hmark : mark ≠ [])
    (hskip : skipPast mark fault cursor = .ok next) :
    skipPast mark fault (cursor.within count behind) = .ok (next.within count behind) := by
  unfold skipPast at hskip ⊢
  split at hskip
  · next before after hcut =>
      cases hskip
      have hjoined := congrArg List.length (Text.cut?_eq_append hcut)
      rw [Cursor.rest_within, cut?_append_right hmark hcut]
      dsimp only
      rw [Cursor.advance_within]
      simp only [List.length_append] at hjoined
      omega
  · cases hskip

theorem isTriple_iff : isTriple text = true ↔ ['{', '{', '{'] <+: text := by
  unfold isTriple
  split
  · next rest => simp
  · next hbraces =>
      refine ⟨fun hfalse => (Bool.false_ne_true hfalse).elim, ?_⟩
      rintro ⟨rest, rfl⟩
      exact absurd rfl (hbraces rest)

theorem rest_eq_of_triple (htriple : isTriple text = true) :
    text = ['{', '{', '{'] ++ text.drop (openingLength text) := by
  rw [openingLength, if_pos htriple]
  obtain ⟨rest, rfl⟩ := isTriple_iff.mp htriple
  rfl

theorem isTriple_append (hlong : 3 ≤ text.length) : isTriple (text ++ behind) = isTriple text := by
  have hbraces : ['{', '{', '{'].length ≤ text.length := hlong
  rw [Bool.eq_iff_iff, isTriple_iff, isTriple_iff, prefix_append_iff hbraces]

theorem two_le_openingLength (text : List Char) : 2 ≤ openingLength text := by
  unfold openingLength
  split <;> decide

theorem length_of_scanBody {body : List Char}
    (hbody : scanBody .tokenStart (text.drop (openingLength text)) = .ok body) :
    openingLength text + body.length + 2 ≤ text.length := by
  obtain ⟨-, after, hafter⟩ := scanBody_closes hbody
  have hlengths := congrArg List.length hafter
  simp only [List.length_drop, List.length_append, List.length_cons] at hlengths
  omega

/-- A mustache whose braces the text behind cannot go on with. -/
def ClosesApart (behind : List Char) (cursor next : Cursor) : Prop :=
  ['{', '{', '{'] <+: cursor.rest → next.rest = [] → ¬ ['}', '}', '}'] <:+ cursor.rest →
    behind.head? ≠ some '}'

theorem ClosesApart.of_head (hbehind : behind.head? ≠ some '}') : ClosesApart behind cursor next :=
  fun _ _ _ => hbehind

theorem isQuote_of_inString {quote : Char}
    (hstate : text.foldl BodyState.next .tokenStart = .quoted quote) :
    Text.isQuote quote = true := by
  induction text using List.reverseRecOn with
  | nil => cases hstate
  | append_singleton front c ih =>
      rw [List.foldl_append, List.foldl_cons, List.foldl_nil] at hstate
      cases hfront : front.foldl BodyState.next .tokenStart with
      | quoted held =>
          rw [hfront, BodyState.next] at hstate
          split at hstate
          · cases hstate
          · exact ih (hfront.trans hstate)
      | tokenStart =>
          rw [hfront, BodyState.next] at hstate
          split at hstate
          · next hquote =>
              cases hstate
              exact hquote
          · split at hstate <;> cases hstate
      | inToken =>
          rw [hfront, BodyState.next] at hstate
          split at hstate <;> cases hstate

theorem ClosesAfter.getLast?_ne {body : List Char} (hcloses : ClosesAfter .tokenStart body) :
    body.getLast? ≠ some '}' := by
  intro hlast
  obtain ⟨front, rfl⟩ := List.getLast?_eq_some_iff.mp hlast
  obtain ⟨quote, hquoted⟩ := hcloses.first front ['}'] (by simp) (by simp)
  refine hcloses.outside ⟨quote, ?_⟩
  rw [List.foldl_append, hquoted, List.foldl_cons, List.foldl_nil, BodyState.next, if_neg]
  rintro rfl
  exact absurd (isQuote_of_inString hquoted) (by decide)

theorem not_threeBraces {opening body : List Char} (hopening : opening.getLast? ≠ some '}')
    (hcloses : ClosesAfter .tokenStart body) :
    ¬ ['}', '}', '}'] <:+ opening ++ (body ++ ['}', '}']) := by
  rintro ⟨front, hfront⟩
  have hsplit : (front ++ ['}']) ++ ['}', '}'] = (opening ++ body) ++ ['}', '}'] := by
    rw [List.append_assoc, List.append_assoc]
    exact hfront
  have hlast := congrArg List.getLast? (List.append_cancel_right hsplit)
  rw [List.getLast?_append, List.getLast?_append, List.getLast?_singleton, Option.some_or] at hlast
  cases hbody : body.getLast? with
  | none => exact hopening (by rw [hlast, hbody, Option.none_or])
  | some c =>
      rw [hbody, Option.some_or] at hlast
      exact hcloses.getLast?_ne (hbody.trans hlast.symm)

theorem scanPlainMustache_within {raw : RawMustache}
    (hscan : scanPlainMustache cursor = .ok (raw, next)) (hapart : ClosesApart behind cursor next) :
    scanPlainMustache (cursor.within count behind) =
      .ok (raw.shift count, next.within count behind) := by
  unfold scanPlainMustache at hscan ⊢
  split at hscan
  · cases hscan
  · next body hbody =>
      obtain ⟨hcloses, after, hafter⟩ := scanBody_closes hbody
      have hlong := length_of_scanBody hbody
      have hopening := two_le_openingLength cursor.rest
      have htriple : isTriple (cursor.rest ++ behind) = isTriple cursor.rest :=
        isTriple_append (by omega)
      have hlength : openingLength (cursor.rest ++ behind) = openingLength cursor.rest := by
        rw [openingLength, openingLength, htriple]
      rw [Cursor.rest_within, hlength, List.drop_append_of_le_length (by omega),
        scanBody_append hbody]
      dsimp only at hscan ⊢
      rw [htriple, Cursor.advance_within hlong, Cursor.rest_within]
      split at hscan
      · next hthree =>
          obtain ⟨hbraces, hmore⟩ := Bool.and_eq_true_iff.mp hthree
          cases hscan
          obtain ⟨others, hclosed⟩ := List.head?_eq_some_iff.mp (of_decide_eq_true hmore)
          rw [if_pos]
          · rw [Cursor.advance_within]
            · rfl
            · rw [hclosed]
              exact Nat.succ_pos _
          · rw [hbraces, hclosed]
            rfl
      · next hthree =>
          cases hscan
          rw [if_neg]
          · rfl
          · intro hmore
            apply hthree
            obtain ⟨hbraces, hhead⟩ := Bool.and_eq_true_iff.mp hmore
            refine Bool.and_eq_true_iff.mpr ⟨hbraces, ?_⟩
            cases hclosed : (cursor.advance (openingLength cursor.rest + body.length + 2)).rest with
            | nil =>
                rw [hclosed, List.nil_append] at hhead
                have hopens := isTriple_iff.mp hbraces
                refine absurd (of_decide_eq_true hhead) (hapart hopens hclosed ?_)
                have hnone : after = [] := by
                  rw [Cursor.rest_advance, Nat.add_assoc, ← List.drop_drop, hafter] at hclosed
                  simpa using hclosed
                rw [rest_eq_of_triple hbraces, hafter, hnone]
                exact not_threeBraces (by decide) hcloses
            | cons c others =>
                rw [hclosed] at hhead
                exact hhead

theorem length_of_scanPlainMustache {raw : RawMustache}
    (hscan : scanPlainMustache cursor = .ok (raw, next)) :
    ['{', '{', '!'].length ≤ cursor.rest.length := by
  unfold scanPlainMustache at hscan
  split at hscan
  · cases hscan
  · next body hbody =>
      have hlong := length_of_scanBody hbody
      have hopening := two_le_openingLength cursor.rest
      simp only [List.length_cons, List.length_nil]
      omega

theorem length_of_comment {fault : Fault} (hbang : ['{', '{', '!'].isPrefixOf cursor.rest = true)
    (hskip : skipPast ['}', '}'] fault cursor = .ok next) :
    ['{', '{', '!', '-', '-'].length ≤ cursor.rest.length := by
  obtain ⟨inner, hinner⟩ := List.isPrefixOf_iff_prefix.mp hbang
  unfold skipPast at hskip
  split at hskip
  · next before after hcut =>
      rw [← hinner] at hcut ⊢
      obtain ⟨body, hbody, -⟩ : ∃ body, Text.cut? ['}', '}'] inner = some (body, after) ∧
          '{' :: '{' :: '!' :: body = before := by
        simpa [Text.cut?] using hcut
      have hlengths := congrArg List.length (Text.cut?_eq_append hbody)
      simp only [List.length_append, List.length_cons, List.length_nil] at hlengths ⊢
      omega
  · cases hskip

theorem scanMustache_within {raw? : Option RawMustache}
    (hscan : scanMustache cursor = .ok (raw?, next)) (hapart : ClosesApart behind cursor next) :
    scanMustache (cursor.within count behind) =
      .ok (raw?.map (RawMustache.shift count), next.within count behind) := by
  unfold scanMustache at hscan ⊢
  rw [Cursor.rest_within]
  split at hscan
  · next hdashes =>
      obtain ⟨place, hskip, hresult⟩ := bind_eq_ok_iff.mp hscan
      cases hresult
      rw [if_pos, skipPast_within (by decide) hskip]
      · rfl
      · rw [List.isPrefixOf_iff_prefix] at hdashes ⊢
        exact hdashes.trans (List.prefix_append _ _)
  · next hplain =>
      split at hscan
      · next hbang =>
          obtain ⟨place, hskip, hresult⟩ := bind_eq_ok_iff.mp hscan
          cases hresult
          rw [if_neg, if_pos, skipPast_within (by decide) hskip]
          · rfl
          · rw [List.isPrefixOf_iff_prefix] at hbang ⊢
            exact hbang.trans (List.prefix_append _ _)
          · rwa [List.isPrefixOf_iff_prefix, prefix_append_iff (length_of_comment hbang hskip),
              ← List.isPrefixOf_iff_prefix]
      · next hbang =>
          obtain ⟨⟨mustache, place⟩, hfound, hresult⟩ := bind_eq_ok_iff.mp hscan
          cases hresult
          have hopens : ¬ ['{', '{', '!'] <+: cursor.rest ++ behind := by
            rwa [prefix_append_iff (length_of_scanPlainMustache hfound),
              ← List.isPrefixOf_iff_prefix]
          rw [if_neg, if_neg, scanPlainMustache_within hfound hapart]
          · rfl
          · rwa [List.isPrefixOf_iff_prefix]
          · rw [List.isPrefixOf_iff_prefix]
            exact fun hdashes => hopens (List.IsPrefix.trans ⟨['-', '-'], rfl⟩ hdashes)

end Mustaches

section Values

variable {cursor next : Cursor} {count : Nat} {behind text : List Char} {stops : Char → Bool}

theorem startsMustache_append (hlong : 2 ≤ text.length) :
    startsMustache (text ++ behind) = startsMustache text := by
  have hbraces : ['{', '{'].length ≤ text.length := hlong
  rw [Bool.eq_iff_iff, startsMustache_iff, startsMustache_iff, prefix_append_iff hbraces]

theorem head?_append_of_ne (hnonempty : text ≠ []) : (text ++ behind).head? = text.head? := by
  obtain ⟨c, rest, rfl⟩ := List.exists_cons_of_ne_nil hnonempty
  rfl

theorem takeLiteral_append {left : List Char} (hsplit : text = takeLiteral stops text ++ left)
    (hleft : left ≠ []) : takeLiteral stops (text ++ behind) = takeLiteral stops text := by
  obtain ⟨rest, hjoined, hend, hinside⟩ := takeUntil_splits
    (fun text => startsMustache text || text.head?.any stops) text
  obtain rfl : rest = left := List.append_cancel_left (hjoined.symm.trans hsplit)
  conv_lhs => rw [hsplit, List.append_assoc]
  refine takeUntil_of_splits ?_ (.inr ?_)
  · intro skipped inner hinner hnonempty
    have hpass := hinside skipped inner hinner hnonempty
    have hlong : 2 ≤ (inner ++ rest).length := by
      have hfirst := List.length_pos_iff.mpr hnonempty
      have hsecond := List.length_pos_iff.mpr hleft
      rw [List.length_append]
      omega
    rwa [← List.append_assoc, startsMustache_append hlong,
      head?_append_of_ne (List.append_ne_nil_of_left_ne_nil hnonempty rest)]
  · have hstop := hend.resolve_left hleft
    rw [head?_append_of_ne hleft]
    rcases Bool.or_eq_true_iff.mp hstop with hstarts | hstops
    · have hopens := (startsMustache_iff.mp hstarts).trans (List.prefix_append rest behind)
      rw [startsMustache_iff.mpr hopens, Bool.true_or]
    · rw [hstops, Bool.or_true]

theorem Cursor.FindsParts.ne_nil {parts : List RawPart}
    (hfinds : cursor.FindsParts stops parts next) (hleft : next.rest ≠ []) : cursor.rest ≠ [] := by
  obtain ⟨span, hpasses⟩ := hfinds.passes
  rw [hpasses.rest_eq]
  exact List.append_ne_nil_of_right_ne_nil span hleft

theorem Cursor.FindsParts.within {parts : List RawPart}
    (hfinds : cursor.FindsParts stops parts next) (hleft : next.rest ≠ []) :
    (cursor.within count behind).FindsParts stops (parts.map (RawPart.shift count))
      (next.within count behind) := by
  induction hfinds with
  | @done cursor hends =>
      refine .done ?_
      rwa [Cursor.rest_within, head?_append_of_ne hleft]
  | @mustache cursor place next raw? parts hstarts hbrace hscan hothers ih =>
      have hapart : ClosesApart behind cursor place :=
        fun _ hnone => absurd hnone (hothers.ne_nil hleft)
      have hopens : startsMustache (cursor.within count behind).rest = true :=
        startsMustache_iff.mpr ((startsMustache_iff.mp hstarts).trans (List.prefix_append _ _))
      have hmoved := Cursor.FindsParts.mustache hopens hbrace (scanMustache_within hscan hapart)
        (ih hleft)
      cases raw? <;> exact hmoved
  | @literal cursor next span parts hspan hnonempty hothers ih =>
      obtain ⟨left, hsplit, -, -⟩ :=
        takeUntil_splits (fun text => startsMustache text || text.head?.any stops) cursor.rest
      rw [← takeLiteral] at hsplit
      have hpasses : cursor.Passes span (cursor.advance span.length) :=
        Cursor.passes_of_prefix ⟨left, hspan ▸ hsplit.symm⟩
      have hmore : left ≠ [] := by
        have hreached := hothers.ne_nil hleft
        rwa [hspan, Cursor.rest_advance_append hsplit] at hreached
      refine .literal ?_ hnonempty ?_
      · rw [Cursor.rest_within, takeLiteral_append hsplit hmore]
        exact hspan
      · rw [Cursor.advance_within]
        · exact ih hleft
        · rw [hpasses.rest_eq, List.length_append]
          exact Nat.le_add_right _ _

theorem Cursor.FindsValue.within {parts : List RawPart} (hfinds : cursor.FindsValue parts next)
    (hleft : next.rest ≠ []) :
    (cursor.within count behind).FindsValue (parts.map (RawPart.shift count))
      (next.within count behind) := by
  cases hfinds with
  | @quoted quote after parts last hrest hquote hinner hclosed =>
      obtain ⟨others, hlast⟩ := List.head?_eq_some_iff.mp hclosed
      have hnonempty : last.rest ≠ [] := hlast ▸ List.cons_ne_nil quote others
      rw [← Cursor.advance_within (List.length_pos_iff.mpr hnonempty)]
      refine .quoted (Cursor.rest_within_cons hrest) hquote ?_ ?_
      · rw [Cursor.advance_within (by simp [hrest])]
        exact hinner.within hnonempty
      · rwa [Cursor.rest_within, head?_append_of_ne hnonempty]
  | unquoted hrest hquote hend hinner =>
      exact .unquoted (Cursor.rest_within_cons hrest) hquote hend (hinner.within hleft)

theorem Cursor.FindsValue.ne_nil {parts : List RawPart} (hfinds : cursor.FindsValue parts next) :
    cursor.rest ≠ [] := by
  cases hfinds with
  | quoted hrest hquote hinner hclosed => exact hrest ▸ List.cons_ne_nil _ _
  | unquoted hrest hquote hend hinner => exact hrest ▸ List.cons_ne_nil _ _

end Values

section Tags

variable {cursor next : Cursor} {count : Nat} {behind text : List Char}

theorem Cursor.ne_nil_of_skipSpace (hleft : cursor.skipSpace.rest ≠ []) : cursor.rest ≠ [] := by
  intro hnone
  rw [Cursor.rest_skipSpace, hnone] at hleft
  exact hleft rfl

theorem Cursor.Names.within {name : List Char} {named : Cursor} (hnamed : cursor.Names name named)
    (hleft : named.rest ≠ []) :
    (cursor.within count behind).Names name (named.within count behind) := by
  obtain ⟨rfl, hnonempty, rfl⟩ := hnamed
  have hdrop : (cursor.advance (cursor.rest.takeWhile isAttributeNameChar).length).rest =
      cursor.rest.dropWhile isAttributeNameChar :=
    Cursor.rest_advance_append List.takeWhile_append_dropWhile.symm
  have hstops := Cursor.ne_nil_of_skipSpace hleft
  rw [hdrop] at hstops
  refine ⟨(takeWhile_append_of_stops hstops).symm, hnonempty, ?_⟩
  rw [Cursor.advance_within (List.takeWhile_prefix _).length_le, Cursor.skipSpace_within hleft]

theorem Cursor.FindsAttribute.within {attr : RawAttribute}
    (hfinds : cursor.FindsAttribute attr next) (hleft : next.rest ≠ []) :
    (cursor.within count behind).FindsAttribute (attr.shift count) (next.within count behind) := by
  cases hfinds with
  | bare hnamed hbare =>
      refine .bare (hnamed.within hleft) ?_
      rwa [Cursor.rest_within, head?_append_of_ne hleft]
  | @assigned name named _ value hnamed hequals hvalue =>
      obtain ⟨others, hnext⟩ := List.head?_eq_some_iff.mp hequals
      have hstops : named.rest ≠ [] := hnext ▸ List.cons_ne_nil '=' others
      refine .assigned (hnamed.within hstops) ?_ ?_
      · rwa [Cursor.rest_within, head?_append_of_ne hstops]
      · rw [Cursor.advance_within (List.length_pos_iff.mpr hstops),
          Cursor.skipSpace_within hvalue.ne_nil]
        exact hvalue.within hleft

/-- The end of a tag with the places of the attributes moved on. -/
def TagEnd.shift (count : Nat) (tagEnd : TagEnd) : TagEnd :=
  { tagEnd with attributes := tagEnd.attributes.map (RawAttribute.shift count) }

theorem Cursor.FindsTagEnd.ne_nil {tagEnd : TagEnd} (hfinds : cursor.FindsTagEnd tagEnd next) :
    cursor.skipSpace.rest ≠ [] := by
  cases hfinds with
  | closed hrest => exact hrest ▸ List.cons_ne_nil _ _
  | selfClosed hrest => exact hrest ▸ List.cons_ne_nil _ _
  | cons hplain hattr hothers =>
      obtain ⟨c, rest, hrest, -⟩ := hattr.exists_cons
      exact hrest ▸ List.cons_ne_nil c rest

theorem Cursor.FindsTagEnd.within {tagEnd : TagEnd} (hfinds : cursor.FindsTagEnd tagEnd next) :
    (cursor.within count behind).FindsTagEnd (tagEnd.shift count) (next.within count behind) := by
  have hspace : (cursor.within count behind).skipSpace = cursor.skipSpace.within count behind :=
    Cursor.skipSpace_within hfinds.ne_nil
  induction hfinds with
  | @closed cursor rest hrest =>
      rw [← Cursor.advance_within (by simp [hrest]), ← hspace]
      exact .closed (hspace ▸ Cursor.rest_within_cons hrest)
  | @selfClosed cursor rest hrest =>
      rw [← Cursor.advance_within (by simp [hrest]), ← hspace]
      exact .selfClosed (hspace ▸ Cursor.rest_within_cons hrest)
  | @cons cursor place next attr tagEnd hplain hattr hothers ih =>
      have hleft := Cursor.ne_nil_of_skipSpace hothers.ne_nil
      have hlong : ['{', '{'].length ≤ cursor.skipSpace.rest.length := by
        have hshorter := length_scanAttribute (scanAttribute_eq_ok_iff.mpr hattr)
        have hmore := List.length_pos_iff.mpr hleft
        simp only [List.length_cons, List.length_nil]
        omega
      have hmoved : (cursor.within count behind).skipSpace.FindsAttribute (attr.shift count)
          (place.within count behind) := hspace ▸ hattr.within hleft
      refine Cursor.FindsTagEnd.cons ?_ hmoved (ih (Cursor.skipSpace_within hothers.ne_nil))
      rwa [hspace, Cursor.rest_within, prefix_append_iff hlong]

theorem scanAttributes_within {tag : String} {offset : Nat} {tagEnd : TagEnd} (place : Nat)
    (hscan : scanAttributes tag offset cursor = .ok (tagEnd, next)) :
    scanAttributes tag place (cursor.within count behind) =
      .ok (tagEnd.shift count, next.within count behind) :=
  (scanAttributes_eq_ok_iff.mp hscan).within.scanAttributes_eq tag place

theorem tagName_within (mark : List Char) {after : List Char} (count : Nat) (behind : List Char)
    (hrest : cursor.rest = mark ++ after)
    (hleft : (cursor.advance (mark.length + (after.takeWhile isNameChar).length)).rest ≠ []) :
    (after ++ behind).takeWhile isNameChar = after.takeWhile isNameChar ∧
      (cursor.within count behind).advance (mark.length + (after.takeWhile isNameChar).length) =
        (cursor.advance (mark.length + (after.takeWhile isNameChar).length)).within count
          behind := by
  have hpasses := passes_tagName mark hrest
  have hbehind : (cursor.advance (mark.length + (after.takeWhile isNameChar).length)).rest =
      after.dropWhile isNameChar := by
    refine List.append_cancel_left (hpasses.rest_eq.symm.trans ?_)
    rw [hrest, List.append_assoc, List.takeWhile_append_dropWhile]
  refine ⟨takeWhile_append_of_stops (hbehind ▸ hleft), Cursor.advance_within ?_⟩
  rw [hpasses.rest_eq, List.length_append, List.length_append]
  exact Nat.le_add_right _ _

end Tags

section Texts

variable {cursor next : Cursor} {count : Nat} {behind text : List Char}

/-- Behind the text nothing follows or markup, and no markup begins with the end of the text. -/
structure StandsApart (text behind : List Char) : Prop where
  opens : behind = [] ∨ OpensMarkup behind
  apart : ∀ c ∈ text.getLast?, ¬ OpensMarkup (c :: behind)

theorem StandsApart.of_suffix {left : List Char} (hapart : StandsApart text behind)
    (hsuffix : left <:+ text) : StandsApart left behind := by
  refine ⟨hapart.opens, fun c hc => hapart.apart c ?_⟩
  exact getLast?_of_suffix hsuffix hc

theorem StandsApart.nil (text : List Char) : StandsApart text [] := by
  refine ⟨.inl rfl, fun c _ => ?_⟩
  simp [OpensMarkup]

theorem StandsApart.opensMarkup_iff (hapart : StandsApart text behind) (hnonempty : text ≠ []) :
    OpensMarkup (text ++ behind) ↔ OpensMarkup text := by
  match text with
  | [] => exact absurd rfl hnonempty
  | [c] =>
      refine iff_of_false (hapart.apart c rfl) ?_
      simp [OpensMarkup]
  | c :: d :: rest => simp [OpensMarkup]

theorem StandsApart.head?_ne (hapart : StandsApart text behind) : behind.head? ≠ some '}' := by
  rcases hapart.opens with rfl | hopens
  · exact nofun
  · rcases hopens with ⟨rest, rfl⟩ | ⟨rest, rfl⟩ | ⟨rest, rfl⟩ | ⟨letter, -, rest, rfl⟩ <;>
      exact of_decide_eq_true rfl

theorem takeUntil_markup_append (hapart : StandsApart text behind) :
    takeUntil startsMarkup (text ++ behind) = takeUntil startsMarkup text := by
  obtain ⟨left, hsplit, hend, hinside⟩ := takeUntil_splits startsMarkup text
  conv_lhs => rw [hsplit, List.append_assoc]
  have hleft : left <:+ text := ⟨_, hsplit.symm⟩
  refine takeUntil_of_splits ?_ ?_
  · intro skipped inner hinner hnonempty
    have hsuffix : inner ++ left <:+ text :=
      ⟨skipped, by rw [← List.append_assoc, ← hinner, ← hsplit]⟩
    have hpass := hinside skipped inner hinner hnonempty
    rw [← Bool.not_eq_true, startsMarkup_iff] at hpass ⊢
    rwa [← List.append_assoc, (hapart.of_suffix hsuffix).opensMarkup_iff
      (List.append_ne_nil_of_left_ne_nil hnonempty left)]
  · by_cases hnone : left = []
    · rw [hnone, List.nil_append]
      exact hapart.opens.imp_right startsMarkup_iff.mpr
    · refine .inr (startsMarkup_iff.mpr ?_)
      rw [(hapart.of_suffix hleft).opensMarkup_iff hnone, ← startsMarkup_iff]
      exact hend.resolve_left hnone

theorem scanText_within (hnonempty : cursor.rest ≠ []) (hapart : StandsApart cursor.rest behind) :
    scanText (cursor.within count behind) =
      ((scanText cursor).1.shift count, (scanText cursor).2.within count behind) := by
  have hfirst : 1 ≤ cursor.rest.length := List.length_pos_iff.mpr hnonempty
  have htaken : (cursor.rest.take 1 ++ takeUntil startsMarkup (cursor.rest.drop 1)).length ≤
      cursor.rest.length := by
    obtain ⟨left, hsplit, -, -⟩ := takeUntil_splits startsMarkup (cursor.rest.drop 1)
    have hlength := congrArg List.length hsplit
    simp only [List.length_append, List.length_drop, List.length_take] at hlength ⊢
    omega
  unfold scanText
  rw [Cursor.rest_within, List.take_append_of_le_length hfirst,
    List.drop_append_of_le_length hfirst,
    takeUntil_markup_append (hapart.of_suffix (List.drop_suffix 1 _))]
  dsimp only
  rw [Cursor.advance_within htaken]
  rfl

theorem not_dashes_append {fault : Fault} {rest : List Char}
    (hrest : cursor.rest = '<' :: '!' :: rest) (hplain : ¬ ['-', '-'] <+: rest)
    (hskip : skipPast ['>'] fault cursor = .ok next) : ¬ ['-', '-'] <+: rest ++ behind := by
  unfold skipPast at hskip
  split at hskip
  · next before after hcut =>
      rw [hrest] at hcut
      obtain ⟨inner, hinner, -⟩ : ∃ inner, Text.cut? ['>'] rest = some (inner, after) ∧
          '<' :: '!' :: inner = before := by
        simpa [Text.cut?] using hcut
      obtain rfl := Text.cut?_eq_append hinner
      cases inner with
      | nil => simp
      | cons c others =>
          rwa [prefix_append_iff (by
            simp only [List.length_append, List.length_cons, List.length_nil]; omega)]
  · cases hskip

/-- What is found is found in a longer source too. -/
theorem Cursor.Finds.within {token? : Option Token} (hfinds : cursor.Finds token? next)
    (hnonempty : cursor.rest ≠ []) (hapart : StandsApart cursor.rest behind) :
    (cursor.within count behind).Finds (token?.map (Token.shift count))
      (next.within count behind) := by
  cases hfinds with
  | @mustache raw? _ after hrest hscan =>
      have hbehind : (cursor.within count behind).rest = '{' :: '{' :: (after ++ behind) :=
        Cursor.rest_within_cons hrest
      have hfound := Cursor.Finds.mustache hbehind
        (scanMustache_within hscan (.of_head hapart.head?_ne))
      cases raw? <;> exact hfound
  | comment hrest hskip =>
      exact .comment (Cursor.rest_within_cons hrest) (skipPast_within (by decide) hskip)
  | declaration hrest hplain hskip =>
      exact .declaration (Cursor.rest_within_cons hrest) (not_dashes_append hrest hplain hskip)
        (skipPast_within (by decide) hskip)
  | @startTag letter after name tagEnd _ hrest hletter hname hend =>
      subst hname
      obtain ⟨hname, hplace⟩ :=
        tagName_within ['<'] count behind hrest (Cursor.ne_nil_of_skipSpace hend.ne_nil)
      have hmoved : ((cursor.within count behind).advance (1 + _)).FindsTagEnd (tagEnd.shift count)
          (next.within count behind) := hplace ▸ hend.within
      exact .startTag (Cursor.rest_within_cons hrest) hletter hname.symm hmoved
  | @endTag after name named hrest hname hletters hnamed hclosed =>
      subst hname hnamed
      obtain ⟨others, hend⟩ := List.head?_eq_some_iff.mp hclosed
      have hstops := hend ▸ List.cons_ne_nil '>' others
      obtain ⟨hname, hplace⟩ :=
        tagName_within ['<', '/'] count behind hrest (Cursor.ne_nil_of_skipSpace hstops)
      rw [← Cursor.advance_within (List.length_pos_iff.mpr hstops)]
      refine .endTag (Cursor.rest_within_cons hrest) hname.symm hletters ?_ ?_
      · rw [← Cursor.skipSpace_within hstops]
        exact congrArg Cursor.skipSpace hplace.symm
      · rwa [Cursor.rest_within, head?_append_of_ne hstops]
  | text hplain =>
      have hbehind : startsMarkup (cursor.within count behind).rest = false := by
        rwa [← Bool.not_eq_true, startsMarkup_iff, Cursor.rest_within,
          hapart.opensMarkup_iff hnonempty, ← startsMarkup_iff, Bool.not_eq_true]
      have hmoved := Cursor.Finds.text hbehind
      rwa [scanText_within hnonempty hapart] at hmoved

theorem scanOne_within {token? : Option Token} (hnonempty : cursor.rest ≠ [])
    (hapart : StandsApart cursor.rest behind) (hscan : scanOne cursor = .ok (token?, next)) :
    scanOne (cursor.within count behind) =
      .ok (token?.map (Token.shift count), next.within count behind) :=
  ((finds_of_scanOne hscan).within hnonempty hapart).scanOne_eq

theorem tokensFrom_step (hnonempty : cursor.rest ≠ []) :
    tokensFrom cursor = (do
      let (token?, next) ← scanOne cursor
      let tokens ← tokensFrom next
      .ok (token?.toList ++ tokens)) := by
  conv_lhs => unfold tokensFrom
  rw [dif_neg hnonempty]
  split
  · next hfault =>
      rw [hfault]
      rfl
  · next hfound =>
      rw [hfound]
      rfl

theorem tokensFrom_of_scanOne {token? : Option Token} (hnonempty : cursor.rest ≠ [])
    (hscan : scanOne cursor = .ok (token?, next)) :
    tokensFrom cursor = (do
      let tokens ← tokensFrom next
      .ok (token?.toList ++ tokens)) := by
  rw [tokensFrom_step hnonempty, hscan]
  rfl

/-- The tokens of a source stand in a longer one as they are, before the tokens of what is behind
it. -/
theorem tokensFrom_within {tokens more : List Token} (hscan : tokensFrom cursor = .ok tokens)
    (hapart : StandsApart cursor.rest behind)
    (hmore : tokensFrom ⟨count + (cursor.offset + Text.byteLength cursor.rest), behind⟩ =
      .ok more) :
    tokensFrom (cursor.within count behind) = .ok (tokens.map (Token.shift count) ++ more) := by
  fun_induction tokensFrom cursor generalizing tokens with
  | case1 cursor hend =>
      cases hscan
      rw [hend] at hmore
      rw [Cursor.within, hend]
      exact hmore
  | case2 cursor hleft fault hfault => cases hscan
  | case3 cursor hleft token? next hone ih =>
      obtain ⟨others, hothers, hresult⟩ := bind_eq_ok_iff.mp hscan
      cases hresult
      obtain ⟨span, hspan, -⟩ := scanOne_piece hleft hone
      have hsuffix : next.rest <:+ cursor.rest := ⟨span, hspan.rest_eq.symm⟩
      have hnext := ih hothers (hapart.of_suffix hsuffix) (by
        rwa [hspan.offset_eq, Nat.add_assoc cursor.offset, ← Text.byteLength_append,
          ← hspan.rest_eq])
      have hbehind : (cursor.within count behind).rest ≠ [] :=
        List.append_ne_nil_of_left_ne_nil hleft behind
      rw [tokensFrom_of_scanOne hbehind (scanOne_within hleft hapart hone), hnext]
      cases token? <;> rfl

theorem tokensFrom_shift {tokens : List Token} (count : Nat)
    (hscan : tokensFrom cursor = .ok tokens) :
    tokensFrom ⟨count + cursor.offset, cursor.rest⟩ = .ok (tokens.map (Token.shift count)) := by
  have hnone : tokensFrom ⟨count + (cursor.offset + Text.byteLength cursor.rest), []⟩ = .ok [] := by
    rw [tokensFrom, dif_pos rfl]
  have hwithin := tokensFrom_within hscan (.nil cursor.rest) hnone
  rwa [Cursor.within, List.append_nil, List.append_nil] at hwithin

end Texts

end MustacheHtml.Template
