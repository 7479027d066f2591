import MustacheHtml.Proofs.Expression.Quotes
import MustacheHtml.Proofs.Template.Enclosed

/-!
Strings in mustaches are read twice: by the scan that looks for the closing braces, where a quote
opens a string only at the start of a token, and when the expression is split, where any quote
does. The two agree on a mustache unless splitting finds a string that begins within a token; then
two closing braces may stand outside all strings of an expression and not close it.
-/

namespace MustacheHtml.Template

open Expression (openQuote nextQuote)

/-- The quote of the string that the scan is in. -/
def BodyState.quote? : BodyState → Option Char
  | quoted quote => some quote
  | _ => none

/-- After the text, a token may start. -/
def TokenMayStart (text : List Char) : Prop :=
  ∀ last ∈ text.getLast?, Text.isSpace last = true ∨ last = '='

/-- Every string that splitting finds in the text begins where a token may start. -/
def StringsStartTokens (text : List Char) : Prop :=
  ∀ front quote, front ++ [quote] <+: text → Text.isQuote quote = true → openQuote front = none →
    TokenMayStart front

instance (text : List Char) : Decidable (TokenMayStart text) :=
  decidable_of_iff ((text.getLast?.all fun last => Text.isSpace last || last == '=') = true)
    (by simp [TokenMayStart, Option.all_eq_true])

instance (text : List Char) : Decidable (StringsStartTokens text) :=
  decidable_of_iff ((text.inits.all fun start => start.getLast?.all fun quote =>
      decide (Text.isQuote quote = true → openQuote start.dropLast = none →
        TokenMayStart start.dropLast)) = true) <| by
    simp only [List.all_eq_true, Option.all_eq_true, decide_eq_true_eq]
    constructor
    · intro hall front quote hstart
      simpa using hall (front ++ [quote]) ((List.mem_inits _ _).mpr hstart) quote (by simp)
    · intro hall start hstart quote hlast
      obtain ⟨front, rfl⟩ := List.getLast?_eq_some_iff.mp hlast
      simpa using hall front quote ((List.mem_inits _ _).mp hstart)

@[simp] theorem tokenMayStart_append_singleton {front : List Char} {c : Char} :
    TokenMayStart (front ++ [c]) ↔ Text.isSpace c = true ∨ c = '=' := by
  simp [TokenMayStart]

theorem StringsStartTokens.of_prefix {front text : List Char} (htext : StringsStartTokens text)
    (hfront : front <+: text) : StringsStartTokens front :=
  fun before quote hbefore => htext before quote (hbefore.trans hfront)

theorem not_tokenMayStart_quote {front : List Char} {quote : Char}
    (hquote : Text.isQuote quote = true) : ¬ TokenMayStart (front ++ [quote]) := by
  rw [tokenMayStart_append_singleton]
  rcases Expression.quote_cases hquote with rfl | rfl <;> decide

theorem next_of_not_quote (state : BodyState) {c : Char} (hstate : state.quote? = none)
    (hquote : Text.isQuote c = false) (front : List Char) :
    (state.next c).quote? = none ∧ nextQuote none c = none ∧
      (state.next c = .inToken → ¬ TokenMayStart (front ++ [c])) := by
  have hnext : state.next c = if Text.isSpace c || c == '=' then .tokenStart else .inToken := by
    cases state with
    | quoted quote => cases hstate
    | tokenStart => rw [BodyState.next, if_neg (by simp [hquote])]
    | inToken => rfl
  rw [hnext]
  refine ⟨?_, by rw [nextQuote, if_neg (by simp [hquote])], ?_⟩
  · split <;> rfl
  · split
    · simp
    · next hother => simpa using hother

/-- After every text the scan is in the string that splitting is in, and within a token only where
none may start. -/
theorem scan_agrees {text : List Char} (hstrings : StringsStartTokens text) :
    (text.foldl BodyState.next .tokenStart).quote? = openQuote text ∧
      (text.foldl BodyState.next .tokenStart = .inToken → ¬ TokenMayStart text) := by
  induction text using List.reverseRecOn with
  | nil => exact ⟨rfl, by simp⟩
  | append_singleton front c ih =>
      obtain ⟨hagrees, hwithin⟩ := ih (hstrings.of_prefix (List.prefix_append _ _))
      rw [List.foldl_append, List.foldl_cons, List.foldl_nil, Expression.openQuote_append_singleton,
        ← hagrees]
      cases hstate : front.foldl BodyState.next .tokenStart with
      | quoted quote =>
          rw [hstate] at hagrees
          have hquote : Text.isQuote quote = true := Expression.isQuote_of_openQuote hagrees.symm
          simp only [BodyState.next, BodyState.quote?, nextQuote]
          by_cases hsame : c = quote
          · rw [if_pos hsame, if_pos hsame, hsame]
            exact ⟨rfl, fun _ => not_tokenMayStart_quote hquote⟩
          · rw [if_neg hsame, if_neg hsame]
            exact ⟨rfl, by simp⟩
      | tokenStart =>
          cases hquote : Text.isQuote c with
          | true =>
              simp only [BodyState.next, BodyState.quote?, nextQuote, if_pos hquote]
              exact ⟨trivial, by simp⟩
          | false =>
              obtain ⟨hscan, hsplit, hstarts⟩ := next_of_not_quote .tokenStart rfl hquote front
              exact ⟨hscan.trans hsplit.symm, hstarts⟩
      | inToken =>
          -- Here a quote would open a string for one reading only.
          have hquote : Text.isQuote c = false := by
            rw [hstate] at hagrees
            exact Bool.eq_false_iff.mpr fun hquote =>
              hwithin hstate (hstrings front c List.prefix_rfl hquote hagrees.symm)
          obtain ⟨hscan, hsplit, hstarts⟩ := next_of_not_quote .inToken rfl hquote front
          exact ⟨hscan.trans hsplit.symm, hstarts⟩

theorem inString_iff {text : List Char} (hstrings : StringsStartTokens text) :
    InString .tokenStart text ↔ ∃ quote, openQuote text = some quote := by
  rw [← (scan_agrees hstrings).1]
  unfold InString
  cases text.foldl BodyState.next .tokenStart <;> simp [BodyState.quote?]

/-- Splitting the expression of a mustache finds the strings that the scan has seen: two closing
braces in it stand in a string, and the braces that close it are the first two that do not. -/
structure SplitsAlike (raw : RawMustache) (body : List Char) : Prop where
  splits : ∃ words, Expression.tokens raw.source.toList = .ok words
  inside : ∀ front back, raw.source.toList = front ++ '}' :: '}' :: back →
    ∃ quote, openQuote front = some quote
  first : ∀ front back, body ++ ['}', '}'] = front ++ '}' :: '}' :: back →
    (openQuote front = none ↔ back = [])

section Agreement

variable {body : List Char}

theorem openQuote_eq_none_of_closes (hcloses : ClosesAfter .tokenStart body)
    (hstrings : StringsStartTokens body) : openQuote body = none := by
  rw [Option.eq_none_iff_forall_ne_some]
  exact fun quote hopen => hcloses.outside ((inString_iff hstrings).mpr ⟨quote, hopen⟩)

theorem openQuote_of_braces (hcloses : ClosesAfter .tokenStart body)
    (hstrings : StringsStartTokens body) {front back : List Char}
    (hbraces : body ++ ['}', '}'] = front ++ '}' :: '}' :: back) (hback : back ≠ []) :
    ∃ quote, openQuote front = some quote := by
  have hshort : front.length ≤ body.length := by
    have hlength := congrArg List.length hbraces
    simp only [List.length_append, List.length_cons, List.length_nil] at hlength
    omega
  have hfront : front <+: body := by
    refine List.prefix_of_prefix_length_le ?_ (List.prefix_append body ['}', '}']) hshort
    rw [hbraces]
    exact List.prefix_append _ _
  exact (inString_iff (hstrings.of_prefix hfront)).mp (hcloses.first front back hbraces hback)

theorem splitsAlike_of_closes {raw : RawMustache}
    (hsource : raw.source = String.ofList (Text.trimBlank body))
    (hcloses : ClosesAfter .tokenStart body) (hstrings : StringsStartTokens body) :
    SplitsAlike raw body := by
  have hclosed := openQuote_eq_none_of_closes hcloses hstrings
  have htrimmed : raw.source.toList = Text.trimBlank body := by rw [hsource, String.toList_ofList]
  constructor
  · rw [htrimmed, Expression.tokens_trimBlank]
    exact Expression.tokens_ok_iff.mpr hclosed
  · intro front back hbraces
    obtain ⟨before, after, hbody, hbefore, -⟩ := Expression.exists_trimBlank body
    have hsplit : body ++ ['}', '}'] =
        (before ++ front) ++ '}' :: '}' :: (back ++ after ++ ['}', '}']) := by
      rw [hbody, ← htrimmed, hbraces]
      simp
    obtain ⟨quote, hopen⟩ := openQuote_of_braces hcloses hstrings hsplit (by simp)
    rw [Expression.openQuote_blanks_append hbefore] at hopen
    exact ⟨quote, hopen⟩
  · intro front back hbraces
    constructor
    · intro hnone
      by_contra hback
      obtain ⟨quote, hopen⟩ := openQuote_of_braces hcloses hstrings hbraces hback
      rw [hnone] at hopen
      cases hopen
    · rintro rfl
      rw [← List.append_cancel_right hbraces]
      exact hclosed

end Agreement

/-- Every mustache of a source ends at the first two closing braces outside the strings that the
scan has seen, and splitting its expression finds the same strings if it finds none that begins
within a token. -/
theorem braces_close_outside_strings {source : String} {found : List Token}
    (htokens : tokenize source = .ok found) {raw : RawMustache}
    (hraw : raw ∈ found.flatMap Token.mustaches) :
    (∃! body, Encloses source.toList raw body ∧ ClosesAfter .tokenStart body) ∧
      ∀ body, Encloses source.toList raw body → ClosesAfter .tokenStart body →
        StringsStartTokens body → SplitsAlike raw body := by
  constructor
  · obtain ⟨body, hencloses, hcloses⟩ := exists_encloses (mapError_eq_ok_iff.mp htokens) hraw
    refine ⟨body, ⟨hencloses, hcloses⟩, ?_⟩
    rintro other ⟨hother, halso⟩
    exact hother.unique hencloses halso hcloses
  · intro body hencloses hcloses hstrings
    exact splitsAlike_of_closes hencloses.source_eq hcloses hstrings

theorem braces_close_outside_strings_link :
    let source := "<a id=\"\x7b\x7b f k='it \x7d\x7d'\x7d\x7d\">"
    let raw : RawMustache := ⟨"f k='it \x7d\x7d'", true, 7⟩
    let body := [' '] ++ "f k='it \x7d\x7d'".toList
    tokenize source = .ok [.startTag "a" [⟨"id", [.mustache raw], 3⟩] false 0] ∧
      Encloses source.toList raw body ∧ ClosesAfter .tokenStart body ∧
      StringsStartTokens body ∧ SplitsAlike raw body := by
  intro source raw body
  have htokens : tokenize source = .ok [.startTag "a" [⟨"id", [.mustache raw], 3⟩] false 0] := by
    decide +kernel
  have hencloses : Encloses source.toList raw body :=
    ⟨by decide +kernel, "<a id=\"".toList, ['}', '}'], ['"', '>'], .two true, by decide +kernel,
      by decide +kernel⟩
  have hscan : scanBody .tokenStart (body ++ ['}', '}']) = .ok body := by decide +kernel
  have hcloses : ClosesAfter .tokenStart body := (scanBody_closes hscan).1
  have hstrings : StringsStartTokens body := by decide +kernel
  exact ⟨htokens, hencloses, hcloses, hstrings,
    (braces_close_outside_strings htokens (by decide +kernel)).2 body hencloses hcloses hstrings⟩

/-- Splitting finds a string that begins with the apostrophe of a word, and so two braces of a
string stand in none. -/
theorem not_in_string_apostrophe :
    let source := "\x7b\x7bh it's '\x7d\x7d' don't\x7d\x7d"
    let raw : RawMustache := ⟨"h it's '\x7d\x7d' don't", true, 0⟩
    let call : Expression := .call "h" [.id ["it's '\x7d\x7d' don't"]] []
    parse source = .ok [.mustache ⟨call, true⟩] ∧ tokenize source = .ok [.mustache raw] ∧
      Expression.tokens raw.source.toList = .ok [['h'], "it's '\x7d\x7d' don't".toList] ∧
      ¬ ∀ front back, raw.source.toList = front ++ '}' :: '}' :: back →
        ∃ quote, openQuote front = some quote := by
  intro source raw call
  have htokens : tokens source.toList = .ok [.mustache raw] := by decide +kernel
  have hwords : Expression.tokens raw.source.toList =
      .ok [['h'], "it's '\x7d\x7d' don't".toList] := by decide +kernel
  have hnodes : nodesOfTokens [.mustache ⟨"h it's '\x7d\x7d' don't", true, 0⟩] =
      .ok [.mustache ⟨.call "h" [.id ["it's '\x7d\x7d' don't"]] [], true⟩] := rfl
  refine ⟨mapError_eq_ok_iff.mpr (bind_eq_ok_iff.mpr ⟨_, htokens, hnodes⟩),
    mapError_eq_ok_iff.mpr htokens, hwords, ?_⟩
  intro hall
  obtain ⟨quote, hopen⟩ := hall "h it's '".toList "' don't".toList (by decide +kernel)
  have hclosed : openQuote "h it's '".toList = none := by decide +kernel
  rw [hclosed] at hopen
  cases hopen

end MustacheHtml.Template
