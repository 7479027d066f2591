import MustacheHtml.TagName
import MustacheHtml.Markup.RawText
import MustacheHtml.Markup.Token

namespace MustacheHtml.Markup

/-- Line ends of all kinds become line feeds. -/
def normalizeLines : List Char → List Char
  | '\r' :: '\n' :: rest => '\n' :: normalizeLines rest
  | '\r' :: rest => '\n' :: normalizeLines rest
  | c :: rest => c :: normalizeLines rest
  | [] => []

/-- The place of the first of the two marks that end a comment: what is before it and after it. -/
def cutComment : List Char → List Char × List Char
  | '-' :: '-' :: '>' :: rest => ([], rest)
  | '-' :: '-' :: '!' :: '>' :: rest => ([], rest)
  | c :: rest =>
      let (comment, after) := cutComment rest
      (c :: comment, after)
  | [] => ([], [])

/-- What follows the opening mark of a comment; the comment may end at once. -/
def scanComment : List Char → List Char × List Char
  | '>' :: rest => ([], rest)
  | '-' :: '>' :: rest => ([], rest)
  | text => cutComment text

theorem length_cutComment_le (text : List Char) : (cutComment text).2.length ≤ text.length := by
  fun_induction cutComment text with
  | case1 rest => simp; omega
  | case2 rest => simp; omega
  | case3 c rest _ _ comment after cut ih =>
      simp only [cut] at ih
      simp only [List.length_cons]
      omega
  | case4 => simp

theorem length_scanComment_le (text : List Char) : (scanComment text).2.length ≤ text.length := by
  unfold scanComment
  split
  · simp
  · simp; omega
  · exact length_cutComment_le text

/-- A comment of another form ends at the first `>`. -/
def scanBogus (text : List Char) : List Char × List Char :=
  (text.takeWhile (· != '>'), (text.dropWhile (· != '>')).drop 1)

theorem length_scanBogus_le (text : List Char) : (scanBogus text).2.length ≤ text.length := by
  have suffix := (List.dropWhile_suffix (· != '>') (l := text)).length_le
  simp only [scanBogus, List.length_drop]
  omega

def isDoctype (text : List Char) : Bool :=
  (text.take 7).map Char.toLower == ['d', 'o', 'c', 't', 'y', 'p', 'e']

/-- What a start tag is followed by, and the tokens that it and the text in it make. -/
def scanStartTag (text : List Char) : List Token × List Char :=
  let (name, afterName) := Text.cutWhile (fun c => !endsTagName c) text
  match scanTag? afterName with
  | none => ([.error (String.ofList text)], [])
  | some (tag, after) =>
      let start := Token.startTag (foldName name) tag.attributes tag.selfClosing
      if tag.selfClosing || TagName.isVoid (foldName name) then ([start], after)
      else
        let (content, rest) := cutContent (foldName name) after
        ([start, .text (String.ofList content)], rest)

/-- The end tag behind `</`, of which attributes are dropped. -/
def scanEndTag (text : List Char) : List Token × List Char :=
  let (name, afterName) := Text.cutWhile (fun c => !endsTagName c) text
  match scanTag? afterName with
  | none => ([.error (String.ofList text)], [])
  | some (_, after) => ([.endTag (foldName name)], after)

/-- Text from its first character up to the next `<`. -/
def scanText (first : Char) (rest : List Char) : List Token × List Char :=
  let (others, after) := Text.cutWhile (· != '<') rest
  ([.text (String.ofList (decodeReferences false (first :: others)))], after)

theorem length_scanTag?_le {text after : List Char} {tag : Tag}
    (h : scanTag? text = some (tag, after)) : after.length ≤ text.length := by
  have spaces := length_skipSpace_le text
  fun_induction scanTag? text generalizing tag after with
  | case1 text atText => simp at h
  | case2 text rest atText =>
      simp only [Option.some.injEq, Prod.mk.injEq] at h
      simp only [atText, List.length_cons, h.2] at spaces
      omega
  | case3 text rest atText =>
      simp only [Option.some.injEq, Prod.mk.injEq] at h
      simp only [atText, List.length_cons, h.2] at spaces
      omega
  | case4 text rest _ atText ih =>
      have tail := ih h (length_skipSpace_le rest)
      simp only [atText, List.length_cons] at spaces
      omega
  | case5 => simp at h
  | case6 text c rest _ _ _ atText name value next scanned ih =>
      obtain ⟨⟨tag', last⟩, found, same⟩ := Option.map_eq_some_iff.mp h
      have tail := ih found (length_skipSpace_le next)
      have shorter := length_scanAttribute? scanned
      simp only [atText, List.length_cons] at spaces
      simp only [Prod.mk.injEq] at same
      rw [← same.2]
      omega

theorem length_scanStartTag_le (text : List Char) : (scanStartTag text).2.length ≤ text.length := by
  have cut := Text.length_cutWhile_le (fun c => !endsTagName c) text
  simp only [scanStartTag]
  split
  · simp
  · next tag after scanned =>
      have shorter := length_scanTag?_le scanned
      split
      · simp only
        omega
      · have content := length_cutContent_le
          (foldName (Text.cutWhile (fun c => !endsTagName c) text).1) after
        simp only
        omega

theorem length_scanEndTag_le (text : List Char) : (scanEndTag text).2.length ≤ text.length := by
  have cut := Text.length_cutWhile_le (fun c => !endsTagName c) text
  simp only [scanEndTag]
  split
  · simp
  · next tag after scanned =>
      have shorter := length_scanTag?_le scanned
      simp only
      omega

/-- What a less-than sign begins. -/
def scanLess : List Char → List Token × List Char
  | [] => ([.text "<"], [])
  | '!' :: '-' :: '-' :: rest =>
      let (comment, after) := scanComment rest
      ([.comment (String.ofList comment)], after)
  | '!' :: rest =>
      let (text, after) := scanBogus rest
      let content := String.ofList text
      ([if isDoctype rest then .doctype content else .comment content], after)
  | '?' :: rest =>
      let (text, after) := scanBogus rest
      ([.comment (String.ofList text)], after)
  | ['/'] => ([.text "</"], [])
  | '/' :: '>' :: rest => ([.error "</>"], rest)
  | '/' :: c :: rest =>
      if c.isAlpha then scanEndTag (c :: rest)
      else
        let (text, after) := scanBogus (c :: rest)
        ([.comment (String.ofList text)], after)
  | c :: rest => if c.isAlpha then scanStartTag (c :: rest) else scanText '<' (c :: rest)

theorem length_scanLess_le (text : List Char) : (scanLess text).2.length ≤ text.length := by
  unfold scanLess
  split
  · simp
  · next rest =>
      have shorter := length_scanComment_le rest
      simp only [List.length_cons]
      omega
  · next rest _ =>
      have shorter := length_scanBogus_le rest
      simp only [List.length_cons]
      omega
  · next rest =>
      have shorter := length_scanBogus_le rest
      simp only [List.length_cons]
      omega
  · simp
  · simp; omega
  · next c rest _ =>
      split
      · have shorter := length_scanEndTag_le (c :: rest)
        simp only [List.length_cons] at *
        omega
      · have shorter := length_scanBogus_le (c :: rest)
        simp only [List.length_cons] at *
        omega
  · next c rest _ _ _ _ _ _ =>
      split
      · exact length_scanStartTag_le (c :: rest)
      · exact Text.length_cutWhile_le (· != '<') (c :: rest)

def tokensFrom : List Char → List Token
  | [] => []
  | c :: rest =>
      let scanned := if c = '<' then scanLess rest else scanText c rest
      scanned.1 ++ tokensFrom scanned.2
termination_by text => text.length
decreasing_by
  split
  · exact Nat.lt_succ_of_le (length_scanLess_le rest)
  · exact Nat.lt_succ_of_le (Text.length_cutWhile_le (· != '<') rest)

/-- The tokens of markup. -/
def tokens (markup : List Char) : List Token :=
  tokensFrom (normalizeLines markup)

end MustacheHtml.Markup
