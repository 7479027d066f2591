import MustacheHtml.Template.Scan
import MustacheHtml.Tree
import MustacheHtml.Proofs.Escape

namespace MustacheHtml.Template

open MustacheHtml.Escape (HasBraces)

/-- Scanning from one place to another yields the tokens. -/
inductive Scans : Cursor → List Token → Cursor → Prop where
  | done (cursor : Cursor) : Scans cursor [] cursor
  | step {cursor middle last : Cursor} {token : Token} {tokens : List Token}
      (hleft : cursor.rest ≠ []) (hscan : scanOne cursor = .ok (some token, middle))
      (hrest : Scans middle tokens last) : Scans cursor (token :: tokens) last

theorem Scans.single {cursor next : Cursor} {token : Token} {c : Char} {after : List Char}
    (hcursor : cursor.rest = c :: after) (hscan : scanOne cursor = .ok (some token, next)) :
    Scans cursor [token] next := by
  refine .step ?_ hscan (.done next)
  rw [hcursor]
  exact List.cons_ne_nil c after

theorem Scans.append {cursor middle last : Cursor} {left right : List Token}
    (hleft : Scans cursor left middle) (hright : Scans middle right last) :
    Scans cursor (left ++ right) last := by
  induction hleft with
  | done => exact hright
  | step hne hscan _ ih => exact .step hne hscan (ih hright)

theorem Scans.tokensFrom_eq {cursor last : Cursor} {tokens : List Token}
    (hscans : Scans cursor tokens last) (hend : last.rest = []) :
    tokensFrom cursor = .ok tokens := by
  induction hscans with
  | done => rw [tokensFrom, dif_pos hend]
  | step hleft hscan _ ih =>
      rw [tokensFrom, dif_neg hleft]
      split
      · next hfault => cases hscan.symm.trans hfault
      · next hfound =>
          cases hscan.symm.trans hfound
          rw [ih hend]
          rfl

namespace Cursor

variable {cursor : Cursor} {taken after : List Char}

theorem rest_advance_append (hcursor : cursor.rest = taken ++ after) :
    (cursor.advance taken.length).rest = after := by
  rw [rest_advance, hcursor, List.drop_left]

theorem advance_append (hcursor : cursor.rest = taken ++ after) :
    cursor.advance taken.length = ⟨cursor.offset + Text.byteLength taken, after⟩ := by
  rw [advance, hcursor, List.take_left, List.drop_left]

theorem advance_cons {c : Char} (hcursor : cursor.rest = c :: after) :
    cursor.advance 1 = ⟨cursor.offset + Text.byteLength [c], after⟩ :=
  have hsplit : cursor.rest = [c] ++ after := hcursor
  advance_append hsplit

theorem rest_advance_one {c : Char} (hcursor : cursor.rest = c :: after) :
    (cursor.advance 1).rest = after := by
  rw [rest_advance, hcursor, List.drop_succ_cons, List.drop_zero]

theorem rest_skipSpace (cursor : Cursor) :
    cursor.skipSpace.rest = cursor.rest.dropWhile Text.isSpace :=
  rest_advance_append List.takeWhile_append_dropWhile.symm

theorem skipSpace_eq_self {c : Char} (hcursor : cursor.rest = c :: after)
    (hc : Text.isSpace c = false) : cursor.skipSpace = cursor := by
  have hnone : cursor.rest.takeWhile Text.isSpace = [] := by
    rw [hcursor, List.takeWhile_cons_of_neg (by simp [hc])]
  rw [skipSpace, hnone]
  rfl

end Cursor

theorem takeWhile_append_cons {test : Char → Bool} {taken after : List Char} {c : Char}
    (htaken : ∀ c ∈ taken, test c = true) (hc : test c = false) :
    (taken ++ c :: after).takeWhile test = taken := by
  rw [List.takeWhile_append_of_pos htaken, List.takeWhile_cons_of_neg (by simp [hc]),
    List.append_nil]

theorem Cursor.skipSpace_append {cursor : Cursor} {blanks after : List Char} {c : Char}
    (hblanks : ∀ c ∈ blanks, Text.isSpace c = true) (hc : Text.isSpace c = false)
    (hcursor : cursor.rest = blanks ++ c :: after) :
    cursor.skipSpace = ⟨cursor.offset + Text.byteLength blanks, c :: after⟩ := by
  have htaken : cursor.rest.takeWhile Text.isSpace = blanks := by
    rw [hcursor]
    exact takeWhile_append_cons hblanks hc
  rw [skipSpace, htaken, advance_append hcursor]

theorem takeUntil_append {stops : List Char → Bool} (mark : Char)
    (hstops : ∀ c after, stops (c :: after) = true → c = mark ∨ c = '{' ∧ after.head? = some '{')
    {taken rest : List Char} (hmark : mark ∉ taken) (hbraces : ¬ HasBraces taken)
    (hhead : rest.head? ≠ some '{') (hend : rest = [] ∨ stops rest = true) :
    takeUntil stops (taken ++ rest) = taken := by
  induction taken with
  | nil =>
      rw [List.nil_append]
      cases rest with
      | nil => rfl
      | cons c after =>
          have hstop : stops (c :: after) = true := by simpa using hend
          rw [takeUntil, if_pos hstop]
  | cons c others ih =>
      rw [List.mem_cons, not_or] at hmark
      rw [Escape.hasBraces_cons, not_or] at hbraces
      have hpass : ¬ stops (c :: (others ++ rest)) = true := by
        intro hstop
        rcases hstops _ _ hstop with hc | ⟨hc, hnext⟩
        · exact hmark.1 hc.symm
        · cases others with
          | nil => exact hhead hnext
          | cons next more => exact hbraces.1 ⟨hc, hnext⟩
      rw [List.cons_append, takeUntil, if_neg hpass, ih hmark.2 hbraces.2]

theorem not_stops_of_takeUntil_cons {stops : List Char → Bool} {c : Char}
    {text others : List Char} (htake : takeUntil stops text = c :: others) :
    stops text = false := by
  cases text with
  | nil => cases htake
  | cons first rest =>
      rw [takeUntil] at htake
      split at htake
      · cases htake
      · next hpass => exact Bool.eq_false_iff.mpr hpass

section Text

/-- The source ends here, or a tag begins. -/
def AtTag (rest : List Char) : Prop :=
  rest = [] ∨ ∃ c after, rest = '<' :: c :: after ∧ (c = '/' ∨ c.isAlpha = true)

theorem startsMarkup_cons {c : Char} {after : List Char}
    (hstarts : startsMarkup (c :: after) = true) :
    c = '<' ∨ c = '{' ∧ after.head? = some '{' := by
  unfold startsMarkup at hstarts
  split at hstarts
  · next hbraces =>
      cases hbraces
      exact .inr ⟨rfl, rfl⟩
  · next hless =>
      cases hless
      exact .inl rfl
  · cases hstarts

theorem scanOne_text {cursor : Cursor} (hstarts : startsMarkup cursor.rest = false) :
    scanOne cursor = .ok (some (scanText cursor).1, (scanText cursor).2) := by
  unfold scanOne
  split
  · next hrest => simp [hrest, startsMarkup] at hstarts
  · next hrest => simp [hrest, startsMarkup] at hstarts
  · next hrest => simp [hrest, startsMarkup] at hstarts
  · next hrest => simp [hrest, startsMarkup] at hstarts
  · next hrest =>
      split
      · next halpha => simp [hrest, startsMarkup, halpha] at hstarts
      · rfl
  · rfl

theorem scanOne_mustache {cursor : Cursor} {rest : List Char}
    (hrest : cursor.rest = '{' :: '{' :: rest) :
    scanOne cursor = (do
      let (raw?, next) ← scanMustache cursor
      .ok (raw?.map Token.mustache, next)) := by
  unfold scanOne
  split <;> simp_all

theorem scanOne_comment {cursor : Cursor} {rest : List Char}
    (hrest : cursor.rest = '<' :: '!' :: '-' :: '-' :: rest) :
    scanOne cursor = (do
      .ok (none, ← skipPast ['-', '-', '>'] .unterminatedComment cursor)) := by
  unfold scanOne
  split <;> simp_all

theorem scanOne_declaration {cursor : Cursor} {rest : List Char}
    (hrest : cursor.rest = '<' :: '!' :: rest)
    (hplain : ¬ ['-', '-'] <+: rest) :
    scanOne cursor = (do
      .ok (none, ← skipPast ['>'] .unterminatedDeclaration cursor)) := by
  unfold scanOne
  split
  · simp_all
  · next tail hcase =>
      cases hrest.symm.trans hcase
      exact absurd ⟨tail, rfl⟩ hplain
  all_goals simp_all

theorem scan_text {cursor : Cursor} {content rest : List Char}
    (hcursor : cursor.rest = Escape.textContent content ++ rest) (hcontent : content ≠ [])
    (hbraces : ¬ HasBraces content) (hrest : AtTag rest) :
    ∃ next, Scans cursor [.text (String.ofList content) cursor.offset] next ∧
      next.rest = rest := by
  have htake : takeUntil startsMarkup (Escape.textContent content ++ rest) =
      Escape.textContent content := by
    refine takeUntil_append '<' (fun _ _ => startsMarkup_cons)
      (Escape.not_mem_textContent (.inl rfl) content)
      (fun hescaped => hbraces (Escape.faithful_textChar.hasBraces hescaped)) ?_ ?_
    · rcases hrest with rfl | ⟨c, after, rfl, -⟩ <;> simp
    · rcases hrest with rfl | ⟨c, after, rfl, rfl | halpha⟩
      · exact .inl rfl
      · exact .inr rfl
      · exact .inr (by simp [startsMarkup, halpha])
  have hdecode : Reference.decode (Escape.textContent content) = content :=
    Escape.faithful_textChar.decode_flatMap content
  cases hescaped : Escape.textContent content with
  | nil =>
      rw [hescaped, Reference.decode] at hdecode
      exact absurd hdecode.symm hcontent
  | cons c others =>
      rw [hescaped] at hcursor htake hdecode
      have hpass := not_stops_of_takeUntil_cons htake
      have hothers : takeUntil startsMarkup (others ++ rest) = others := by
        rw [List.cons_append, takeUntil, ← List.cons_append, if_neg (by simpa using hpass)] at htake
        exact (List.cons.inj htake).2
      rw [← hcursor] at hpass
      refine ⟨cursor.advance (c :: others).length, .single hcursor ?_,
        Cursor.rest_advance_append hcursor⟩
      rw [scanOne_text hpass]
      simp only [scanText, hcursor, List.cons_append, List.take_succ_cons, List.take_zero,
        List.drop_succ_cons, List.drop_zero, List.nil_append, hothers, hdecode]

end Text

section Attributes

/-- A name that the attribute of a start tag can have. -/
structure IsAttributeName (name : List Char) : Prop where
  nonempty : name ≠ []
  chars : ∀ c ∈ name, Text.isSpace c = false ∧ c ∉ ['/', '>', '=', '"', '\'', '<']
  noMustache : ¬ ['{', '{'] <+: name

theorem IsAttributeName.all {name : List Char} (hname : IsAttributeName name) :
    ∀ c ∈ name, isAttributeNameChar c = true := by
  intro c hc
  obtain ⟨hspace, hmarks⟩ := hname.chars c hc
  simp only [List.mem_cons, List.not_mem_nil, or_false, not_or] at hmarks
  simp [isAttributeNameChar, hspace, hmarks]

theorem startsMustache_cons {c : Char} {after : List Char}
    (hstarts : startsMustache (c :: after) = true) : c = '{' ∧ after.head? = some '{' := by
  unfold startsMustache at hstarts
  split at hstarts
  · next hbraces =>
      cases hbraces
      exact ⟨rfl, rfl⟩
  · cases hstarts

/-- The value of an attribute as one literal, or as none at all. -/
def literalParts (value : List Char) : List RawPart :=
  if value = [] then [] else [.text (String.ofList value)]

theorem scanValue_stop {stops : Char → Bool} {cursor : Cursor} {c : Char} {after : List Char}
    (hcursor : cursor.rest = c :: after) (hstop : stops c = true) :
    scanValue stops cursor = .ok ([], cursor) := by
  unfold scanValue
  split
  · rfl
  · next first others hrest =>
      cases hcursor.symm.trans hrest
      rw [if_pos hstop]

theorem scanValue_literal {stops : Char → Bool} {cursor : Cursor} {c : Char} {others : List Char}
    (htake : takeLiteral stops cursor.rest = c :: others) :
    scanValue stops cursor = (do
      let (parts, last) ← scanValue stops (cursor.advance (c :: others).length)
      .ok (literalPart (c :: others) :: parts, last)) := by
  have hpass := Bool.or_eq_false_iff.mp (not_stops_of_takeUntil_cons htake)
  conv_lhs => unfold scanValue
  split
  · next hrest =>
      rw [hrest] at htake
      cases htake
  · next first more hrest =>
      rw [hrest] at htake hpass
      have hstop : ¬ stops first = true := Bool.eq_false_iff.mp hpass.2
      rw [if_neg hstop, if_neg (Bool.eq_false_iff.mp hpass.1), htake]

theorem scanValue_mustache {stops : Char → Bool} {cursor next : Cursor}
    {raw? : Option RawMustache} (hstarts : startsMustache cursor.rest = true)
    (hbrace : stops '{' = false) (hscan : scanMustache cursor = .ok (raw?, next)) :
    scanValue stops cursor = (do
      let (parts, last) ← scanValue stops next
      .ok (raw?.toList.map RawPart.mustache ++ parts, last)) := by
  conv_lhs => unfold scanValue
  split
  · next hrest =>
      rw [hrest] at hstarts
      cases hstarts
  · next first others hrest =>
      rw [hrest] at hstarts
      have hfirst : ¬ stops first = true := by
        rw [(startsMustache_cons hstarts).1, hbrace]
        exact Bool.false_ne_true
      rw [if_neg hfirst, if_pos hstarts]
      split
      · next hfault => cases hscan.symm.trans hfault
      · next hfound =>
          cases hscan.symm.trans hfound
          rfl

theorem scan_value {cursor : Cursor} {value rest : List Char}
    (hcursor : cursor.rest = Escape.attributeValue value ++ '"' :: rest)
    (hbraces : ¬ HasBraces value) : ∃ next,
    scanValue (· == '"') cursor = .ok (literalParts value, next) ∧ next.rest = '"' :: rest := by
  have hdecode : Reference.decode (Escape.attributeValue value) = value :=
    Escape.faithful_attributeChar.decode_flatMap value
  have htake : takeLiteral (· == '"') (Escape.attributeValue value ++ '"' :: rest) =
      Escape.attributeValue value := by
    refine takeUntil_append '"' ?_ (Escape.not_mem_attributeValue value)
      (fun hescaped => hbraces (Escape.faithful_attributeChar.hasBraces hescaped))
      (by simp) (.inr (by simp))
    intro c after hstop
    rcases Bool.or_eq_true_iff.mp hstop with hmustache | hquote
    · exact .inr (startsMustache_cons hmustache)
    · exact .inl (by simpa using hquote)
  cases hescaped : Escape.attributeValue value with
  | nil =>
      rw [hescaped] at hcursor hdecode
      rw [Reference.decode] at hdecode
      subst hdecode
      exact ⟨cursor, scanValue_stop hcursor rfl, hcursor⟩
  | cons c others =>
      rw [hescaped] at hcursor htake hdecode
      have hvalue : value ≠ [] := by
        rintro rfl
        cases hescaped
      have hafter := Cursor.rest_advance_append hcursor
      refine ⟨cursor.advance (c :: others).length, ?_, hafter⟩
      rw [← hcursor] at htake
      rw [scanValue_literal htake, scanValue_stop hafter rfl]
      simp [literalParts, literalPart, hvalue, hdecode, bind, Except.bind]

theorem scanAssigned_quoted {cursor last : Cursor} {quote : Char} {after rest : List Char}
    {parts : List RawPart} (hcursor : cursor.rest = quote :: after)
    (hquote : Text.isQuote quote = true) (offset : Nat) (name : String)
    (hscan : scanValue (· == quote) (cursor.advance 1) = .ok (parts, last))
    (hlast : last.rest = quote :: rest) :
    scanAssigned offset name cursor = .ok (parts, last.advance 1) := by
  unfold scanAssigned
  rw [hcursor]
  simp only [if_pos hquote, hscan, hlast, List.head?_cons, if_true, bind, Except.bind]

theorem scanAssigned_unquoted {cursor : Cursor} {c : Char} {after : List Char}
    (hcursor : cursor.rest = c :: after) (hquote : Text.isQuote c = false) (hend : c ≠ '>')
    (offset : Nat) (name : String) :
    scanAssigned offset name cursor = scanValue (fun c => Text.isSpace c || c == '>') cursor := by
  unfold scanAssigned
  rw [hcursor]
  dsimp only
  rw [if_neg (Bool.eq_false_iff.mp hquote), if_neg hend]

theorem scan_assigned {cursor : Cursor} {value rest : List Char}
    (hcursor : cursor.rest = '"' :: (Escape.attributeValue value ++ '"' :: rest))
    (hbraces : ¬ HasBraces value) (offset : Nat) (name : String) : ∃ next,
    scanAssigned offset name cursor = .ok (literalParts value, next) ∧ next.rest = rest := by
  obtain ⟨last, hscan, hlast⟩ := scan_value (Cursor.rest_advance_one hcursor) hbraces
  exact ⟨last.advance 1, scanAssigned_quoted hcursor rfl offset name hscan hlast,
    Cursor.rest_advance_one hlast⟩

theorem rest_advance_assigned {cursor : Cursor} {name rest : List Char}
    (hcursor : cursor.rest = name ++ '=' :: rest) :
    ((cursor.advance name.length).advance 1).rest = rest :=
  Cursor.rest_advance_one (Cursor.rest_advance_append hcursor)

theorem scanAttribute_of_spaced {cursor : Cursor} {name before after rest : List Char} {c : Char}
    (hname : IsAttributeName name) (hbefore : ∀ c ∈ before, Text.isSpace c = true)
    (hafter : ∀ c ∈ after, Text.isSpace c = true) (hc : Text.isSpace c = false)
    (hcursor : cursor.rest = name ++ (before ++ '=' :: (after ++ c :: rest))) :
    scanAttribute cursor = (do
      let (value, last) ← scanAssigned cursor.offset (String.ofList name)
        ⟨cursor.offset + Text.byteLength (name ++ (before ++ '=' :: after)), c :: rest⟩
      .ok (⟨String.ofList name, value, cursor.offset⟩, last)) := by
  have htaken : cursor.rest.takeWhile isAttributeNameChar = name := by
    rw [hcursor]
    cases before with
    | nil => exact takeWhile_append_cons hname.all (by decide)
    | cons blank others =>
        have hblank : isAttributeNameChar blank = false := by
          simp [isAttributeNameChar, hbefore blank List.mem_cons_self]
        exact takeWhile_append_cons hname.all hblank
  have hnonempty : ¬ name.isEmpty = true := by simpa using hname.nonempty
  have hequals := Cursor.skipSpace_append hbefore (by decide)
    (Cursor.rest_advance_append hcursor)
  have hplace : ((cursor.advance name.length).skipSpace.advance 1).skipSpace =
      ⟨cursor.offset + Text.byteLength (name ++ (before ++ '=' :: after)), c :: rest⟩ := by
    have hassigned := congrArg Cursor.rest hequals
    rw [Cursor.skipSpace_append hafter hc (Cursor.rest_advance_one hassigned),
      Cursor.advance_cons hassigned, hequals, Cursor.advance_append hcursor]
    simp only [Text.byteLength_append, Text.byteLength, Nat.add_assoc, Nat.zero_add]
  unfold scanAttribute
  simp only [htaken, if_neg hnonempty, hplace]
  rw [hequals, List.head?_cons, if_pos rfl]

theorem scanAttribute_of_assigned {cursor last : Cursor} {name after : List Char} {c : Char}
    {value : List RawPart} (hname : IsAttributeName name)
    (hcursor : cursor.rest = name ++ '=' :: c :: after) (hc : Text.isSpace c = false)
    (hscan : scanAssigned cursor.offset (String.ofList name)
      ((cursor.advance name.length).advance 1) = .ok (value, last)) :
    scanAttribute cursor = .ok (⟨String.ofList name, value, cursor.offset⟩, last) := by
  have hplace : (cursor.advance name.length).advance 1 =
      ⟨cursor.offset + Text.byteLength (name ++ ([] ++ ['='])), c :: after⟩ := by
    rw [Cursor.advance_cons (Cursor.rest_advance_append hcursor), Cursor.advance_append hcursor,
      List.nil_append, Text.byteLength_append, Nat.add_assoc]
  rw [scanAttribute_of_spaced hname (List.forall_mem_nil _) (List.forall_mem_nil _) hc hcursor,
    ← hplace, hscan]
  rfl

theorem scan_attribute {cursor : Cursor} {name value rest : List Char}
    (hcursor : cursor.rest = name ++ '=' :: '"' :: (Escape.attributeValue value ++ '"' :: rest))
    (hname : IsAttributeName name) (hbraces : ¬ HasBraces value) : ∃ next,
    scanAttribute cursor =
        .ok (⟨String.ofList name, literalParts value, cursor.offset⟩, next) ∧
      next.rest = rest := by
  obtain ⟨last, hscan, hlast⟩ :=
    scan_assigned (rest_advance_assigned hcursor) hbraces cursor.offset (String.ofList name)
  exact ⟨last, scanAttribute_of_assigned hname hcursor (by decide) hscan, hlast⟩

theorem scanAttributes_closed {cursor : Cursor} {rest : List Char} (tag : String) (offset : Nat)
    (hrest : cursor.skipSpace.rest = '>' :: rest) :
    scanAttributes tag offset cursor = .ok (⟨[], false⟩, cursor.skipSpace.advance 1) := by
  unfold scanAttributes
  split <;> simp_all

theorem scanAttributes_selfClosed {cursor : Cursor} {rest : List Char} (tag : String)
    (offset : Nat) (hrest : cursor.skipSpace.rest = '/' :: '>' :: rest) :
    scanAttributes tag offset cursor = .ok (⟨[], true⟩, cursor.skipSpace.advance 2) := by
  unfold scanAttributes
  split <;> simp_all

theorem scanAttributes_end {cursor : Cursor} {rest : List Char} (tag : String) (offset : Nat)
    (hcursor : cursor.rest = '>' :: rest) :
    scanAttributes tag offset cursor = .ok (⟨[], false⟩, cursor.advance 1) := by
  have hspace := Cursor.skipSpace_eq_self hcursor (by decide)
  rw [scanAttributes_closed tag offset (by rw [hspace, hcursor]), hspace]

theorem scanAttributes_cons {cursor next : Cursor} {first : RawAttribute} {c : Char}
    {after : List Char} (tag : String) (offset : Nat) (hrest : cursor.skipSpace.rest = c :: after)
    (hend : c ∉ ['>', '/']) (hmustache : ¬ (c = '{' ∧ after.head? = some '{'))
    (hscan : scanAttribute cursor.skipSpace = .ok (first, next)) :
    scanAttributes tag offset cursor = (do
      let (others, last) ← scanAttributes tag offset next
      .ok ({ others with attributes := first :: others.attributes }, last)) := by
  conv_lhs => unfold scanAttributes
  split
  · next hcase => cases hrest.symm.trans hcase
  · next hcase =>
      cases hrest.symm.trans hcase
      exact absurd hend (by decide)
  · next hcase =>
      cases hrest.symm.trans hcase
      exact absurd hend (by decide)
  · next hcase =>
      cases hrest.symm.trans hcase
      exact absurd ⟨rfl, rfl⟩ hmustache
  · split
    · next hfault => cases hscan.symm.trans hfault
    · next hfound =>
        cases hscan.symm.trans hfound
        rfl

theorem rest_skipSpace_attribute {cursor : Cursor} {name after : List Char}
    (hname : IsAttributeName name) (hcursor : cursor.rest = ' ' :: (name ++ after)) :
    cursor.skipSpace.rest = name ++ after := by
  obtain ⟨c, others, rfl⟩ := List.exists_cons_of_ne_nil hname.nonempty
  have hspace := (hname.chars c List.mem_cons_self).1
  rw [Cursor.rest_skipSpace, hcursor, List.dropWhile_cons_of_pos (by decide), List.cons_append,
    List.dropWhile_cons_of_neg (by simp [hspace])]

theorem scanAttributes_named {cursor next : Cursor} {first : RawAttribute}
    {name after : List Char} (tag : String) (offset : Nat) (hname : IsAttributeName name)
    (hrest : cursor.skipSpace.rest = name ++ after) (hafter : after.head? ≠ some '{')
    (hscan : scanAttribute cursor.skipSpace = .ok (first, next)) :
    scanAttributes tag offset cursor = (do
      let (others, last) ← scanAttributes tag offset next
      .ok ({ others with attributes := first :: others.attributes }, last)) := by
  obtain ⟨c, more, rfl⟩ := List.exists_cons_of_ne_nil hname.nonempty
  have hmarks := (hname.chars c List.mem_cons_self).2
  rw [List.cons_append] at hrest
  apply scanAttributes_cons tag offset hrest _ _ hscan
  · intro hmem
    apply hmarks
    rcases List.mem_cons.mp hmem with rfl | hmem
    · decide
    · rw [List.mem_singleton.mp hmem]
      decide
  · rintro ⟨rfl, hnext⟩
    cases more with
    | nil => exact hafter hnext
    | cons next others =>
        cases hnext
        exact hname.noMustache ⟨others, rfl⟩

theorem scan_attributes {attributes : Attributes} {rest : List Char}
    (hattributes : ∀ attr ∈ attributes,
      IsAttributeName attr.1.toList ∧ ¬ HasBraces attr.2.toList)
    (tag : String) (offset : Nat) {cursor : Cursor}
    (hcursor : cursor.rest = attributes.html ++ '>' :: rest) : ∃ raw next,
    scanAttributes tag offset cursor = .ok (⟨raw, false⟩, next) ∧ next.rest = rest ∧
      raw.map (fun attr => (attr.name, attr.value)) =
        attributes.map fun attr => (attr.1, literalParts attr.2.toList) := by
  induction attributes generalizing cursor with
  | nil =>
      rw [Attributes.html, List.nil_append] at hcursor
      exact ⟨[], cursor.advance 1, scanAttributes_end tag offset hcursor,
        Cursor.rest_advance_one hcursor, rfl⟩
  | cons attr others ih =>
      obtain ⟨⟨hname, hbraces⟩, hothers⟩ := List.forall_mem_cons.mp hattributes
      obtain ⟨name, value⟩ := attr
      have hwritten : cursor.rest = ' ' :: (name.toList ++
          '=' :: '"' :: (Escape.attributeValue value.toList ++
            '"' :: (Attributes.html others ++ '>' :: rest))) := by
        rw [hcursor, Attributes.html]
        simp only [List.append_assoc, List.cons_append, List.nil_append]
      obtain ⟨middle, hscan, hmiddle⟩ :=
        scan_attribute (rest_skipSpace_attribute hname hwritten) hname hbraces
      obtain ⟨raw, last, hlast, hrest, hraw⟩ := ih hothers hmiddle
      refine ⟨⟨name, literalParts value.toList, cursor.skipSpace.offset⟩ :: raw, last, ?_, hrest,
        by rw [List.map_cons, List.map_cons, hraw]⟩
      rw [String.ofList_toList] at hscan
      have hspace := rest_skipSpace_attribute hname hwritten
      rw [scanAttributes_named tag offset hname hspace (by simp) hscan, hlast]
      rfl

end Attributes

section Tags

/-- A name that an element can have in a template, unless it takes its text without escapes. -/
structure IsTagName (name : List Char) : Prop where
  letter : ∃ first others, name = first :: others ∧ first.isAlpha = true
  chars : ∀ c ∈ name, c.isAlphanum = true ∨ c ∈ ['_', ':', '.', '-']

theorem IsTagName.all {name : List Char} (hname : IsTagName name) :
    ∀ c ∈ name, isNameChar c = true := by
  intro c hc
  rcases hname.chars c hc with halphanum | hmark
  · simp [isNameChar, halphanum]
  · simp only [List.mem_cons, List.not_mem_nil, or_false] at hmark
    rcases hmark with rfl | rfl | rfl | rfl <;> decide

theorem scanOne_startTag {cursor : Cursor} {c : Char} {after : List Char}
    (hcursor : cursor.rest = '<' :: c :: after) (halpha : c.isAlpha = true) :
    scanOne cursor = (do
      let (tag, next) ← scanStartTag cursor
      .ok (some tag, next)) := by
  unfold scanOne
  split
  · next hcase => cases hcursor.symm.trans hcase
  · next hcase =>
      cases hcursor.symm.trans hcase
      exact absurd halpha (by decide)
  · next hcase =>
      cases hcursor.symm.trans hcase
      exact absurd halpha (by decide)
  · next hcase =>
      cases hcursor.symm.trans hcase
      exact absurd halpha (by decide)
  · next hcase =>
      cases hcursor.symm.trans hcase
      rw [if_pos halpha]
  · next hnot => exact absurd hcursor (hnot c after)

theorem scanOne_endTag {cursor : Cursor} {after : List Char}
    (hrest : cursor.rest = '<' :: '/' :: after) :
    scanOne cursor = (do
      let (tag, next) ← scanEndTag cursor
      .ok (some tag, next)) := by
  unfold scanOne
  split
  · next hcase => cases hrest.symm.trans hcase
  · next hcase => cases hrest.symm.trans hcase
  · next hcase => cases hrest.symm.trans hcase
  · rfl
  · next hplain hcase =>
      cases hrest.symm.trans hcase
      exact absurd rfl hplain
  · next hplain _ => exact absurd hrest (hplain after)

theorem rest_advance_tagName {cursor : Cursor} {tag : String} {rest : List Char}
    (hcursor : cursor.rest = '<' :: (tag.toList ++ rest)) :
    (cursor.advance (1 + tag.toList.length)).rest = rest := by
  have hsplit : cursor.rest = ('<' :: tag.toList) ++ rest := hcursor
  rw [Nat.add_comm]
  exact Cursor.rest_advance_append hsplit

theorem rest_advance_name (cursor : Cursor) (count : Nat) :
    (cursor.advance (count + ((cursor.rest.drop count).takeWhile isNameChar).length)).rest =
      (cursor.rest.drop count).dropWhile isNameChar := by
  have hnamed : (cursor.advance count).rest =
      (cursor.rest.drop count).takeWhile isNameChar ++
        (cursor.rest.drop count).dropWhile isNameChar := by
    rw [Cursor.rest_advance, List.takeWhile_append_dropWhile]
  rw [Cursor.rest_advance, ← List.drop_drop]
  exact Cursor.rest_advance_append hnamed

theorem scan_startTag_of_attributes {cursor last : Cursor} {tag : String} {next : Char}
    {after : List Char} {tagEnd : TagEnd} (htag : IsTagName tag.toList)
    (hcursor : cursor.rest = '<' :: (tag.toList ++ next :: after))
    (hstops : isNameChar next = false)
    (hscan : scanAttributes tag cursor.offset (cursor.advance (1 + tag.toList.length)) =
      .ok (tagEnd, last)) :
    Scans cursor [.startTag tag tagEnd.attributes tagEnd.selfClosing cursor.offset] last := by
  have htaken : (cursor.rest.drop 1).takeWhile isNameChar = tag.toList := by
    rw [hcursor, List.drop_succ_cons, List.drop_zero]
    exact takeWhile_append_cons htag.all hstops
  obtain ⟨c, others, hname, halpha⟩ := htag.letter
  have hstart : cursor.rest = '<' :: c :: (others ++ next :: after) := by
    rw [hcursor, hname, List.cons_append]
  apply Scans.single hcursor
  rw [scanOne_startTag hstart halpha]
  simp only [scanStartTag, htaken, String.ofList_toList, hscan, bind, Except.bind]

theorem scan_startTag {cursor : Cursor} {tag : String} {attributes : Attributes}
    {rest : List Char}
    (hcursor : cursor.rest = '<' :: (tag.toList ++ (attributes.html ++ '>' :: rest)))
    (htag : IsTagName tag.toList) (hattributes : ∀ attr ∈ attributes,
      IsAttributeName attr.1.toList ∧ ¬ HasBraces attr.2.toList) : ∃ raw next,
    Scans cursor [.startTag tag raw false cursor.offset] next ∧
      next.rest = rest ∧ raw.map (fun attr => (attr.name, attr.value)) =
        attributes.map fun attr => (attr.1, literalParts attr.2.toList) := by
  obtain ⟨next, after, hnext, hstops⟩ : ∃ next after,
      attributes.html ++ '>' :: rest = next :: after ∧ isNameChar next = false := by
    cases attributes with
    | nil => exact ⟨'>', rest, rfl, by decide⟩
    | cons attr others => exact ⟨' ', _, rfl, by decide⟩
  obtain ⟨raw, last, hscan, hlast, hraw⟩ :=
    scan_attributes hattributes tag cursor.offset (rest_advance_tagName hcursor)
  rw [hnext] at hcursor
  exact ⟨raw, last, scan_startTag_of_attributes htag hcursor hstops hscan, hlast, hraw⟩

theorem scan_endTag {cursor : Cursor} {tag : String} {rest : List Char}
    (hcursor : cursor.rest = '<' :: '/' :: (tag.toList ++ '>' :: rest))
    (htag : IsTagName tag.toList) : ∃ next,
    Scans cursor [.endTag tag cursor.offset] next ∧ next.rest = rest := by
  have htaken : (cursor.rest.drop 2).takeWhile isNameChar = tag.toList := by
    rw [hcursor, List.drop_succ_cons, List.drop_succ_cons, List.drop_zero]
    exact takeWhile_append_cons htag.all (by decide)
  have hnonempty : ¬ tag.toList.isEmpty = true := by
    obtain ⟨c, others, hname, -⟩ := htag.letter
    simp [hname]
  have hplace : (cursor.advance (2 + tag.toList.length)).rest = '>' :: rest := by
    have hsplit : cursor.rest = ('<' :: '/' :: tag.toList) ++ '>' :: rest := hcursor
    rw [Nat.add_comm]
    exact Cursor.rest_advance_append hsplit
  have hspace := Cursor.skipSpace_eq_self hplace (by decide)
  refine ⟨(cursor.advance (2 + tag.toList.length)).advance 1, .single hcursor ?_, ?_⟩
  · have hscan : scanEndTag cursor = .ok (.endTag tag cursor.offset,
        (cursor.advance (2 + tag.toList.length)).advance 1) := by
      simp only [scanEndTag, htaken, if_neg hnonempty, hspace, hplace, List.head?_cons, if_true,
        String.ofList_toList]
    rw [scanOne_endTag hcursor, hscan]
    rfl
  · exact Cursor.rest_advance_one hplace

end Tags

end MustacheHtml.Template
