import MustacheHtml.Proofs.Results
import MustacheHtml.Proofs.Template.Scanning

/-!
What a scan that succeeds has found. A relation for each scanner says all that its success tells,
the tests that it made on its way included, so that the scanner itself need not be opened again.
-/

namespace MustacheHtml.Template

/-- The parts of an attribute's value are written here, up to a character that ends it. -/
inductive Cursor.FindsParts (stops : Char → Bool) : Cursor → List RawPart → Cursor → Prop where
  | done {cursor : Cursor} (hends : ∀ c ∈ cursor.rest.head?, stops c = true) :
      FindsParts stops cursor [] cursor
  | mustache {cursor place next : Cursor} {raw? : Option RawMustache} {parts : List RawPart}
      (hstarts : startsMustache cursor.rest = true) (hbrace : stops '{' = false)
      (hscan : scanMustache cursor = .ok (raw?, place))
      (hothers : FindsParts stops place parts next) :
      FindsParts stops cursor (raw?.toList.map RawPart.mustache ++ parts) next
  | literal {cursor next : Cursor} {span : List Char} {parts : List RawPart}
      (hspan : span = takeLiteral stops cursor.rest) (hnonempty : span ≠ [])
      (hothers : FindsParts stops (cursor.advance span.length) parts next) :
      FindsParts stops cursor (literalPart span :: parts) next

/-- The value of an attribute is written here, between quotes or without them. -/
inductive Cursor.FindsValue (cursor : Cursor) : List RawPart → Cursor → Prop where
  | quoted {quote : Char} {after : List Char} {parts : List RawPart} {last : Cursor}
      (hrest : cursor.rest = quote :: after) (hquote : Text.isQuote quote = true)
      (hinner : (cursor.advance 1).FindsParts (· == quote) parts last)
      (hclosed : last.rest.head? = some quote) : FindsValue cursor parts (last.advance 1)
  | unquoted {c : Char} {after : List Char} {parts : List RawPart} {next : Cursor}
      (hrest : cursor.rest = c :: after) (hquote : Text.isQuote c = false) (hend : c ≠ '>')
      (hinner : cursor.FindsParts (fun c => Text.isSpace c || c == '>') parts next) :
      FindsValue cursor parts next

/-- An attribute's name is written here, and up to the other place only white space follows it. -/
structure Cursor.Names (cursor : Cursor) (name : List Char) (named : Cursor) : Prop where
  name_eq : name = cursor.rest.takeWhile isAttributeNameChar
  nonempty : name ≠ []
  named_eq : named = (cursor.advance name.length).skipSpace

/-- An attribute is written here, with a value or without one. -/
inductive Cursor.FindsAttribute (cursor : Cursor) : RawAttribute → Cursor → Prop where
  | bare {name : List Char} {named : Cursor} (hnamed : cursor.Names name named)
      (hbare : named.rest.head? ≠ some '=') :
      FindsAttribute cursor ⟨String.ofList name, [], cursor.offset⟩ named
  | assigned {name : List Char} {named next : Cursor} {value : List RawPart}
      (hnamed : cursor.Names name named) (hequals : named.rest.head? = some '=')
      (hvalue : (named.advance 1).skipSpace.FindsValue value next) :
      FindsAttribute cursor ⟨String.ofList name, value, cursor.offset⟩ next

/-- The attributes of a start tag are written here, and the end of the tag after them. -/
inductive Cursor.FindsTagEnd : Cursor → TagEnd → Cursor → Prop where
  | closed {cursor : Cursor} {rest : List Char} (hrest : cursor.skipSpace.rest = '>' :: rest) :
      FindsTagEnd cursor ⟨[], false⟩ (cursor.skipSpace.advance 1)
  | selfClosed {cursor : Cursor} {rest : List Char}
      (hrest : cursor.skipSpace.rest = '/' :: '>' :: rest) :
      FindsTagEnd cursor ⟨[], true⟩ (cursor.skipSpace.advance 2)
  | cons {cursor place next : Cursor} {attr : RawAttribute} {tagEnd : TagEnd}
      (hplain : ¬ ['{', '{'] <+: cursor.skipSpace.rest)
      (hattr : cursor.skipSpace.FindsAttribute attr place)
      (hothers : FindsTagEnd place tagEnd next) :
      FindsTagEnd cursor { tagEnd with attributes := attr :: tagEnd.attributes } next

/-- A token begins here, or what yields none. -/
inductive Cursor.Finds (cursor : Cursor) : Option Token → Cursor → Prop where
  | mustache {raw? : Option RawMustache} {next : Cursor} {after : List Char}
      (hrest : cursor.rest = '{' :: '{' :: after)
      (hscan : scanMustache cursor = .ok (raw?, next)) :
      Finds cursor (raw?.map Token.mustache) next
  | comment {next : Cursor} {after : List Char}
      (hrest : cursor.rest = '<' :: '!' :: '-' :: '-' :: after)
      (hskip : skipPast ['-', '-', '>'] .unterminatedComment cursor = .ok next) :
      Finds cursor none next
  | declaration {next : Cursor} {after : List Char} (hrest : cursor.rest = '<' :: '!' :: after)
      (hplain : ¬ ['-', '-'] <+: after)
      (hskip : skipPast ['>'] .unterminatedDeclaration cursor = .ok next) :
      Finds cursor none next
  | startTag {letter : Char} {after name : List Char} {tagEnd : TagEnd} {next : Cursor}
      (hrest : cursor.rest = '<' :: letter :: after) (hletter : letter.isAlpha = true)
      (hname : name = (letter :: after).takeWhile isNameChar)
      (hend : (cursor.advance (1 + name.length)).FindsTagEnd tagEnd next) :
      Finds cursor
        (some (.startTag (String.ofList name) tagEnd.attributes tagEnd.selfClosing cursor.offset))
        next
  | endTag {after name : List Char} {named : Cursor} (hrest : cursor.rest = '<' :: '/' :: after)
      (hname : name = after.takeWhile isNameChar) (hnonempty : name ≠ [])
      (hnamed : named = (cursor.advance (2 + name.length)).skipSpace)
      (hclosed : named.rest.head? = some '>') :
      Finds cursor (some (.endTag (String.ofList name) cursor.offset)) (named.advance 1)
  | text (hplain : startsMarkup cursor.rest = false) :
      Finds cursor (some (scanText cursor).1) (scanText cursor).2

section Values

variable {cursor next : Cursor} {stops : Char → Bool}

theorem findsParts_of_scanValue {parts : List RawPart}
    (hscan : scanValue stops cursor = .ok (parts, next)) : cursor.FindsParts stops parts next := by
  fun_induction scanValue stops cursor generalizing parts next with
  | case1 cursor hrest =>
      cases hscan
      exact .done (by simp [hrest])
  | case2 cursor c rest hrest hstop =>
      cases hscan
      exact .done (by simp [hrest, hstop])
  | case3 cursor c rest hrest hstop hstarts fault hfault => cases hscan
  | case4 cursor c rest hrest hstop hstarts raw? place hfound ih =>
      obtain ⟨⟨others, last⟩, hothers, hresult⟩ := bind_eq_ok_iff.mp hscan
      cases hresult
      obtain ⟨rfl, -⟩ := startsMustache_cons hstarts
      rw [← hrest] at hstarts
      exact .mustache hstarts (Bool.eq_false_iff.mpr hstop) hfound (ih hothers)
  | case5 cursor c rest hrest hstop hstarts ih =>
      obtain ⟨⟨others, last⟩, hothers, hresult⟩ := bind_eq_ok_iff.mp hscan
      cases hresult
      refine .literal (congrArg _ hrest.symm) ?_ (ih hothers)
      refine List.length_pos_iff.mp (takeUntil_length_pos ?_)
      simpa [hstop] using hstarts

theorem Cursor.FindsParts.scanValue_eq {parts : List RawPart}
    (hfinds : cursor.FindsParts stops parts next) : scanValue stops cursor = .ok (parts, next) := by
  induction hfinds with
  | @done cursor hends =>
      cases hrest : cursor.rest with
      | nil =>
          unfold scanValue
          split
          · rfl
          · next hcase => cases hrest.symm.trans hcase
      | cons c rest => exact scanValue_stop hrest (hends c (by rw [hrest]; rfl))
  | mustache hstarts hbrace hscan _ ih =>
      rw [scanValue_mustache hstarts hbrace hscan, ih]
      rfl
  | literal hspan hnonempty _ ih =>
      obtain ⟨c, others, rfl⟩ := List.exists_cons_of_ne_nil hnonempty
      rw [scanValue_literal hspan.symm, ih]
      rfl

theorem scanValue_eq_ok_iff {parts : List RawPart} :
    scanValue stops cursor = .ok (parts, next) ↔ cursor.FindsParts stops parts next :=
  ⟨findsParts_of_scanValue, Cursor.FindsParts.scanValue_eq⟩

theorem scanAssigned_eq_ok_iff {offset : Nat} {name : String} {parts : List RawPart} :
    scanAssigned offset name cursor = .ok (parts, next) ↔ cursor.FindsValue parts next := by
  constructor
  · intro hscan
    unfold scanAssigned at hscan
    split at hscan
    · cases hscan
    · next c after hrest =>
        split at hscan
        · next hquote =>
            obtain ⟨⟨value, last⟩, hinner, hresult⟩ := bind_eq_ok_iff.mp hscan
            dsimp only at hresult
            split at hresult
            · next hclosed =>
                cases hresult
                exact .quoted hrest hquote (scanValue_eq_ok_iff.mp hinner) hclosed
            · cases hresult
        · next hquote =>
            split at hscan
            · cases hscan
            · next hend =>
                exact .unquoted hrest (Bool.eq_false_iff.mpr hquote) hend
                  (scanValue_eq_ok_iff.mp hscan)
  · intro hfinds
    cases hfinds with
    | quoted hrest hquote hinner hclosed =>
        obtain ⟨behind, hlast⟩ := List.head?_eq_some_iff.mp hclosed
        exact scanAssigned_quoted hrest hquote offset name hinner.scanValue_eq hlast
    | unquoted hrest hquote hend hinner =>
        rw [scanAssigned_unquoted hrest hquote hend, hinner.scanValue_eq]

end Values

section Attributes

variable {cursor next : Cursor}

theorem scanAttribute_eq_ok_iff {attr : RawAttribute} :
    scanAttribute cursor = .ok (attr, next) ↔ cursor.FindsAttribute attr next := by
  constructor
  · intro hscan
    unfold scanAttribute at hscan
    dsimp only at hscan
    split at hscan
    · cases hscan
    · next hempty =>
        have hnamed : cursor.Names _ _ := ⟨rfl, by simpa using hempty, rfl⟩
        split at hscan
        · next hequals =>
            obtain ⟨⟨value, last⟩, hvalue, hresult⟩ := bind_eq_ok_iff.mp hscan
            cases hresult
            exact .assigned hnamed hequals (scanAssigned_eq_ok_iff.mp hvalue)
        · next hbare =>
            cases hscan
            exact .bare hnamed hbare
  · intro hfinds
    unfold scanAttribute
    cases hfinds with
    | bare hnamed hbare =>
        obtain ⟨rfl, hnonempty, rfl⟩ := hnamed
        dsimp only
        rw [if_neg (by simpa using hnonempty), if_neg hbare]
    | assigned hnamed hequals hvalue =>
        obtain ⟨rfl, hnonempty, rfl⟩ := hnamed
        dsimp only
        rw [if_neg (by simpa using hnonempty), if_pos hequals, scanAssigned_eq_ok_iff.mpr hvalue]
        rfl

theorem Cursor.FindsAttribute.exists_cons {attr : RawAttribute}
    (hfinds : cursor.FindsAttribute attr next) :
    ∃ c rest, cursor.rest = c :: rest ∧ isAttributeNameChar c = true := by
  obtain ⟨name, named, hnamed⟩ : ∃ name named, cursor.Names name named := by
    cases hfinds with
    | bare hnamed hbare => exact ⟨_, _, hnamed⟩
    | assigned hnamed hequals hvalue => exact ⟨_, _, hnamed⟩
  have hname := hnamed.name_eq
  cases hrest : cursor.rest with
  | nil =>
      rw [hrest] at hname
      exact absurd hname hnamed.nonempty
  | cons c rest =>
      refine ⟨c, rest, rfl, ?_⟩
      by_contra hc
      rw [hrest, List.takeWhile_cons_of_neg hc] at hname
      exact hnamed.nonempty hname

theorem findsTagEnd_of_scanAttributes {tag : String} {offset : Nat} {tagEnd : TagEnd}
    (hscan : scanAttributes tag offset cursor = .ok (tagEnd, next)) :
    cursor.FindsTagEnd tagEnd next := by
  fun_induction scanAttributes tag offset cursor generalizing tagEnd next with
  | case1 cursor hrest => cases hscan
  | case2 cursor rest hrest =>
      cases hscan
      exact .closed hrest
  | case3 cursor rest hrest =>
      cases hscan
      exact .selfClosed hrest
  | case4 cursor rest hrest => cases hscan
  | case5 cursor => cases hscan
  | case6 cursor attr place hfound hend hclosed hslash hbraces ih =>
      obtain ⟨⟨others, last⟩, hothers, hresult⟩ := bind_eq_ok_iff.mp hscan
      cases hresult
      refine .cons ?_ (scanAttribute_eq_ok_iff.mp hfound) (ih hothers)
      rintro ⟨rest, hrest⟩
      exact hbraces rest hrest.symm

theorem Cursor.FindsTagEnd.scanAttributes_eq {tagEnd : TagEnd}
    (hfinds : cursor.FindsTagEnd tagEnd next) (tag : String) (offset : Nat) :
    scanAttributes tag offset cursor = .ok (tagEnd, next) := by
  induction hfinds with
  | closed hrest => exact scanAttributes_closed tag offset hrest
  | selfClosed hrest => exact scanAttributes_selfClosed tag offset hrest
  | @cons cursor place next attr tagEnd hplain hattr _ ih =>
      obtain ⟨c, rest, hrest, hc⟩ := hattr.exists_cons
      have hmark : c ∉ ['>', '/'] := by
        intro hmem
        rcases List.mem_cons.mp hmem with rfl | hslash
        · exact absurd hc (by decide)
        · obtain rfl := List.mem_singleton.mp hslash
          exact absurd hc (by decide)
      have hbraces : ¬ (c = '{' ∧ rest.head? = some '{') := by
        rintro ⟨rfl, hsecond⟩
        obtain ⟨others, rfl⟩ := List.head?_eq_some_iff.mp hsecond
        exact hplain ⟨others, hrest.symm⟩
      have hfirst := scanAttribute_eq_ok_iff.mpr hattr
      rw [scanAttributes_cons tag offset hrest hmark hbraces hfirst, ih]
      rfl

theorem scanAttributes_eq_ok_iff {tag : String} {offset : Nat} {tagEnd : TagEnd} :
    scanAttributes tag offset cursor = .ok (tagEnd, next) ↔ cursor.FindsTagEnd tagEnd next :=
  ⟨findsTagEnd_of_scanAttributes, fun hfinds => hfinds.scanAttributes_eq tag offset⟩

end Attributes

section Tokens

variable {cursor next : Cursor}

theorem finds_of_scanEndTag {token : Token} {after : List Char}
    (hrest : cursor.rest = '<' :: '/' :: after) (hscan : scanEndTag cursor = .ok (token, next)) :
    cursor.Finds (some token) next := by
  unfold scanEndTag at hscan
  dsimp only at hscan
  rw [hrest, List.drop_succ_cons, List.drop_succ_cons, List.drop_zero] at hscan
  split at hscan
  · cases hscan
  · next hempty =>
      split at hscan
      · next hclosed =>
          cases hscan
          exact .endTag hrest rfl (by simpa using hempty) rfl hclosed
      · cases hscan

theorem finds_of_scanStartTag {token : Token} {letter : Char} {after : List Char}
    (hrest : cursor.rest = '<' :: letter :: after) (hletter : letter.isAlpha = true)
    (hscan : scanStartTag cursor = .ok (token, next)) : cursor.Finds (some token) next := by
  obtain ⟨⟨tagEnd, last⟩, hattributes, hresult⟩ := bind_eq_ok_iff.mp hscan
  cases hresult
  rw [hrest, List.drop_succ_cons, List.drop_zero] at hattributes ⊢
  exact .startTag hrest hletter rfl (scanAttributes_eq_ok_iff.mp hattributes)

theorem finds_of_scanOne {token? : Option Token} (hscan : scanOne cursor = .ok (token?, next)) :
    cursor.Finds token? next := by
  unfold scanOne at hscan
  split at hscan
  · next rest hrest =>
      obtain ⟨⟨raw?, place⟩, hmustache, hresult⟩ := bind_eq_ok_iff.mp hscan
      cases hresult
      exact .mustache hrest hmustache
  · next rest hrest =>
      obtain ⟨place, hskip, hresult⟩ := bind_eq_ok_iff.mp hscan
      cases hresult
      exact .comment hrest hskip
  · next rest hplain hrest =>
      obtain ⟨place, hskip, hresult⟩ := bind_eq_ok_iff.mp hscan
      cases hresult
      refine .declaration hrest ?_ hskip
      rintro ⟨after, hafter⟩
      exact hplain after hafter.symm
  · next rest hrest =>
      obtain ⟨⟨tag, place⟩, htag, hresult⟩ := bind_eq_ok_iff.mp hscan
      cases hresult
      exact finds_of_scanEndTag hrest htag
  · next c rest _ hbang hslash hrest =>
      split at hscan
      · next halpha =>
          obtain ⟨⟨tag, place⟩, htag, hresult⟩ := bind_eq_ok_iff.mp hscan
          cases hresult
          exact finds_of_scanStartTag hrest halpha htag
      · next halpha =>
          cases hscan
          refine .text ?_
          have hmarks : c ≠ '/' ∧ c ≠ '!' := ⟨hslash, hbang⟩
          rw [hrest]
          simp [startsMarkup, halpha, hmarks]
  · next hbraces _ _ _ hless =>
      cases hscan
      refine .text ?_
      unfold startsMarkup
      split
      · next rest hrest => exact (hbraces rest hrest).elim
      · next c rest hrest => exact (hless c rest hrest).elim
      · rfl

theorem Cursor.Finds.scanOne_eq {token? : Option Token} (hfinds : cursor.Finds token? next) :
    scanOne cursor = .ok (token?, next) := by
  cases hfinds with
  | mustache hrest hscan =>
      rw [scanOne_mustache hrest, hscan]
      rfl
  | comment hrest hskip =>
      rw [scanOne_comment hrest, hskip]
      rfl
  | declaration hrest hplain hskip =>
      rw [scanOne_declaration hrest hplain, hskip]
      rfl
  | startTag hrest hletter hname hend =>
      subst hname
      rw [scanOne_startTag hrest hletter, scanStartTag, hrest, List.drop_succ_cons, List.drop_zero]
      dsimp only
      rw [hend.scanAttributes_eq]
      rfl
  | endTag hrest hname hnonempty hnamed hclosed =>
      subst hname hnamed
      rw [scanOne_endTag hrest, scanEndTag, hrest, List.drop_succ_cons, List.drop_succ_cons,
        List.drop_zero]
      dsimp only
      rw [if_neg (by simpa using hnonempty), if_pos hclosed]
      rfl
  | text hplain => exact scanOne_text hplain

end Tokens

end MustacheHtml.Template
