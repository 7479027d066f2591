import MustacheHtml.Proofs.Bytewise.Attributes
import MustacheHtml.Proofs.Template.Spans

namespace MustacheHtml.Template

open Text (byteLength bytes charBytes isAscii)

theorem Cursor.advance_add (cursor : Cursor) (first more : Nat) :
    cursor.advance (first + more) = (cursor.advance first).advance more := by
  rw [Cursor.advance, Cursor.advance, Cursor.advance, List.take_add, Text.byteLength_append,
    Nat.add_assoc, List.drop_drop]

namespace Bytewise

variable {source : List Char} {cursor : Cursor} {c : Char} {rest : List Char}

section Tags

theorem readName_eq (hstands : cursor.StandsIn source) :
    readName source cursor.offset =
      .ok (cursor.rest.takeWhile isNameChar,
        (cursor.advance (cursor.rest.takeWhile isNameChar).length).offset) := by
  have hname := Cursor.passes_of_prefix (List.takeWhile_prefix isNameChar (l := cursor.rest))
  rw [readName, hstands.walk_eq uniform_isNameChar, (hstands.passes hname).goTo_eq]
  simp only [bind, Except.bind]
  rw [hstands.slice_eq hname]

theorem scanStartTag_eq (hstands : cursor.StandsIn source) (hrest : cursor.rest = '<' :: rest) :
    scanStartTag source cursor.offset = placed (Template.scanStartTag cursor) := by
  have hinner := hstands.advance 1
  have hhead : cursor.rest.head? = some '<' := by rw [hrest, List.head?_cons]
  rw [scanStartTag, Template.scanStartTag, hstands.goTo_succ rfl hhead, Cursor.advance_add,
    ← Cursor.rest_advance]
  simp only [bind, Except.bind]
  rw [readName_eq hinner]
  dsimp only
  rw [scanAttributes_eq (hinner.advance _)]
  cases Template.scanAttributes _ cursor.offset _ <;> rfl

theorem scanEndTag_eq (hstands : cursor.StandsIn source)
    (hrest : cursor.rest = '<' :: '/' :: rest) :
    scanEndTag source cursor.offset = placed (Template.scanEndTag cursor) := by
  have hpasses : cursor.Passes ['<', '/'] (cursor.advance 2) := by
    apply Cursor.passes_of_prefix
    rw [hrest]
    exact ⟨rest, rfl⟩
  have hplace : cursor.offset + 2 = (cursor.advance 2).offset := hpasses.offset_eq.symm
  have hinner := hstands.advance 2
  have hnamed := (hinner.advance ((cursor.advance 2).rest.takeWhile isNameChar).length)
  rw [scanEndTag, Template.scanEndTag, hplace, hinner.goTo_eq, Cursor.advance_add,
    ← Cursor.rest_advance]
  simp only [bind, Except.bind]
  rw [readName_eq hinner]
  dsimp only
  split
  · rfl
  rw [hnamed.skipSpace_eq, hnamed.skipSpace.goTo_eq]
  simp only [hnamed.skipSpace.byte?_eq_some_iff (c := '>') rfl]
  split
  · next hgreater =>
      rw [hnamed.skipSpace.goTo_succ rfl hgreater]
      rfl
  · rfl

end Tags

section Texts

theorem settle_eq (hstands : cursor.StandsIn source) :
    settle source cursor.offset = .ok cursor.offset := by
  have hbetween : Text.between? source 0 cursor.offset ≠ none := by
    obtain ⟨before, hsource, hoffset⟩ := hstands
    have hbefore : Text.between? source 0 cursor.offset = some before :=
      Text.between?_eq_some_iff.mpr ⟨[], cursor.rest, hsource, rfl, by rw [hoffset, Nat.zero_add]⟩
    rw [hbefore]
    exact Option.some_ne_none before
  rw [settle, if_pos (Option.isSome_iff_ne_none.mpr hbetween)]

theorem startsMarkup_wide (hc : isAscii c = false) (rest : List Char) :
    startsMarkup (c :: rest) = false := by
  refine Bool.eq_false_iff.mpr fun hstarts => ?_
  rcases startsMarkup_cons hstarts with rfl | ⟨rfl, -⟩ <;> cases hc

theorem takeUntil_ahead (hstands : cursor.StandsIn source) (hrest : cursor.rest = c :: rest) :
    cursor.offset + 1 + (takeUntil startsMarkup (ahead source (cursor.offset + 1))).length =
      cursor.offset + byteLength (c :: takeUntil startsMarkup rest) := by
  obtain ⟨b, more, hbytes⟩ := List.exists_cons_of_ne_nil (Text.charBytes_ne_nil c)
  have hsize : c.utf8Size = more.length + 1 := by
    rw [← Text.length_charBytes, hbytes, List.length_cons]
  have hahead : ahead source (cursor.offset + 1) = more ++ bytes rest := by
    apply ahead_succ (b := b)
    rw [hstands.ahead_eq, hrest, Text.bytes_cons, hbytes, List.cons_append]
  have hmore : ∀ d ∈ more, ∀ others, startsMarkup (d :: others) = false := by
    intro d hd others
    refine startsMarkup_wide ?_ others
    rw [Text.isAscii_of_mem (c := c) (hbytes ▸ List.mem_cons_of_mem b hd)]
    -- A character below 128 has no second byte.
    refine Bool.eq_false_iff.mpr fun hc => ?_
    rw [Text.charBytes_of_ascii hc] at hbytes
    cases hbytes
    cases hd
  rw [hahead, takeUntil_front hmore,
    takeUntil_bytes startsMarkup_bytes fun d others hd => startsMarkup_wide hd others,
    List.length_append, Text.length_bytes, Text.byteLength, hsize]
  omega

theorem scanText_eq (hstands : cursor.StandsIn source) (hleft : cursor.rest ≠ []) :
    scanText source cursor.offset =
      .ok ((Template.scanText cursor).1, (Template.scanText cursor).2.offset) := by
  obtain ⟨c, rest, hrest⟩ := List.exists_cons_of_ne_nil hleft
  obtain ⟨behind, hsplit, -, -⟩ := takeUntil_splits startsMarkup rest
  have hpasses : cursor.Passes (c :: takeUntil startsMarkup rest)
      (cursor.advance (c :: takeUntil startsMarkup rest).length) := by
    apply Cursor.passes_of_prefix
    rw [hrest]
    exact ⟨behind, by rw [List.cons_append, ← hsplit]⟩
  have hnext := hstands.passes hpasses
  rw [scanText, takeUntil_ahead hstands hrest, ← hpasses.offset_eq, settle_eq hnext]
  simp only [bind, Except.bind]
  rw [hstands.slice_eq hpasses, Template.scanText, hrest]
  rfl

end Texts

section Rounds

theorem uniform_isAlpha : Text.Uniform Char.isAlpha :=
  uniform_of_ascii fun _ hc => isAscii_of_isAlpha hc

theorem atStartTag_iff (hstands : cursor.StandsIn source) :
    atStartTag source cursor.offset = true ↔
      ∃ letter after, cursor.rest = '<' :: letter :: after ∧ letter.isAlpha = true := by
  rw [atStartTag, Bool.and_eq_true, beq_iff_eq, hstands.byte?_eq_some_iff rfl]
  constructor
  · rintro ⟨hless, hletter⟩
    obtain ⟨behind, hrest⟩ := List.head?_eq_some_iff.mp hless
    rw [hstands.byte?_succ_eq hrest rfl, Text.head?_bytes_any uniform_isAlpha,
      Option.any_eq_true] at hletter
    obtain ⟨letter, hhead, halpha⟩ := hletter
    obtain ⟨after, rfl⟩ := List.head?_eq_some_iff.mp hhead
    exact ⟨letter, after, hrest, halpha⟩
  · rintro ⟨letter, after, hrest, halpha⟩
    rw [hstands.byte?_succ_eq hrest rfl, Text.head?_bytes_any uniform_isAlpha, hrest]
    exact ⟨rfl, halpha⟩

theorem scanOne_eq (hstands : cursor.StandsIn source) (hleft : cursor.rest ≠ []) :
    scanOne source cursor.offset = placed (Template.scanOne cursor) := by
  rw [scanOne, hstands.atMustache_eq, hstands.restAt_eq]
  simp only [bind, Except.bind, List.isPrefixOf_iff_prefix]
  split
  · next hstarts =>
      obtain ⟨rest, hrest⟩ := startsMustache_iff.mp hstarts
      rw [scanMustache_eq hstands hstarts, scanOne_mustache hrest.symm]
      cases Template.scanMustache cursor <;> rfl
  next hbraces =>
  split
  · next hcomment =>
      obtain ⟨rest, hrest⟩ := hcomment
      rw [hstands.skipPast_eq, scanOne_comment hrest.symm]
      cases Template.skipPast ['-', '-', '>'] .unterminatedComment cursor <;> rfl
  next hcomment =>
  split
  · next hdeclaration =>
      obtain ⟨rest, hrest⟩ := hdeclaration
      have hplain : ¬ ['-', '-'] <+: rest := by
        rintro ⟨others, rfl⟩
        exact hcomment ⟨others, hrest⟩
      rw [hstands.skipPast_eq, scanOne_declaration hrest.symm hplain]
      cases Template.skipPast ['>'] .unterminatedDeclaration cursor <;> rfl
  next hdeclaration =>
  split
  · next hend =>
      obtain ⟨rest, hrest⟩ := hend
      rw [scanEndTag_eq hstands hrest.symm, scanOne_endTag hrest.symm]
      cases Template.scanEndTag cursor <;> rfl
  next hend =>
  split
  · next hstart =>
      obtain ⟨letter, after, hrest, halpha⟩ := (atStartTag_iff hstands).mp hstart
      rw [scanStartTag_eq hstands hrest, scanOne_startTag hrest halpha]
      cases Template.scanStartTag cursor <;> rfl
  · next hstart =>
      have hplain : startsMarkup cursor.rest = false := by
        refine Bool.eq_false_iff.mpr fun hmarkup => ?_
        rcases startsMarkup_iff.mp hmarkup with hopens | hopens | hopens | ⟨letter, halpha, hopens⟩
        · exact hbraces (startsMustache_iff.mpr hopens)
        · exact hend hopens
        · exact hdeclaration hopens
        · obtain ⟨after, hrest⟩ := hopens
          exact hstart ((atStartTag_iff hstands).mpr ⟨letter, after, hrest.symm, halpha⟩)
      rw [scanText_eq hstands hleft, scanOne_text hplain]
      rfl

theorem tokensFrom_eq (hstands : cursor.StandsIn source) :
    tokensFrom source cursor.offset = (Template.tokensFrom cursor).mapError Halt.fault := by
  fun_induction Template.tokensFrom cursor with
  | case1 cursor hend =>
      rw [tokensFrom, dif_neg fun hlt => hstands.offset_lt_iff.mp hlt hend]
      rfl
  | case2 cursor hleft fault hfault =>
      rw [tokensFrom, dif_pos (hstands.offset_lt_iff.mpr hleft), scanOne_eq hstands hleft, hfault]
      rfl
  | case3 cursor hleft token? next hone ih =>
      obtain ⟨span, hpasses, -⟩ := scanOne_piece hleft hone
      have hnext := hstands.passes hpasses
      have hforward := hpasses.offset_lt (length_scanOne hleft hone)
      rw [tokensFrom, dif_pos (hstands.offset_lt_iff.mpr hleft), scanOne_eq hstands hleft, hone]
      simp only [placed, bind, Except.bind]
      rw [hnext.goTo_eq]
      dsimp only
      rw [dif_pos hforward, ih hnext]
      cases Template.tokensFrom next <;> rfl

end Rounds

/-- Scanning byte by byte never goes astray: every slice lies between characters of the source,
every byte that is looked back at is one of the body of its mustache, no place is behind the end of
the source, and every round goes on. It yields the tokens of the source or stops at its fault. -/
theorem tokens_never_astray (source : String) :
    (∃ found, Bytewise.tokens source.toList = .ok found ∧ tokenize source = .ok found) ∨
      ∃ found, Bytewise.tokens source.toList = .error (.fault found) ∧
        tokenize source = .error (ParseError.ofFault source.toList found) := by
  have htokens : Bytewise.tokens source.toList =
      (Template.tokens source.toList).mapError Halt.fault :=
    tokensFrom_eq (Cursor.StandsIn.start source.toList)
  rw [htokens, tokenize]
  cases Template.tokens source.toList with
  | ok found => exact .inl ⟨found, rfl, rfl⟩
  | error found => exact .inr ⟨found, rfl, rfl⟩

end Bytewise

end MustacheHtml.Template
