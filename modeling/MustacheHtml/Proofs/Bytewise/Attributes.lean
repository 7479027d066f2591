import MustacheHtml.Proofs.Bytewise.Mustaches

namespace MustacheHtml.Template.Bytewise

open Text (byteLength bytes charBytes isAscii Uniform)

section Walk

variable {source back front : List Char} {stops : Char → Bool} {textStart place : Nat} {b c : Char}

theorem scanValue_ended (hended : ∀ b, byte? source place = some b → stops b = true) :
    scanValue source stops textStart place = (do
      .ok (literals (← slice source textStart place), ← goTo source place)) := by
  rw [scanValue]
  split
  · rfl
  · next hbyte => rw [if_pos (hended _ hbyte)]

theorem scanValue_mustache (hbyte : byte? source place = some b) (hb : stops b = false)
    (hstarts : atMustache source place = .ok true) :
    scanValue source stops textStart place = (do
      let text ← slice source textStart place
      let (found, next) ← scanMustache source place
      if place < next then
        let (parts, last) ← scanValue source stops next next
        .ok (literals text ++ found.toList.map RawPart.mustache ++ parts, last)
      else .error (.idle place)) := by
  conv_lhs => rw [scanValue]
  split
  · next hnone => cases hbyte.symm.trans hnone
  · next c hsome =>
      obtain rfl : b = c := Option.some.inj (hbyte.symm.trans hsome)
      rw [if_neg (Bool.eq_false_iff.mp hb), hstarts]
      rfl

theorem scanValue_step (hbyte : byte? source place = some b) (hb : stops b = false)
    (hstarts : atMustache source place = .ok false) :
    scanValue source stops textStart place = scanValue source stops textStart (place + 1) := by
  conv_lhs => rw [scanValue]
  split
  · next hnone => cases hbyte.symm.trans hnone
  · next c hsome =>
      obtain rfl : b = c := Option.some.inj (hbyte.symm.trans hsome)
      rw [if_neg (Bool.eq_false_iff.mp hb), hstarts]
      rfl

theorem scanValue_wide (hahead : ahead source place = front ++ back)
    (hfront : ∀ b ∈ front, isAscii b = false ∧ stops b = false) :
    scanValue source stops textStart place =
      scanValue source stops textStart (place + front.length) := by
  refine eq_behind hahead fun here _ b hb hhead => ?_
  obtain ⟨hascii, hpassed⟩ := hfront b hb
  have hbyte := (byte?_eq_head? source here).trans hhead
  have hstarts : atMustache source here = .ok false := by
    rw [atMustache, if_pos (Nat.le_of_lt (lt_of_byte? hbyte))]
    refine congrArg Except.ok (Bool.eq_false_iff.mpr fun hstarts => ?_)
    obtain ⟨others, hothers⟩ := startsMustache_iff.mp hstarts
    rw [← hothers] at hhead
    exact ne_of_not_isAscii hascii rfl (Option.some.inj hhead).symm
  exact scanValue_step hbyte hpassed hstarts

end Walk

section Values

variable {source rest pending : List Char} {stops : Char → Bool} {cursor start next : Cursor}
  {textStart : Nat} {c : Char}

theorem scanValue_plain (hstands : cursor.StandsIn source) (huniform : Uniform stops)
    (hrest : cursor.rest = c :: rest) (hc : stops c = false)
    (hstarts : startsMustache cursor.rest = false) :
    scanValue source stops textStart cursor.offset =
      scanValue source stops textStart (cursor.offset + c.utf8Size) := by
  cases hascii : isAscii c with
  | true =>
      have hbyte := hstands.byte?_of_ascii hrest hascii
      have hat := hstands.atMustache_eq
      rw [hstarts] at hat
      rw [scanValue_step hbyte hc hat, Text.utf8Size_of_ascii hascii]
  | false =>
      have hahead : ahead source cursor.offset = charBytes c ++ bytes rest := by
        rw [hstands.ahead_eq, hrest, Text.bytes_cons]
      rw [scanValue_wide hahead, Text.length_charBytes]
      intro b hb
      rw [Text.isAscii_of_mem hb, huniform.eq_of_mem hb]
      exact ⟨hascii, hc⟩

theorem scanValue_literal (hstands : cursor.StandsIn source) (huniform : Uniform stops) :
    scanValue source stops textStart cursor.offset =
      scanValue source stops textStart
        (cursor.advance (takeLiteral stops cursor.rest).length).offset := by
  induction hrest : cursor.rest generalizing cursor with
  | nil => rfl
  | cons c rest ih =>
      rw [takeLiteral, takeUntil]
      split
      · rfl
      · next hpassed =>
          rw [Bool.not_eq_true, Bool.or_eq_false_iff, List.head?_cons, Option.any_some] at hpassed
          rw [← hrest] at hpassed
          have hpasses : cursor.Passes [c] ⟨cursor.offset + c.utf8Size, rest⟩ := ⟨hrest, rfl⟩
          rw [scanValue_plain hstands huniform hrest hpassed.2 hpassed.1,
            ih (hstands.passes hpasses) rfl, Cursor.advance, Cursor.advance, hrest,
            List.length_cons, List.take_succ_cons, Text.byteLength, Nat.add_assoc]
          rfl

theorem ended_or_startsMustache (hstands : cursor.StandsIn source) (huniform : Uniform stops)
    (hhere : takeLiteral stops cursor.rest = []) :
    (∀ b, byte? source cursor.offset = some b → stops b = true) ∨
      startsMustache cursor.rest = true ∧
        ∃ b, byte? source cursor.offset = some b ∧ stops b = false := by
  have hbyte := hstands.byte?_eq
  have hany := Text.head?_bytes_any huniform cursor.rest
  rw [← hbyte] at hany
  cases hfirst : byte? source cursor.offset with
  | none => exact .inl nofun
  | some b =>
      rw [hfirst, Option.any_some] at hany
      cases hb : stops b with
      | true =>
          refine .inl fun other hother => ?_
          rwa [← Option.some.inj hother]
      | false =>
          refine .inr ⟨?_, b, rfl, hb⟩
          rw [hb] at hany
          cases hrest : cursor.rest with
          | nil =>
              rw [hrest, hfirst] at hbyte
              cases hbyte
          | cons c rest =>
              rw [hrest] at hany hhere
              rw [takeLiteral, takeUntil, ← hany, Bool.or_false] at hhere
              split at hhere
              · assumption
              · cases hhere

theorem scanValue_pending (hstart : start.StandsIn source) (hpending : start.Passes pending cursor)
    (huniform : Uniform stops) (hhere : takeLiteral stops cursor.rest = []) :
    scanValue source stops start.offset cursor.offset = (do
      let (parts, last) ← scanValue source stops cursor.offset cursor.offset
      .ok (literals pending ++ parts, last)) := by
  have hstands := hstart.passes hpending
  have hslice := hstart.slice_eq hpending
  have hnone := hstands.slice_eq (cursor.passes_refl)
  rcases ended_or_startsMustache hstands huniform hhere with hended | ⟨hstarts, b, hbyte, hb⟩
  · rw [scanValue_ended hended, scanValue_ended hended, hslice, hnone, hstands.goTo_eq]
    simp [bind, Except.bind, literals]
  · have hat := hstands.atMustache_eq
    rw [hstarts] at hat
    rw [scanValue_mustache hbyte hb hat, scanValue_mustache hbyte hb hat, hslice, hnone]
    simp only [bind, Except.bind]
    cases scanMustache source cursor.offset with
    | error halt => rfl
    | ok scanned =>
        dsimp only
        split
        · cases scanValue source stops scanned.2 scanned.2 with
          | error halt => rfl
          | ok value => simp [literals]
        · rfl

theorem scanValue_braces (hstands : cursor.StandsIn source)
    (hstarts : startsMustache cursor.rest = true) (hbrace : stops '{' = false) :
    scanValue source stops cursor.offset cursor.offset = (do
      let (found, next) ← placed (Template.scanMustache cursor)
      if cursor.offset < next then
        let (parts, last) ← scanValue source stops next next
        .ok (found.toList.map RawPart.mustache ++ parts, last)
      else .error (.idle cursor.offset)) := by
  obtain ⟨others, hbraces⟩ := startsMustache_iff.mp hstarts
  have hbyte := hstands.byte?_of_ascii hbraces.symm rfl
  have hat := hstands.atMustache_eq
  rw [hstarts] at hat
  rw [scanValue_mustache hbyte hbrace hat, hstands.slice_eq cursor.passes_refl,
    scanMustache_eq hstands hstarts]
  rfl

theorem passes_takeLiteral (stops : Char → Bool) (cursor : Cursor) :
    ∃ next, cursor.advance (takeLiteral stops cursor.rest).length = next ∧
      cursor.Passes (takeLiteral stops cursor.rest) next ∧ takeLiteral stops next.rest = [] := by
  obtain ⟨rest, hsplit, hend, -⟩ := takeUntil_splits
    (fun text => startsMustache text || text.head?.any stops) cursor.rest
  rw [← takeLiteral] at hsplit
  refine ⟨_, Cursor.advance_append hsplit, ⟨hsplit, rfl⟩, ?_⟩
  dsimp only
  cases rest with
  | nil => rfl
  | cons c rest =>
      rw [takeLiteral, takeUntil, if_pos (hend.resolve_left (List.cons_ne_nil c rest))]

theorem scanValue_eq (hstands : cursor.StandsIn source) (huniform : Uniform stops) :
    scanValue source stops cursor.offset cursor.offset =
      placed (Template.scanValue stops cursor) := by
  fun_induction Template.scanValue stops cursor with
  | case1 cursor hrest =>
      have hbyte := hstands.byte?_eq
      rw [hrest] at hbyte
      rw [scanValue_ended, hstands.slice_eq cursor.passes_refl, hstands.goTo_eq]
      · rfl
      · intro b hb
        cases hbyte.symm.trans hb
  | case2 cursor c rest hrest hstop =>
      have hany := Text.head?_bytes_any huniform cursor.rest
      rw [← hstands.byte?_eq, hrest, List.head?_cons, Option.any_some, hstop] at hany
      rw [scanValue_ended, hstands.slice_eq cursor.passes_refl, hstands.goTo_eq]
      · rfl
      · intro b hb
        rwa [hb, Option.any_some] at hany
  | case3 cursor c rest hrest hstop hstarts fault hfault =>
      obtain ⟨rfl, -⟩ := startsMustache_cons hstarts
      rw [← hrest] at hstarts
      rw [scanValue_braces hstands hstarts (Bool.eq_false_iff.mpr hstop), hfault]
      rfl
  | case4 cursor c rest hrest hstop hstarts mustache next hfound ih =>
      obtain ⟨rfl, -⟩ := startsMustache_cons hstarts
      rw [← hrest] at hstarts
      obtain ⟨span, hpasses, -⟩ := passes_scanMustache hstarts hfound
      have hleft : cursor.rest ≠ [] := by
        rw [hrest]
        exact List.cons_ne_nil _ _
      have hforward := hpasses.offset_lt (length_scanMustache hleft hfound)
      rw [scanValue_braces hstands hstarts (Bool.eq_false_iff.mpr hstop), hfound, placed]
      simp only [bind, Except.bind]
      rw [if_pos hforward, ih (hstands.passes hpasses)]
      cases Template.scanValue stops next <;> rfl
  | case5 cursor c rest hrest hstop hstarts ih =>
      -- The literal text is walked through, and remembered up to where it ends.
      obtain ⟨next, hnext, hpasses, hhere⟩ := passes_takeLiteral stops cursor
      have hliteral : (takeLiteral stops cursor.rest).isEmpty = false := by
        rw [hrest, takeLiteral, takeUntil, if_neg (by simp [hstop, hstarts])]
        rfl
      rw [scanValue_literal hstands huniform, hnext,
        scanValue_pending hstands hpasses huniform hhere, literals, hliteral,
        if_neg Bool.false_ne_true]
      rw [← hrest, hnext] at ih ⊢
      rw [ih (hstands.passes hpasses)]
      cases Template.scanValue stops next <;> rfl

end Values

section Attributes

variable {source : List Char} {cursor : Cursor}

theorem uniform_quote {quote : Char} (hquote : Text.isQuote quote = true) :
    Uniform (· == quote) := by
  refine uniform_of_ascii fun c hc => ?_
  rw [beq_iff_eq.mp hc]
  exact isAscii_of_isQuote hquote

theorem uniform_bare : Uniform fun c => Text.isSpace c || c == '>' := by
  refine uniform_of_ascii fun c hc => ?_
  rw [Bool.or_eq_true, beq_iff_eq] at hc
  rcases hc with hspace | rfl
  · exact isAscii_of_isSpace hspace
  · rfl

theorem scanAssigned_eq (hstands : cursor.StandsIn source)
    (hspace : ∀ c, cursor.rest.head? = some c → Text.isSpace c = false) (offset : Nat)
    (name : String) :
    scanAssigned source offset name cursor.offset =
      placed (Template.scanAssigned offset name cursor) := by
  rw [scanAssigned, Template.scanAssigned]
  cases hrest : cursor.rest with
  | nil =>
      rw [hstands.byte?_eq, hrest]
      rfl
  | cons c rest =>
      -- The first byte of the character passes the tests that the character passes.
      obtain ⟨b, hb, hbyte⟩ := hstands.exists_byte hrest
      have hquotes := uniform_isQuote.eq_of_mem hb
      have hstops := uniform_bare.eq_of_mem hb
      rw [hspace c (by rw [hrest, List.head?_cons]), Bool.false_or] at hstops
      rw [hbyte]
      dsimp only
      rw [hquotes, hstops]
      split
      · next hquote =>
          have hascii := isAscii_of_isQuote hquote
          obtain rfl : b = c := by
            rwa [Text.charBytes_of_ascii hascii, List.mem_singleton] at hb
          have hinner := hstands.advance 1
          rw [hstands.goTo_succ hascii (by rw [hrest, List.head?_cons])]
          simp only [bind, Except.bind]
          rw [scanValue_eq hinner (uniform_quote hquote)]
          cases hvalue : Template.scanValue (· == b) (cursor.advance 1) with
          | error found => rfl
          | ok value =>
              obtain ⟨parts, last⟩ := value
              obtain ⟨span, hpasses⟩ := (scanValue_eq_ok_iff.mp hvalue).passes
              have hlast := hinner.passes hpasses
              dsimp only [placed]
              by_cases hend : last.rest.head? = some b
              · rw [if_pos ((hlast.byte?_eq_some_iff hascii).mpr hend), if_pos hend,
                  hlast.goTo_succ hascii hend]
              · rw [if_neg fun hat => hend ((hlast.byte?_eq_some_iff hascii).mp hat), if_neg hend]
                rfl
      · by_cases hgreater : c = '>'
        · rw [if_pos (beq_iff_eq.mpr hgreater), if_pos hgreater]
          rfl
        · rw [if_neg fun hat => hgreater (beq_iff_eq.mp hat), if_neg hgreater]
          exact scanValue_eq hstands uniform_bare

theorem head?_skipSpace (cursor : Cursor) {c : Char}
    (hhead : cursor.skipSpace.rest.head? = some c) : Text.isSpace c = false := by
  rw [Cursor.rest_skipSpace] at hhead
  have hnot := List.head?_dropWhile_not Text.isSpace cursor.rest
  rw [hhead] at hnot
  exact Bool.eq_false_iff.mpr (by simpa using hnot)

theorem scanAttribute_eq (hstands : cursor.StandsIn source) :
    scanAttribute source cursor.offset = placed (Template.scanAttribute cursor) := by
  have hname := Cursor.passes_of_prefix
    (List.takeWhile_prefix isAttributeNameChar (l := cursor.rest))
  have hstop := hstands.passes hname
  have hnamed := hstop.skipSpace
  rw [scanAttribute, Template.scanAttribute, hstands.walk_eq uniform_isAttributeNameChar,
    hstop.goTo_eq]
  simp only [bind, Except.bind]
  rw [hstands.slice_eq hname]
  dsimp only
  split
  · rfl
  rw [hstop.skipSpace_eq, hnamed.goTo_eq]
  dsimp only
  simp only [hnamed.byte?_eq_some_iff (c := '=') rfl]
  split
  · next hequals =>
      have hafter := hnamed.advance 1
      have hstart := hafter.skipSpace
      rw [hnamed.goTo_succ rfl hequals]
      dsimp only
      rw [hafter.skipSpace_eq, hstart.goTo_eq]
      dsimp only
      rw [scanAssigned_eq hstart fun _ hhead => head?_skipSpace _ hhead]
      cases Template.scanAssigned cursor.offset _ _ <;> rfl
  · rfl

theorem scanAttributes_ended {tag : String} {offset place : Nat}
    (hbyte : byte? source (skipSpace source place) = none) :
    scanAttributes source tag offset place = fail offset (.unterminatedTag tag) := by
  rw [scanAttributes]
  split
  · rfl
  · next hsome => cases hbyte.symm.trans hsome

theorem scanAttributes_round {tag : String} {offset place : Nat} {b : Char}
    (hbyte : byte? source (skipSpace source place) = some b) :
    scanAttributes source tag offset place = (do
      let start := skipSpace source place
      if b = '>' then .ok (⟨[], false⟩, ← goTo source (start + 1))
      else if b = '/' ∧ byte? source (start + 1) = some '>' then
        .ok (⟨[], true⟩, ← goTo source (start + 2))
      else if ← atMustache source start then fail start (.mustacheInTag tag)
      else
        let (first, next) ← scanAttribute source start
        let next ← goTo source next
        if place < next then
          let (others, last) ← scanAttributes source tag offset next
          .ok (⟨first :: others.attributes, others.selfClosing⟩, last)
        else .error (.idle place)) := by
  conv_lhs => rw [scanAttributes]
  split
  · next hnone => cases hbyte.symm.trans hnone
  · next c hsome =>
      obtain rfl : b = c := Option.some.inj (hbyte.symm.trans hsome)
      rfl

theorem scanAttributes_named (hstands : cursor.StandsIn source)
    (hleft : cursor.skipSpace.rest ≠ [])
    (hgreater : ∀ tail, cursor.skipSpace.rest ≠ '>' :: tail)
    (hslash : ∀ tail, cursor.skipSpace.rest ≠ '/' :: '>' :: tail)
    (hbraces : ∀ tail, cursor.skipSpace.rest ≠ '{' :: '{' :: tail) (tag : String) (offset : Nat) :
    scanAttributes source tag offset cursor.offset = (do
      let (first, next) ← placed (Template.scanAttribute cursor.skipSpace)
      let next ← goTo source next
      if cursor.offset < next then
        let (others, last) ← scanAttributes source tag offset next
        .ok (⟨first :: others.attributes, others.selfClosing⟩, last)
      else .error (.idle cursor.offset)) := by
  have hplace := hstands.skipSpace
  obtain ⟨c, rest, hrest⟩ := List.exists_cons_of_ne_nil hleft
  obtain ⟨b, hb, hbyte⟩ := hplace.exists_byte hrest
  have hplain : startsMustache cursor.skipSpace.rest = false := by
    refine Bool.eq_false_iff.mpr fun hstarts => ?_
    obtain ⟨tail, htail⟩ := startsMustache_iff.mp hstarts
    exact hbraces tail htail.symm
  have hat := hplace.atMustache_eq
  rw [hplain] at hat
  have hfirst : ∀ d, isAscii d → b = d → cursor.skipSpace.rest = d :: rest := by
    rintro d hd rfl
    rw [Text.charBytes_of_ascii ((Text.isAscii_of_mem hb).symm.trans hd), List.mem_singleton] at hb
    rw [hrest, hb]
  rw [← hstands.skipSpace_eq] at hbyte hat
  rw [scanAttributes_round hbyte]
  dsimp only
  rw [if_neg fun hend => hgreater rest (hfirst '>' rfl hend), if_neg, hat,
    hstands.skipSpace_eq, scanAttribute_eq hplace]
  · rfl
  · rintro ⟨hend, hnext⟩
    have hsame := hfirst '/' rfl hend
    rw [hstands.skipSpace_eq, hplace.byte?_succ_eq hsame rfl, Text.head?_bytes_eq_iff rfl] at hnext
    obtain ⟨others, rfl⟩ := List.head?_eq_some_iff.mp hnext
    exact hslash others hsame

theorem byte?_skipSpace {c : Char} {rest : List Char} (hstands : cursor.StandsIn source)
    (hrest : cursor.skipSpace.rest = c :: rest) (hc : isAscii c) :
    byte? source (skipSpace source cursor.offset) = some c := by
  rw [hstands.skipSpace_eq, hstands.skipSpace.byte?_of_ascii hrest hc]

theorem scanAttributes_eq (hstands : cursor.StandsIn source) (tag : String) (offset : Nat) :
    scanAttributes source tag offset cursor.offset =
      placed (Template.scanAttributes tag offset cursor) := by
  fun_induction Template.scanAttributes tag offset cursor with
  | case1 cursor hrest =>
      rw [scanAttributes_ended]
      · rfl
      · rw [hstands.skipSpace_eq, hstands.skipSpace.byte?_eq, hrest]
        rfl
  | case2 cursor rest hrest =>
      rw [scanAttributes_round (byte?_skipSpace hstands hrest rfl), hstands.skipSpace_eq]
      dsimp only
      rw [if_pos rfl, hstands.skipSpace.goTo_succ (c := '>') rfl (by rw [hrest, List.head?_cons])]
      rfl
  | case3 cursor rest hrest =>
      have hpasses : cursor.skipSpace.Passes ['/', '>'] (cursor.skipSpace.advance 2) := by
        apply Cursor.passes_of_prefix
        rw [hrest]
        exact ⟨rest, rfl⟩
      have hoffset : cursor.skipSpace.offset + 2 = (cursor.skipSpace.advance 2).offset :=
        hpasses.offset_eq.symm
      have hnext : byte? source (cursor.skipSpace.offset + 1) = some '>' := by
        rw [hstands.skipSpace.byte?_succ_eq hrest rfl, Text.bytes_of_ascii rfl, List.head?_cons]
      rw [scanAttributes_round (byte?_skipSpace hstands hrest rfl), hstands.skipSpace_eq]
      dsimp only
      rw [if_neg (by decide), if_pos ⟨rfl, hnext⟩, hoffset,
        (hstands.skipSpace.passes hpasses).goTo_eq]
      rfl
  | case4 cursor rest hrest =>
      have hstarts := hstands.skipSpace.atMustache_eq
      rw [hrest, startsMustache] at hstarts
      rw [scanAttributes_round (byte?_skipSpace hstands hrest rfl), hstands.skipSpace_eq]
      dsimp only
      rw [if_neg (by decide), if_neg (fun hslash => absurd hslash.1 (by decide)), hstarts]
      rfl
  | case5 cursor fault hfault hleft hgreater hslash hbraces =>
      rw [scanAttributes_named hstands hleft hgreater hslash hbraces, hfault]
      rfl
  | case6 cursor first next hfound hleft hgreater hslash hbraces ih =>
      obtain ⟨span, hpasses⟩ := (scanAttribute_eq_ok_iff.mp hfound).passes
      have hnext := hstands.skipSpace.passes hpasses
      have hforward : cursor.offset < next.offset := by
        refine (cursor.passes_skipSpace.trans hpasses).offset_lt ?_
        exact Nat.lt_of_lt_of_le (length_scanAttribute hfound) cursor.length_rest_skipSpace_le
      rw [scanAttributes_named hstands hleft hgreater hslash hbraces, hfound]
      simp only [placed, bind, Except.bind]
      rw [hnext.goTo_eq]
      dsimp only
      rw [if_pos hforward, ih hnext]
      cases Template.scanAttributes tag offset next <;> rfl

end Attributes

end MustacheHtml.Template.Bytewise
