import Mathlib.Data.List.Forall2
import MustacheHtml.Proofs.Dict
import MustacheHtml.Proofs.Expression.Paths
import MustacheHtml.Proofs.Expression.Words
import MustacheHtml.Proofs.Results

namespace MustacheHtml.Expression

/-- A letter or an underscore, then letters, digits, underscores and hyphens, all ASCII. -/
structure IsIdentifier (word : List Char) : Prop where
  first : ∃ c others, word = c :: others ∧ (c.isAlpha = true ∨ c = '_')
  chars : ∀ c ∈ word, c.isAlphanum = true ∨ c = '_' ∨ c = '-'

theorem isIdentifier_iff {word : List Char} : IsIdentifier word ↔
    word.head?.any (fun c => c.isAlpha || c == '_') = true ∧
      word.all (fun c => c.isAlphanum || c == '_' || c == '-') = true := by
  constructor
  · rintro ⟨⟨c, others, rfl, hc⟩, hchars⟩
    exact ⟨by simpa using hc, by simpa [or_assoc] using hchars⟩
  · rintro ⟨hfirst, hchars⟩
    cases word with
    | nil => cases hfirst
    | cons c others =>
        exact ⟨⟨c, others, rfl, by simpa using hfirst⟩, by simpa [or_assoc] using hchars⟩

instance (word : List Char) : Decidable (IsIdentifier word) :=
  decidable_of_iff' _ isIdentifier_iff

/-- The segments of a path that is neither a truth value nor starts at the data as a whole. -/
@[mk_iff]
structure IsPath (segments : List String) : Prop where
  nonempty : segments ≠ []
  identifiers : ∀ segment ∈ segments, IsIdentifier segment.toList
  notThis : segments.head? ≠ some "this"
  notTruth : segments ≠ ["true"] ∧ segments ≠ ["false"]

instance (segments : List String) : Decidable (IsPath segments) :=
  decidable_of_iff' _ (isPath_iff segments)

/-- A path with dots between its names. -/
def pathText (segments : List String) : List Char :=
  ['.'].intercalate (segments.map String.toList)

def signText (negative : Bool) : List Char :=
  if negative then ['-'] else []

/-- An argument, and how it may be written. -/
inductive WrittenArgument : Param → List Char → Prop where
  | string {quote : Char} {content : String} (hquote : Text.isQuote quote = true)
      (hcontent : quote ∉ content.toList) :
      WrittenArgument (.string content) (quote :: content.toList ++ [quote])
  | integer {digits : List Char} (negative : Bool) (hdigits : Decimal.isDigits digits = true) :
      WrittenArgument (.number (Decimal.ofDigits negative digits [])) (signText negative ++ digits)
  | decimal {whole fraction : List Char} (negative : Bool)
      (hwhole : Decimal.isDigits whole = true) (hfraction : Decimal.isDigits fraction = true) :
      WrittenArgument (.number (Decimal.ofDigits negative whole fraction))
        (signText negative ++ (whole ++ '.' :: fraction))
  | yes : WrittenArgument (.boolean true) ['t', 'r', 'u', 'e']
  | no : WrittenArgument (.boolean false) ['f', 'a', 'l', 's', 'e']
  | path {segments : List String} (hpath : IsPath segments) :
      WrittenArgument (.id segments) (pathText segments)

/-- An argument with a key, and how it may be written. -/
inductive WrittenPair : String × Param → List Char → Prop where
  | assigned {key : String} {param : Param} {word : List Char} (hkey : IsIdentifier key.toList)
      (hparam : WrittenArgument param word) :
      WrittenPair (key, param) (key.toList ++ '=' :: word)

/-- A call of the helper with at least one argument, and how it may be written. -/
inductive WrittenCall (name : List String) (params : List Param) (pairs : List (String × Param)) :
    List Char → Prop where
  | call {blanks text : List Char} {paramWords pairWords : List (List Char)}
      (hname : IsPath name) (harguments : params ≠ [] ∨ pairs ≠ [])
      (hkeys : (pairs.map Prod.fst).Nodup) (hblanks : AllSpace blanks)
      (hparams : List.Forall₂ WrittenArgument params paramWords)
      (hpairs : List.Forall₂ WrittenPair pairs pairWords)
      (htext : Spaced (paramWords ++ pairWords) text) :
      WrittenCall name params pairs (blanks ++ (pathText name ++ text))

section Paths

variable {segments : List String}

theorem IsIdentifier.ne {word : List Char} (hword : IsIdentifier word) {c mark : Char}
    (hc : c ∈ word) (hmark : mark.isAlphanum = false ∧ mark ≠ '_' ∧ mark ≠ '-') : c ≠ mark := by
  rcases hword.chars c hc with halphanum | rfl | rfl
  · exact ne_of_isAlphanum halphanum hmark.1
  · exact hmark.2.1.symm
  · exact hmark.2.2.symm

theorem IsIdentifier.plain {word : List Char} (hword : IsIdentifier word) :
    ∀ c ∈ word, IsPlain c := by
  intro c hc
  rcases hword.chars c hc with halphanum | rfl | rfl
  · exact isPlain_of_isAlphanum halphanum
  · decide
  · decide

theorem pathText_cons (first : String) (rest : List String) :
    pathText (first :: rest) =
      first.toList ++ if rest = [] then [] else '.' :: pathText rest := by
  cases rest with
  | nil => simp [pathText]
  | cons second others => simp [pathText, List.intercalate]

theorem mem_pathText {c : Char} (hc : c ∈ pathText segments) :
    c = '.' ∨ ∃ segment ∈ segments, c ∈ segment.toList := by
  induction segments with
  | nil => simp [pathText] at hc
  | cons first rest ih =>
      rw [pathText_cons, List.mem_append] at hc
      rcases hc with hfirst | hrest
      · exact .inr ⟨first, List.mem_cons_self, hfirst⟩
      · split at hrest
        · exact absurd hrest List.not_mem_nil
        · rcases List.mem_cons.mp hrest with hdot | hc
          · exact .inl hdot
          · rcases ih hc with hdot | ⟨segment, hsegment, hc⟩
            · exact .inl hdot
            · exact .inr ⟨segment, List.mem_cons_of_mem _ hsegment, hc⟩

theorem IsPath.plain (hpath : IsPath segments) : ∀ c ∈ pathText segments, IsPlain c := by
  intro c hc
  rcases mem_pathText hc with rfl | ⟨segment, hsegment, hc⟩
  · decide
  · exact (hpath.identifiers segment hsegment).plain c hc

theorem IsPath.first (hpath : IsPath segments) :
    ∃ c others, pathText segments = c :: others ∧ (c.isAlpha = true ∨ c = '_') := by
  obtain ⟨segment, rest, rfl⟩ := List.exists_cons_of_ne_nil hpath.nonempty
  obtain ⟨c, others, hsegment, hc⟩ := (hpath.identifiers segment List.mem_cons_self).first
  rw [pathText_cons, hsegment]
  exact ⟨c, _, rfl, hc⟩

theorem IsIdentifier.isSegment {segment : String} (hsegment : IsIdentifier segment.toList) :
    IsSegment segment := by
  obtain ⟨c, others, hchars, -⟩ := hsegment.first
  refine ⟨?_, fun hdot => ?_, fun hslash => ?_⟩
  · rintro rfl
    exact absurd hchars.symm (List.cons_ne_nil c others)
  · exact hsegment.ne hdot (by decide) rfl
  · exact hsegment.ne hslash (by decide) rfl

theorem splitPath_pathText (hpath : IsPath segments) :
    splitPath (pathText segments) = segments := by
  have htext : (Param.id segments).display.toList = pathText segments := String.toList_intercalate
  rw [← htext, splitPath_display_iff]
  · exact hpath.notThis
  · exact fun segment hsegment => (hpath.identifiers segment hsegment).isSegment

end Paths

section Classes

variable {word : List Char}

theorem number?_eq_none {c : Char} (rest : List Char) (hminus : c ≠ '-')
    (hdigit : c.isDigit = false) : Param.number? (c :: rest) = none := by
  have hwhole : Decimal.isDigits ((c :: rest).takeWhile (· != '.')) = false := by
    by_cases hdot : c = '.'
    · simp [hdot, Decimal.isDigits]
    · simp [hdot, Decimal.isDigits, hdigit]
  unfold Param.number?
  split
  · next hsign =>
      split at hsign
      · next hminus' => exact absurd (List.cons.inj hminus').1 hminus
      · cases hsign
        simp [Text.cutWhile, hwhole]

theorem isDigits_iff {digits : List Char} :
    Decimal.isDigits digits = true ↔ digits ≠ [] ∧ ∀ c ∈ digits, c.isDigit = true := by
  simp [Decimal.isDigits]

theorem isAlphanum_of_isDigit {c : Char} (hc : c.isDigit = true) : c.isAlphanum = true := by
  simp [Char.isAlphanum, hc]

theorem number?_unsigned {whole fraction after : List Char} (negative : Bool)
    (hwhole : Decimal.isDigits whole = true)
    (hafter : after = [] ∧ fraction = [] ∨
      after = '.' :: fraction ∧ Decimal.isDigits fraction = true) :
    Param.number? (signText negative ++ (whole ++ after)) =
      some (Decimal.ofDigits negative whole fraction) := by
  obtain ⟨hnonempty, hdigits⟩ := isDigits_iff.mp hwhole
  obtain ⟨c, others, hfirst⟩ := List.exists_cons_of_ne_nil hnonempty
  have hsign : c ≠ '-' :=
    ne_of_isAlphanum (isAlphanum_of_isDigit (hdigits c (hfirst ▸ List.mem_cons_self))) (by decide)
  have hplain : ∀ c ∈ whole, (c != '.') = true := by
    intro c hc
    exact bne_iff_ne.mpr (ne_of_isAlphanum (isAlphanum_of_isDigit (hdigits c hc)) (by decide))
  have htake : (whole ++ after).takeWhile (· != '.') = whole := by
    rw [List.takeWhile_append_of_pos hplain]
    rcases hafter with ⟨rfl, -⟩ | ⟨rfl, -⟩ <;> simp
  have hdrop : (whole ++ after).dropWhile (· != '.') = after := by
    rw [List.dropWhile_append_of_pos hplain]
    rcases hafter with ⟨rfl, -⟩ | ⟨rfl, -⟩ <;> simp
  unfold Param.number?
  split
  next sign unsigned hsigned =>
    have hparts : sign = negative ∧ unsigned = whole ++ after := by
      cases negative with
      | true =>
          cases hsigned
          exact ⟨rfl, rfl⟩
      | false =>
          split at hsigned
          · next hminus =>
              rw [hfirst] at hminus
              exact absurd (List.cons.inj hminus).1 hsign
          · cases hsigned
            exact ⟨rfl, rfl⟩
    obtain ⟨rfl, rfl⟩ := hparts
    simp only [Text.cutWhile, htake, hdrop, hwhole]
    rcases hafter with ⟨rfl, rfl⟩ | ⟨rfl, hfraction⟩
    · rfl
    · simp [hfraction]

theorem classify_string {quote : Char} {content : List Char} (hquote : Text.isQuote quote = true) :
    Param.classify (quote :: content ++ [quote]) = .string (String.ofList content) := by
  have hunquote : Param.unquote? (quote :: content ++ [quote]) = some content := by
    simp [Param.unquote?, hquote]
  rw [List.cons_append] at hunquote ⊢
  rcases quote_cases hquote with rfl | rfl
  · rw [Param.classify, number?_eq_none _ (by decide) (by decide)]
    simp [hunquote]
  · rw [Param.classify, number?_eq_none _ (by decide) (by decide)]
    simp [hunquote]

theorem classify_pathText {segments : List String} (hpath : IsPath segments) :
    Param.classify (pathText segments) = .id segments := by
  obtain ⟨c, others, htext, hc⟩ := hpath.first
  have hsplit := splitPath_pathText hpath
  have htrue : pathText segments ≠ ['t', 'r', 'u', 'e'] := by
    intro htrue
    rw [htrue] at hsplit
    exact hpath.notTruth.1 (hsplit.symm.trans (by decide))
  have hfalse : pathText segments ≠ ['f', 'a', 'l', 's', 'e'] := by
    intro hfalse
    rw [hfalse] at hsplit
    exact hpath.notTruth.2 (hsplit.symm.trans (by decide))
  have hplain := hpath.plain c (htext ▸ List.mem_cons_self)
  have hnumber : Param.number? (pathText segments) = none := by
    have hsign : c ≠ '-' ∧ c.isDigit = false := by
      rcases hc with halpha | rfl
      · have halphanum : c.isAlphanum = true := by simp [Char.isAlphanum, halpha]
        exact ⟨ne_of_isAlphanum halphanum (by decide), isDigit_of_isAlpha halpha⟩
      · exact ⟨by decide, by decide⟩
    rw [htext, number?_eq_none _ hsign.1 hsign.2]
  have hunquote : Param.unquote? (pathText segments) = none := by
    rw [htext]
    simp [Param.unquote?, hplain.notQuote]
  rw [Param.classify, hnumber]
  simp [htrue, hfalse, hunquote, hsplit]

theorem WrittenArgument.classify {param : Param} (hparam : WrittenArgument param word) :
    Param.classify word = param := by
  cases hparam with
  | @string quote content hquote hcontent =>
      rw [classify_string hquote, String.ofList_toList]
  | @integer digits negative hdigits =>
      have hnumber := number?_unsigned negative hdigits (.inl ⟨rfl, rfl⟩)
      rw [List.append_nil] at hnumber
      rw [Param.classify, hnumber]
  | decimal negative hwhole hfraction =>
      rw [Param.classify, number?_unsigned negative hwhole (.inr ⟨rfl, hfraction⟩)]
  | yes => rfl
  | no => rfl
  | path hpath => exact classify_pathText hpath

theorem WrittenArgument.plain_or_string {param : Param} (hparam : WrittenArgument param word) :
    (word ≠ [] ∧ ∀ c ∈ word, IsPlain c) ∨ ∃ quote content,
      Text.isQuote quote = true ∧ quote ∉ content ∧ word = quote :: content ++ [quote] := by
  have hsign : ∀ negative, ∀ c ∈ signText negative, IsPlain c := by
    intro negative c hc
    cases negative with
    | true =>
        rw [List.mem_singleton.mp hc]
        decide
    | false => exact absurd hc List.not_mem_nil
  have hletters {letters : List Char} (hletters : letters.all Char.isAlphanum = true) :
      ∀ c ∈ letters, IsPlain c :=
    fun c hc => isPlain_of_isAlphanum (List.all_eq_true.mp hletters c hc)
  have hdigit {digits} (hdigits : Decimal.isDigits digits = true) : ∀ c ∈ digits, IsPlain c := by
    intro c hc
    exact isPlain_of_isAlphanum (isAlphanum_of_isDigit ((isDigits_iff.mp hdigits).2 c hc))
  cases hparam with
  | string hquote hcontent => exact .inr ⟨_, _, hquote, hcontent, rfl⟩
  | integer negative hdigits =>
      refine .inl ⟨List.append_ne_nil_of_right_ne_nil _ (isDigits_iff.mp hdigits).1, ?_⟩
      exact List.forall_mem_append.mpr ⟨hsign negative, hdigit hdigits⟩
  | decimal negative hwhole hfraction =>
      have hdot : IsPlain '.' := by decide
      refine .inl ⟨List.append_ne_nil_of_right_ne_nil _ (by simp), ?_⟩
      rw [List.forall_mem_append, List.forall_mem_append, List.forall_mem_cons]
      exact ⟨hsign negative, hdigit hwhole, hdot, hdigit hfraction⟩
  | yes => exact .inl ⟨by decide, hletters rfl⟩
  | no => exact .inl ⟨by decide, hletters rfl⟩
  | path hpath =>
      obtain ⟨c, others, htext, -⟩ := hpath.first
      exact .inl ⟨by simp [htext], hpath.plain⟩

theorem WrittenArgument.isWord {param : Param} (hparam : WrittenArgument param word) :
    IsWord word := by
  rcases hparam.plain_or_string with ⟨hnonempty, hplain⟩ | ⟨quote, content, hquote, hcontent, rfl⟩
  · exact .plain hnonempty hplain
  · exact .string hquote hcontent

theorem WrittenPair.isWord {pair : String × Param} (hpair : WrittenPair pair word) :
    IsWord word := by
  cases hpair with
  | assigned hkey hparam => exact .assigned hkey.plain hparam.isWord

end Classes

section Pairs

variable {mark : Char} {text after word : List Char}

theorem cut?_eq_none (hmark : mark ∉ text) : Text.cut? [mark] text = none := by
  induction text with
  | nil => rfl
  | cons c rest ih =>
      rw [List.mem_cons, not_or] at hmark
      simp [Text.cut?, hmark.1, ih hmark.2]

theorem cut?_append (hmark : mark ∉ text) (after : List Char) :
    Text.cut? [mark] (text ++ mark :: after) = some (text, after) := by
  induction text with
  | nil => simp [Text.cut?]
  | cons c rest ih =>
      rw [List.mem_cons, not_or] at hmark
      simp [Text.cut?, hmark.1, ih hmark.2]

theorem hashPair?_of_first {c : Char} (rest : List Char) (hc : isKeyChar c = false) :
    hashPair? (c :: rest) = none := by
  rw [hashPair?, Option.bind_eq_none_iff]
  rintro ⟨key, value⟩ hcut
  have hjoined := Text.cut?_eq_append hcut
  cases key with
  | nil => rfl
  | cons first others =>
      obtain ⟨rfl, -⟩ := List.cons.inj hjoined
      simp [hc]

theorem WrittenArgument.hashPair?_eq_none {param : Param} (hparam : WrittenArgument param word) :
    hashPair? word = none := by
  rcases hparam.plain_or_string with ⟨-, hplain⟩ | ⟨quote, content, hquote, -, rfl⟩
  · have hequals : '=' ∉ word := fun hmem => (hplain '=' hmem).notEquals rfl
    rw [hashPair?, cut?_eq_none hequals]
    rfl
  · apply hashPair?_of_first
    rcases quote_cases hquote with rfl | rfl
    · decide +kernel
    · decide +kernel

theorem hashPair?_assigned {key : List Char} (hkey : IsIdentifier key) (word : List Char) :
    hashPair? (key ++ '=' :: word) = some (key, word) := by
  have hequals : '=' ∉ key := fun hmem => (hkey.plain '=' hmem).notEquals rfl
  have hchars : key.all isKeyChar = true := by
    rw [List.all_eq_true]
    intro c hc
    rcases hkey.chars c hc with halphanum | rfl | rfl
    · simp [isKeyChar, Text.isAlphanumeric_of_isAlphanum c halphanum]
    · simp [isKeyChar]
    · simp [isKeyChar]
  have hnonempty : key.isEmpty = false := by
    obtain ⟨c, others, hfirst, -⟩ := hkey.first
    rw [hfirst]
    rfl
  rw [hashPair?, cut?_append hequals]
  simp only [Option.bind_some, hnonempty, hchars, Bool.not_false, Bool.and_self, if_true]

end Pairs

section Reading

variable {params : List Param} {pairs : List (String × Param)} {words : List (List Char)}

theorem foldlM_params (hwords : List.Forall₂ WrittenArgument params words) (before : List Param) :
    words.foldlM Arguments.add ⟨before, []⟩ = .ok ⟨before ++ params, []⟩ := by
  induction hwords generalizing before with
  | nil => rw [List.append_nil]; rfl
  | @cons param word params words hparam _ ih =>
      have hadd : Arguments.add ⟨before, []⟩ word = .ok ⟨before ++ [param], []⟩ := by
        unfold Arguments.add
        rw [hparam.hashPair?_eq_none, hparam.classify]
        rfl
      have hrest := ih (before ++ [param])
      rw [List.append_assoc] at hrest
      rw [List.foldlM_cons, hadd]
      exact hrest

theorem foldlM_pairs (hwords : List.Forall₂ WrittenPair pairs words) (params : List Param)
    (hash : Dict Param) : words.foldlM Arguments.add ⟨params, hash⟩ =
      .ok ⟨params, pairs.foldl (fun dict entry => dict.set entry.1 entry.2) hash⟩ := by
  induction hwords generalizing hash with
  | nil => rfl
  | @cons pair word pairs words hpair _ ih =>
      cases hpair with
      | @assigned key param value hkey hparam =>
          have hadd : Arguments.add ⟨params, hash⟩ (key.toList ++ '=' :: value) =
              .ok ⟨params, hash.set key param⟩ := by
            have hnonempty : ¬ value.isEmpty = true := by simpa using hparam.isWord.nonempty
            unfold Arguments.add
            rw [hashPair?_assigned hkey]
            simp only [if_neg hnonempty, hparam.classify, String.ofList_toList]
          rw [List.foldlM_cons, hadd]
          exact ih (hash.set key param)

theorem forall_isWord {α : Type} {written : α → List Char → Prop} {items : List α}
    (hwritten : ∀ {item word}, written item word → IsWord word)
    (hitems : List.Forall₂ written items words) : ∀ word ∈ words, IsWord word := by
  intro word hword
  obtain ⟨item, -, hitem⟩ := exists_of_forall₂ hitems word hword
  exact hwritten hitem

theorem isWord_arguments {paramWords pairWords : List (List Char)}
    (hparams : List.Forall₂ WrittenArgument params paramWords)
    (hpairs : List.Forall₂ WrittenPair pairs pairWords) :
    ∀ word ∈ paramWords ++ pairWords, IsWord word :=
  List.forall_mem_append.mpr
    ⟨forall_isWord WrittenArgument.isWord hparams, forall_isWord WrittenPair.isWord hpairs⟩

theorem isCallName_pathText {segments : List String} (hpath : IsPath segments) :
    isCallName (pathText segments) = true := by
  obtain ⟨first, rest, rfl⟩ := List.exists_cons_of_ne_nil hpath.nonempty
  rw [isCallName, classify_pathText hpath]

/-- A written call is read as the call with this name, these arguments and these pairs. -/
theorem read_writtenCall {name : List String} {text : List Char}
    (hcall : WrittenCall name params pairs text) :
    read text = .ok (.call (String.ofList (pathText name)) params (Dict.ofList pairs)) := by
  cases hcall with
  | @call blanks text paramWords pairWords hname harguments hkeys hblanks hparams hpairs htext =>
      have hfirst : WrittenArgument (.id name) (pathText name) := .path hname
      have hnonempty : ¬ (pathText name).isEmpty = true := by simpa using hfirst.isWord.nonempty
      have htokens : tokens (blanks ++ (pathText name ++ text)) =
          .ok (pathText name :: (paramWords ++ pairWords)) := by
        have hwords := isWord_arguments hparams hpairs
        have hsplit := hfirst.isWord.tokensFrom_eq (htext.tokensFrom_eq hwords)
        rw [tokens_blanks_append hblanks.blank, tokens, hsplit, List.append_nil]
        simp only [bind, Except.bind, Text.consRun, if_neg hnonempty]
      have hrest : ¬ (paramWords ++ pairWords).isEmpty = true := by
        rw [List.isEmpty_iff, List.append_eq_nil_iff]
        rintro ⟨rfl, rfl⟩
        exact harguments.elim (absurd (List.forall₂_nil_right_iff.mp hparams))
          (absurd (List.forall₂_nil_right_iff.mp hpairs))
      have hfold : (paramWords ++ pairWords).foldlM Arguments.add {} =
          .ok ⟨params, Dict.ofList pairs⟩ := by
        rw [List.foldlM_append, foldlM_params hparams]
        exact foldlM_pairs hpairs params []
      rw [read, htokens]
      simp only [bind, Except.bind, ofTokens, hfirst.hashPair?_eq_none, Option.isSome_none,
        if_neg hrest, isCallName_pathText hname, hfold, if_true, Bool.false_eq_true, if_false]

end Reading

end MustacheHtml.Expression
