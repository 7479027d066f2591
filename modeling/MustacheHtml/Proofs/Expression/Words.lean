import Mathlib.Tactic.MkIffOfInductiveProp
import MustacheHtml.Expression.Reading

namespace MustacheHtml.Expression

def AllSpace (text : List Char) : Prop :=
  ∀ c ∈ text, Text.isSpace c = true

instance (text : List Char) : Decidable (AllSpace text) :=
  decidable_of_iff (text.all Text.isSpace = true) List.all_eq_true

/-- The words one after the other, each after white space; more of it may follow. -/
inductive Spaced : List (List Char) → List Char → Prop where
  | nil {blanks : List Char} (hblanks : AllSpace blanks) : Spaced [] blanks
  | cons {blanks word text : List Char} {words : List (List Char)} (hnonempty : blanks ≠ [])
      (hblanks : AllSpace blanks) (hrest : Spaced words text) :
      Spaced (word :: words) (blanks ++ (word ++ text))

/-- A character that means nothing to either scan of a call. -/
@[mk_iff]
structure IsPlain (c : Char) : Prop where
  notBlank : Text.isBlank c = false
  notQuote : Text.isQuote c = false
  notEquals : c ≠ '='
  notBrace : c ≠ '}'

instance (c : Char) : Decidable (IsPlain c) :=
  decidable_of_iff' _ (isPlain_iff c)

/-- A word that is never parted: a string in it stands at its start or right after an equals
sign. -/
inductive IsWord : List Char → Prop where
  | plain {word : List Char} (hnonempty : word ≠ []) (hplain : ∀ c ∈ word, IsPlain c) : IsWord word
  | string {quote : Char} {content : List Char} (hquote : Text.isQuote quote = true)
      (hcontent : quote ∉ content) : IsWord (quote :: content ++ [quote])
  | assigned {key word : List Char} (hkey : ∀ c ∈ key, IsPlain c) (hword : IsWord word) :
      IsWord (key ++ '=' :: word)

theorem isAlpha_iff (c : Char) :
    c.isAlpha = true ↔ (65 ≤ c.toNat ∧ c.toNat ≤ 90) ∨ (97 ≤ c.toNat ∧ c.toNat ≤ 122) := by
  change (decide (65 ≤ c.toNat ∧ c.toNat ≤ 90) ||
    (decide (97 ≤ c.toNat) && decide (c.toNat ≤ 122))) = true ↔ _
  simp

theorem isDigit_iff (c : Char) : c.isDigit = true ↔ 48 ≤ c.toNat ∧ c.toNat ≤ 57 := by
  change (decide (48 ≤ c.toNat) && decide (c.toNat ≤ 57)) = true ↔ _
  simp

theorem isBlank_of_isAlphanum {c : Char} (hc : c.isAlphanum = true) : Text.isBlank c = false := by
  rw [Char.isAlphanum, Bool.or_eq_true, isAlpha_iff, isDigit_iff] at hc
  simp only [Text.isBlank, Bool.or_eq_false_iff, Bool.and_eq_false_iff, decide_eq_false_iff_not,
    beq_eq_false_iff_ne]
  omega

theorem isDigit_of_isAlpha {c : Char} (hc : c.isAlpha = true) : c.isDigit = false := by
  rw [isAlpha_iff] at hc
  rw [← Bool.not_eq_true, isDigit_iff]
  omega

theorem ne_of_isAlphanum {c mark : Char} (hc : c.isAlphanum = true)
    (hmark : mark.isAlphanum = false) : c ≠ mark := by
  rintro rfl
  exact Bool.false_ne_true (hmark.symm.trans hc)

theorem isQuote_eq_false {c : Char} (hdouble : c ≠ '"') (hsingle : c ≠ '\'') :
    Text.isQuote c = false := by
  simp [Text.isQuote, hdouble, hsingle]

theorem quote_cases {quote : Char} (hquote : Text.isQuote quote = true) :
    quote = '"' ∨ quote = '\'' := by
  simpa [Text.isQuote] using hquote

theorem isPlain_of_isAlphanum {c : Char} (hc : c.isAlphanum = true) : IsPlain c := by
  refine ⟨isBlank_of_isAlphanum hc, isQuote_eq_false ?_ ?_, ?_, ?_⟩
  · exact ne_of_isAlphanum hc (by decide)
  · exact ne_of_isAlphanum hc (by decide)
  · exact ne_of_isAlphanum hc (by decide)
  · exact ne_of_isAlphanum hc (by decide)

variable {word after token : List Char} {words : List (List Char)}

theorem tokensFrom_cons {c : Char} (hquote : Text.isQuote c = false)
    (hblank : Text.isBlank c = false) (hafter : tokensFrom none after = .ok (token, words)) :
    tokensFrom none (c :: after) = .ok (c :: token, words) := by
  rw [tokensFrom, if_neg (by simp [hquote]), if_neg (by simp [hblank]), hafter]
  rfl

theorem tokensFrom_quoted {quote : Char} {content : List Char} (hcontent : quote ∉ content)
    (hafter : tokensFrom none after = .ok (token, words)) :
    tokensFrom (some quote) (content ++ quote :: after) =
      .ok (content ++ quote :: token, words) := by
  induction content with
  | nil =>
      rw [List.nil_append, tokensFrom, if_pos rfl, hafter]
      rfl
  | cons c others ih =>
      rw [List.mem_cons, not_or] at hcontent
      rw [List.cons_append, tokensFrom, if_neg (Ne.symm hcontent.1), ih hcontent.2]
      rfl

theorem tokensFrom_plains (hword : ∀ c ∈ word, IsPlain c)
    (hafter : tokensFrom none after = .ok (token, words)) :
    tokensFrom none (word ++ after) = .ok (word ++ token, words) := by
  induction word with
  | nil => exact hafter
  | cons c others ih =>
      obtain ⟨hc, hothers⟩ := List.forall_mem_cons.mp hword
      exact tokensFrom_cons hc.notQuote hc.notBlank (ih hothers)

theorem IsWord.tokensFrom_eq (hword : IsWord word)
    (hafter : tokensFrom none after = .ok (token, words)) :
    tokensFrom none (word ++ after) = .ok (word ++ token, words) := by
  induction hword with
  | plain _ hplain => exact tokensFrom_plains hplain hafter
  | @string quote content hquote hcontent =>
      have hrest := tokensFrom_quoted hcontent hafter
      simp only [List.cons_append, List.append_assoc, List.nil_append]
      rw [tokensFrom, if_pos hquote, hrest]
      rfl
  | @assigned key word hkey _ ih =>
      rw [List.append_assoc, List.append_assoc]
      exact tokensFrom_plains hkey (tokensFrom_cons (by decide) (by decide) ih)

theorem IsWord.nonempty (hword : IsWord word) : word ≠ [] := by
  cases hword with
  | plain hnonempty _ => exact hnonempty
  | string _ _ => exact List.cons_ne_nil _ _
  | assigned _ _ => exact List.append_ne_nil_of_right_ne_nil _ (List.cons_ne_nil _ _)

theorem isQuote_of_isBlank {c : Char} (hc : Text.isBlank c = true) : Text.isQuote c = false := by
  apply isQuote_eq_false
  · rintro rfl
    exact absurd hc (by decide)
  · rintro rfl
    exact absurd hc (by decide)

theorem tokensFrom_blank {c : Char} (hc : Text.isBlank c = true)
    (hafter : tokensFrom none after = .ok (token, words)) :
    tokensFrom none (c :: after) = .ok ([], Text.consRun token words) := by
  rw [tokensFrom, if_neg (by simp [isQuote_of_isBlank hc]), if_pos hc, hafter]
  rfl

theorem tokensFrom_blanks {blanks : List Char} (hnonempty : blanks ≠ [])
    (hblanks : ∀ c ∈ blanks, Text.isBlank c = true)
    (hafter : tokensFrom none after = .ok (token, words)) :
    tokensFrom none (blanks ++ after) = .ok ([], Text.consRun token words) := by
  induction blanks with
  | nil => exact absurd rfl hnonempty
  | cons c others ih =>
      obtain ⟨hc, hothers⟩ := List.forall_mem_cons.mp hblanks
      cases others with
      | nil => exact tokensFrom_blank hc hafter
      | cons second more =>
          have hall := tokensFrom_blank hc (ih (List.cons_ne_nil _ _) hothers)
          exact hall

theorem AllSpace.blank {text : List Char} (htext : AllSpace text) :
    ∀ c ∈ text, Text.isBlank c = true :=
  fun c hc => Text.isBlank_of_isSpace c (htext c hc)

theorem tokensFrom_all_blanks {blanks : List Char}
    (hblanks : ∀ c ∈ blanks, Text.isBlank c = true) : tokensFrom none blanks = .ok ([], []) := by
  cases blanks with
  | nil => rfl
  | cons c others =>
      have hend : tokensFrom none [] = .ok ([], []) := rfl
      have hall := tokensFrom_blanks (List.cons_ne_nil c others) hblanks hend
      rwa [List.append_nil] at hall

theorem Spaced.tokensFrom_eq {text : List Char} (htext : Spaced words text)
    (hwords : ∀ word ∈ words, IsWord word) : tokensFrom none text = .ok ([], words) := by
  induction htext with
  | nil hblanks => exact tokensFrom_all_blanks hblanks.blank
  | @cons blanks word text words hnonempty hblanks hrest ih =>
      obtain ⟨hword, hothers⟩ := List.forall_mem_cons.mp hwords
      have hnext := hword.tokensFrom_eq (ih hothers)
      rw [List.append_nil] at hnext
      rw [tokensFrom_blanks hnonempty hblanks.blank hnext, Text.consRun, if_neg]
      simpa using hword.nonempty

theorem tokensFrom_quoted_blanks {quote : Char} {blanks : List Char}
    (hquote : Text.isQuote quote = true) (hblanks : ∀ c ∈ blanks, Text.isBlank c = true) :
    tokensFrom (some quote) blanks = .error .unterminatedString := by
  induction blanks with
  | nil => rfl
  | cons c others ih =>
      obtain ⟨hc, hothers⟩ := List.forall_mem_cons.mp hblanks
      have hne : c ≠ quote := by
        rintro rfl
        exact Bool.false_ne_true ((isQuote_of_isBlank hc).symm.trans hquote)
      rw [tokensFrom, if_neg hne, ih hothers]
      rfl

theorem tokensFrom_append_blanks {blanks : List Char} {quote? : Option Char} (text : List Char)
    (hquote : ∀ quote, quote? = some quote → Text.isQuote quote = true)
    (hblanks : ∀ c ∈ blanks, Text.isBlank c = true) :
    tokensFrom quote? (text ++ blanks) = tokensFrom quote? text := by
  induction text generalizing quote? with
  | nil =>
      cases quote? with
      | none => exact tokensFrom_all_blanks hblanks
      | some quote => exact tokensFrom_quoted_blanks (hquote quote rfl) hblanks
  | cons c rest ih =>
      have hnone := ih (fun quote (hfalse : none = some quote) => nomatch hfalse)
      cases quote? with
      | none =>
          rw [List.cons_append, tokensFrom, tokensFrom]
          split
          · next hc => rw [ih (fun quote hsame => Option.some.inj hsame ▸ hc)]
          · rw [hnone]
      | some quote =>
          rw [List.cons_append, tokensFrom, tokensFrom]
          split
          · rw [hnone]
          · rw [ih hquote]

theorem tokens_blank_cons {c : Char} (hc : Text.isBlank c = true) (text : List Char) :
    tokens (c :: text) = tokens text := by
  unfold tokens
  rw [tokensFrom, if_neg (by simp [isQuote_of_isBlank hc]), if_pos hc]
  cases tokensFrom none text <;> rfl

theorem tokens_blanks_append {blanks : List Char} (hblanks : ∀ c ∈ blanks, Text.isBlank c = true)
    (text : List Char) : tokens (blanks ++ text) = tokens text := by
  induction blanks with
  | nil => rfl
  | cons c others ih =>
      obtain ⟨hc, hothers⟩ := List.forall_mem_cons.mp hblanks
      rw [List.cons_append, tokens_blank_cons hc, ih hothers]

theorem tokens_append_blanks {blanks : List Char} (hblanks : ∀ c ∈ blanks, Text.isBlank c = true)
    (text : List Char) : tokens (text ++ blanks) = tokens text := by
  have hclosed : ∀ quote, (none : Option Char) = some quote → Text.isQuote quote = true := nofun
  unfold tokens
  rw [tokensFrom_append_blanks text hclosed hblanks]

theorem exists_trimBlank (text : List Char) : ∃ front back,
    text = front ++ Text.trimBlank text ++ back ∧ (∀ c ∈ front, Text.isBlank c = true) ∧
      ∀ c ∈ back, Text.isBlank c = true := by
  let reversed := (text.dropWhile Text.isBlank).reverse
  have hblanks : ∀ (text : List Char), ∀ c ∈ text.takeWhile Text.isBlank, Text.isBlank c = true :=
    fun _ => List.all_eq_true.mp List.all_takeWhile
  refine ⟨text.takeWhile Text.isBlank, (reversed.takeWhile Text.isBlank).reverse, ?_,
    hblanks text, fun c hc => hblanks reversed c (List.mem_reverse.mp hc)⟩
  rw [Text.trimBlank, List.append_assoc, ← List.reverse_append, List.takeWhile_append_dropWhile,
    List.reverse_reverse, List.takeWhile_append_dropWhile]

theorem tokens_trimBlank (text : List Char) : tokens (Text.trimBlank text) = tokens text := by
  obtain ⟨front, back, hsplit, hfront, hback⟩ := exists_trimBlank text
  calc tokens (Text.trimBlank text)
      = tokens (front ++ Text.trimBlank text ++ back) := by
        rw [tokens_append_blanks hback, tokens_blanks_append hfront]
    _ = tokens text := by rw [← hsplit]

end MustacheHtml.Expression
