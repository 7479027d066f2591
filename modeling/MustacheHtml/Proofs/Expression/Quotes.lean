import Mathlib.Data.List.Induction
import MustacheHtml.Proofs.Expression.Words

namespace MustacheHtml.Expression

/-- The quote that is open after one more character. -/
def nextQuote : Option Char → Char → Option Char
  | some quote, c => if c = quote then none else some quote
  | none, c => if Text.isQuote c then some c else none

/-- The quote that is open after the text. -/
def openQuote (text : List Char) : Option Char :=
  text.foldl nextQuote none

@[simp] theorem openQuote_append_singleton (front : List Char) (c : Char) :
    openQuote (front ++ [c]) = nextQuote (openQuote front) c := by
  simp [openQuote]

theorem tokensFrom_step (quote? : Option Char) (c : Char) : ∃ glue, ∀ rest,
    tokensFrom quote? (c :: rest) = (tokensFrom (nextQuote quote? c) rest).map glue := by
  let keep : List Char × List (List Char) → List Char × List (List Char) :=
    fun split => (c :: split.1, split.2)
  cases quote? with
  | some quote =>
      refine ⟨keep, fun rest => ?_⟩
      rw [tokensFrom, nextQuote]
      cases tokensFrom (if c = quote then none else some quote) rest <;> rfl
  | none =>
      cases hquote : Text.isQuote c with
      | true =>
          refine ⟨keep, fun rest => ?_⟩
          rw [tokensFrom, if_pos hquote, nextQuote, if_pos hquote]
          cases tokensFrom (some c) rest <;> rfl
      | false =>
          have hnext : nextQuote none c = none := by rw [nextQuote, if_neg (by simp [hquote])]
          cases hblank : Text.isBlank c with
          | true =>
              refine ⟨fun split => ([], Text.consRun split.1 split.2), fun rest => ?_⟩
              rw [tokensFrom, if_neg (by simp [hquote]), if_pos hblank, hnext]
              cases tokensFrom none rest <;> rfl
          | false =>
              refine ⟨keep, fun rest => ?_⟩
              rw [tokensFrom, if_neg (by simp [hquote]), if_neg (by simp [hblank]), hnext]
              cases tokensFrom none rest <;> rfl

theorem tokensFrom_append (quote? : Option Char) (front : List Char) : ∃ glue, ∀ back,
    tokensFrom quote? (front ++ back) =
      (tokensFrom (front.foldl nextQuote quote?) back).map glue := by
  induction front generalizing quote? with
  | nil =>
      refine ⟨id, fun back => ?_⟩
      rw [List.nil_append, List.foldl_nil]
      cases tokensFrom quote? back <;> rfl
  | cons c front ih =>
      obtain ⟨first, hfirst⟩ := tokensFrom_step quote? c
      obtain ⟨rest, hrest⟩ := ih (nextQuote quote? c)
      refine ⟨first ∘ rest, fun back => ?_⟩
      rw [List.cons_append, hfirst, hrest, List.foldl_cons]
      cases tokensFrom (front.foldl nextQuote (nextQuote quote? c)) back <;> rfl

theorem tokens_ok_iff {text : List Char} :
    (∃ words, tokens text = .ok words) ↔ openQuote text = none := by
  obtain ⟨glue, hglue⟩ := tokensFrom_append none text
  have hsplit := hglue []
  rw [List.append_nil, ← openQuote] at hsplit
  unfold tokens
  rw [hsplit]
  cases openQuote text with
  | none => exact ⟨fun _ => rfl, fun _ => ⟨_, rfl⟩⟩
  | some quote =>
      constructor
      · rintro ⟨words, hwords⟩
        cases hwords
      · exact nofun

theorem isQuote_of_openQuote {text : List Char} {quote : Char}
    (hopen : openQuote text = some quote) : Text.isQuote quote = true := by
  induction text using List.reverseRecOn with
  | nil => cases hopen
  | append_singleton front c ih =>
      rw [openQuote_append_singleton] at hopen
      cases hfront : openQuote front with
      | none =>
          rw [hfront, nextQuote] at hopen
          split at hopen
          · next hquote =>
              cases hopen
              exact hquote
          · cases hopen
      | some held =>
          rw [hfront, nextQuote] at hopen
          split at hopen
          · cases hopen
          · exact ih (hfront.trans hopen)

theorem openQuote_blanks_append {blanks : List Char}
    (hblanks : ∀ c ∈ blanks, Text.isBlank c = true) (text : List Char) :
    openQuote (blanks ++ text) = openQuote text := by
  induction blanks with
  | nil => rfl
  | cons c others ih =>
      obtain ⟨hc, hothers⟩ := List.forall_mem_cons.mp hblanks
      have hnext : nextQuote none c = none := by
        rw [nextQuote, if_neg (by simp [isQuote_of_isBlank hc])]
      calc openQuote (c :: others ++ text)
          = (others ++ text).foldl nextQuote (nextQuote none c) := rfl
        _ = openQuote (others ++ text) := by rw [hnext, openQuote]
        _ = openQuote text := ih hothers

end MustacheHtml.Expression
