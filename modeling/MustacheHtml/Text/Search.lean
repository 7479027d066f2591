import MustacheHtml.Text.CharClass

namespace MustacheHtml.Text

/-- The text cut where the test first fails. -/
def cutWhile (test : Char → Bool) (text : List Char) : List Char × List Char :=
  (text.takeWhile test, text.dropWhile test)

/-- What stands before and after the first occurrence of the mark. -/
def cut? (mark : List Char) : List Char → Option (List Char × List Char)
  | [] => if mark = [] then some ([], []) else none
  | c :: rest =>
      if mark.isPrefixOf (c :: rest) then some ([], (c :: rest).drop mark.length)
      else (cut? mark rest).map fun (before, after) => (c :: before, after)

/-- Puts a run before further ones unless it is empty. -/
def consRun (run : List Char) (runs : List (List Char)) : List (List Char) :=
  if run.isEmpty then runs else run :: runs

/-- The run that the text goes on with, and the runs after it. -/
def splitRuns (isSeparator : Char → Bool) : List Char → List Char × List (List Char)
  | [] => ([], [])
  | c :: rest =>
      let (run, runs) := splitRuns isSeparator rest
      if isSeparator c then ([], consRun run runs) else (c :: run, runs)

/-- The maximal non-empty runs of characters that are no separators. -/
def runs (isSeparator : Char → Bool) (text : List Char) : List (List Char) :=
  let (run, others) := splitRuns isSeparator text
  consRun run others

/-- The text without blanks at either end. -/
def trimBlank (text : List Char) : List Char :=
  ((text.dropWhile isBlank).reverse.dropWhile isBlank).reverse

theorem cutWhile_append (test : Char → Bool) (text : List Char) :
    (cutWhile test text).1 ++ (cutWhile test text).2 = text :=
  List.takeWhile_append_dropWhile

theorem length_cutWhile_le (test : Char → Bool) (text : List Char) :
    (cutWhile test text).2.length ≤ text.length :=
  (List.dropWhile_suffix test).length_le

theorem cut?_eq_append {mark text before after : List Char}
    (h : cut? mark text = some (before, after)) : text = before ++ mark ++ after := by
  induction text generalizing before after with
  | nil =>
      simp only [cut?] at h
      split at h
      · next empty =>
          simp only [Option.some.injEq, Prod.mk.injEq] at h
          obtain ⟨rfl, rfl⟩ := h
          simp [empty]
      · simp at h
  | cons c rest ih =>
      simp only [cut?] at h
      split at h
      · next found =>
          simp only [Option.some.injEq, Prod.mk.injEq] at h
          obtain ⟨rfl, rfl⟩ := h
          obtain ⟨tail, joined⟩ := List.isPrefixOf_iff_prefix.mp found
          rw [← joined]
          simp
      · obtain ⟨⟨before', after'⟩, found, same⟩ := Option.map_eq_some_iff.mp h
        simp only [Prod.mk.injEq] at same
        obtain ⟨rfl, rfl⟩ := same
        rw [ih found]
        simp

end MustacheHtml.Text
