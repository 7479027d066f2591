import Mathlib.Data.List.Induction
import MustacheHtml.Text.Location

namespace MustacheHtml.Text.Location

/-- The place right behind a text: its line breaks and the characters since the last one are
counted, both from one. -/
structure Behind (text : List Char) (location : Location) : Prop where
  line_eq : location.line = text.count '\n' + 1
  column_eq : location.column = (text.reverse.takeWhile (· ≠ '\n')).length + 1

variable {location : Location} {text front back source : List Char}

theorem behind_after (text : List Char) : Behind text (after text) := by
  induction text using List.reverseRecOn with
  | nil => exact ⟨rfl, rfl⟩
  | append_singleton front c ih =>
      obtain ⟨hline, hcolumn⟩ := ih
      rw [after, List.foldl_append, ← after, List.foldl_cons, List.foldl_nil, advance]
      by_cases hbreak : c = '\n'
      · subst hbreak
        rw [if_pos rfl]
        constructor
        · rw [hline, List.count_append, List.count_singleton_self]
        · simp
      · rw [if_neg hbreak]
        constructor
        · rw [hline, List.count_append, List.count_singleton, if_neg (by simpa using hbreak),
            Nat.add_zero]
        · simp [hcolumn, hbreak]

theorem Behind.append_eq_nil {more : List Char} (hfront : Behind front location)
    (hmore : Behind (front ++ more) location) : more = [] := by
  have hlines := hfront.line_eq.symm.trans hmore.line_eq
  rw [List.count_append] at hlines
  have hbreaks : ∀ c ∈ more.reverse, decide (c ≠ '\n') = true := by
    intro c hc
    have hnone : more.count '\n' = 0 := by omega
    have habsent := List.count_eq_zero.mp hnone
    rw [decide_eq_true_eq]
    rintro rfl
    exact habsent (List.mem_reverse.mp hc)
  have hcolumns := hfront.column_eq.symm.trans hmore.column_eq
  rw [List.reverse_append, List.takeWhile_append_of_pos hbreaks, List.length_append,
    List.length_reverse] at hcolumns
  exact List.length_eq_zero_iff.mp (by omega)

theorem Behind.eq_of_prefix (hfront : Behind front location) (hback : Behind back location)
    (hwithin : front <+: source) (halso : back <+: source) : front = back := by
  rcases List.prefix_or_prefix_of_prefix hwithin halso with ⟨more, rfl⟩ | ⟨more, rfl⟩
  · rw [hfront.append_eq_nil hback, List.append_nil]
  · rw [hback.append_eq_nil hfront, List.append_nil]

theorem behind_ofOffset (front back : List Char) :
    Behind front (ofOffset (front ++ back) (byteLength front)) := by
  rw [ofOffset, takeBytes?_byteLength, Option.getD_some]
  exact behind_after front

end MustacheHtml.Text.Location
