import MustacheHtml.Proofs.Tree

namespace MustacheHtml.Tree

/-- Puts a tree before others. Neighbouring texts become one, and an empty text is left out. -/
def joinFront : Tree → Forest → Forest
  | text content, text next :: others => text (content ++ next) :: others
  | text content, others => if content = "" then others else text content :: others
  | tree, others => tree :: others

mutual

def merged : Tree → Tree
  | text content => text content
  | element tag attributes children => element tag attributes (merge children)

/-- The forest with neighbouring texts made one, and empty ones left out. -/
def merge : List Tree → List Tree
  | [] => []
  | tree :: rest => joinFront (merged tree) (merge rest)

end

/-- There is a text at the front. -/
def StartsWithText : Forest → Prop
  | text _ :: _ => True
  | _ => False

/-- No text is empty, and no two texts are neighbours. -/
inductive Merged : Forest → Prop where
  | nil : Merged []
  | text {content : String} {rest : Forest} (hcontent : content ≠ "")
      (hapart : ¬ StartsWithText rest) (hrest : Merged rest) : Merged (.text content :: rest)
  | element (tag : String) (attributes : Attributes) {children rest : Forest}
      (hchildren : Merged children) (hrest : Merged rest) :
      Merged (.element tag attributes children :: rest)

theorem joinFront_text_of_apart (content : String) {forest : Forest}
    (hapart : ¬ StartsWithText forest) : joinFront (.text content) forest =
      if content = "" then forest else .text content :: forest := by
  cases forest with
  | nil => rfl
  | cons tree rest =>
      cases tree with
      | text next => exact absurd trivial hapart
      | element tag attributes children => rfl

theorem Merged.joinFront_text {forest : Forest} (hmerged : Merged forest) (content : String) :
    Merged (joinFront (.text content) forest) := by
  by_cases hstarts : StartsWithText forest
  · cases hmerged with
    | nil => exact hstarts.elim
    | text hnext hapart hrest =>
        refine .text ?_ hapart hrest
        simp [String.append_eq_empty_iff, hnext]
    | element tag attributes hchildren hrest => exact hstarts.elim
  · rw [joinFront_text_of_apart content hstarts]
    split
    · exact hmerged
    · next hcontent => exact .text hcontent hstarts hmerged

theorem merged_merge (forest : Forest) : Merged (merge forest) := by
  induction forest using forest_induction with
  | nil => exact .nil
  | text content rest ih => exact ih.joinFront_text content
  | element tag attributes children rest ihChildren ih =>
      exact .element tag attributes ihChildren ih

theorem forestHtml_joinFront (raw : Bool) (tree : Tree) (others : Forest) :
    forestHtml raw (joinFront tree others) = html raw tree ++ forestHtml raw others := by
  unfold joinFront
  split
  · next content next others =>
      cases raw <;> simp [forestHtml, html, Escape.textContent]
  · next content others _ =>
      split
      · next hcontent => cases raw <;> simp [hcontent, html, Escape.textContent]
      · rfl
  · rfl

/-- Merging leaves the HTML as it is. -/
theorem forestHtml_merge (forest : Forest) : ∀ raw, forestHtml raw (merge forest) =
    forestHtml raw forest := by
  induction forest using forest_induction with
  | nil => exact fun _ => rfl
  | text content rest ih =>
      intro raw
      rw [merge, forestHtml_joinFront, ih, forestHtml, merged]
  | element tag attributes children rest ihChildren ih =>
      intro raw
      rw [merge, forestHtml_joinFront, ih, forestHtml, merged, html, html, ihChildren]

theorem AllDistinct.joinFront_text {forest : Forest} (hdistinct : AllDistinct forest)
    (content : String) : AllDistinct (joinFront (.text content) forest) := by
  unfold joinFront
  split
  · exact hdistinct
  · split
    · exact hdistinct
    · exact ⟨trivial, hdistinct⟩
  · exact ⟨trivial, hdistinct⟩

theorem AllDistinct.merge {forest : Forest} (hdistinct : AllDistinct forest) :
    AllDistinct (merge forest) := by
  induction forest using forest_induction with
  | nil => trivial
  | text content rest ih => exact (ih hdistinct.2).joinFront_text content
  | element tag attributes children rest ihChildren ih =>
      exact ⟨⟨hdistinct.1.1, ihChildren hdistinct.1.2⟩, ih hdistinct.2⟩

end MustacheHtml.Tree
