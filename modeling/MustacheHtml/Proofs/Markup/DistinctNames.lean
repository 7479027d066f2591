import MustacheHtml.Markup.Building
import MustacheHtml.Proofs.Dict
import MustacheHtml.Proofs.Tree

namespace MustacheHtml.Markup

theorem sorted_scanTag? {text after : List Char} {tag : Tag}
    (hscan : scanTag? text = some (tag, after)) : tag.attributes.Sorted := by
  fun_induction scanTag? text generalizing tag after with
  | case1 => simp at hscan
  | case2 =>
      simp only [Option.some.injEq, Prod.mk.injEq] at hscan
      rw [← hscan.1]
      exact Dict.sorted_nil
  | case3 =>
      simp only [Option.some.injEq, Prod.mk.injEq] at hscan
      rw [← hscan.1]
      exact Dict.sorted_nil
  | case4 _ _ _ _ ih => exact ih hscan
  | case5 => simp at hscan
  | case6 _ _ _ _ _ _ _ _ _ _ _ ih =>
      obtain ⟨⟨others, last⟩, hothers, hsame⟩ := Option.map_eq_some_iff.mp hscan
      simp only [Prod.mk.injEq] at hsame
      rw [← hsame.1]
      exact (ih hothers).set _ _

/-- A start tag has its attributes sorted by name; nothing is said of other tokens. -/
def Token.Sorted : Token → Prop
  | .startTag _ attributes _ => attributes.Sorted
  | _ => True

theorem sorted_scanStartTag (text : List Char) :
    ∀ token ∈ (scanStartTag text).1, token.Sorted := by
  intro token htoken
  simp only [scanStartTag] at htoken
  split at htoken
  · rw [List.mem_singleton.mp htoken]
    trivial
  · next tag after hscan =>
      have hsorted := sorted_scanTag? hscan
      split at htoken
      · rw [List.mem_singleton.mp htoken]
        exact hsorted
      · rcases List.mem_cons.mp htoken with rfl | htoken
        · exact hsorted
        · rw [List.mem_singleton.mp htoken]
          trivial

theorem sorted_scanEndTag (text : List Char) : ∀ token ∈ (scanEndTag text).1, token.Sorted := by
  intro token htoken
  simp only [scanEndTag] at htoken
  split at htoken <;>
    · rw [List.mem_singleton.mp htoken]
      trivial

theorem sorted_scanText (first : Char) (rest : List Char) :
    ∀ token ∈ (scanText first rest).1, token.Sorted := by
  intro token htoken
  simp only [scanText] at htoken
  rw [List.mem_singleton.mp htoken]
  trivial

theorem sorted_scanLess (text : List Char) : ∀ token ∈ (scanLess text).1, token.Sorted := by
  intro token htoken
  unfold scanLess at htoken
  split at htoken
  case h_2 =>
    rw [List.mem_singleton.mp htoken]
    trivial
  case h_3 rest _ =>
    rw [List.mem_singleton.mp htoken]
    split <;> trivial
  case h_7 c rest _ =>
    split at htoken
    · exact sorted_scanEndTag _ token htoken
    · rw [List.mem_singleton.mp htoken]
      trivial
  case h_8 c rest _ _ _ _ _ _ =>
    split at htoken
    · exact sorted_scanStartTag _ token htoken
    · exact sorted_scanText _ _ token htoken
  all_goals
    rw [List.mem_singleton.mp htoken]
    trivial

theorem sorted_tokensFrom (text : List Char) : ∀ token ∈ tokensFrom text, token.Sorted := by
  fun_induction tokensFrom text with
  | case1 => simp
  | case2 c rest scanned ih =>
      intro token htoken
      rcases List.mem_append.mp htoken with hfirst | hrest
      · by_cases hless : c = '<'
        · exact sorted_scanLess rest token (by simpa [scanned, hless] using hfirst)
        · exact sorted_scanText c rest token (by simpa [scanned, hless] using hfirst)
      · exact ih token hrest

/-- The siblings read so far and the open elements have attributes with different names. -/
structure Builder.Distinct (builder : Builder) : Prop where
  siblings : Tree.AllDistinct builder.siblings
  openElements : ∀ frame ∈ builder.openElements,
    frame.attributes.Distinct ∧ Tree.AllDistinct frame.before

theorem allDistinct_reverse {forest : Forest} (hdistinct : Tree.AllDistinct forest) :
    Tree.AllDistinct forest.reverse := by
  rw [Tree.allDistinct_iff] at hdistinct ⊢
  intro tree htree
  exact hdistinct tree (List.mem_reverse.mp htree)

theorem Frame.close_distinct {frame : Frame} {children : Forest}
    (hframe : frame.attributes.Distinct ∧ Tree.AllDistinct frame.before)
    (hchildren : Tree.AllDistinct children) : Tree.AllDistinct (frame.close children) :=
  ⟨⟨hframe.1, allDistinct_reverse hchildren⟩, hframe.2⟩

theorem closeImplied_distinct {incoming : String} {siblings : Forest} {frames : List Frame}
    (hbuilder : Builder.Distinct ⟨siblings, frames⟩) :
    (closeImplied incoming siblings frames).Distinct := by
  induction frames generalizing siblings with
  | nil => exact hbuilder
  | cons frame outer ih =>
      obtain ⟨hframe, houter⟩ := List.forall_mem_cons.mp hbuilder.openElements
      unfold closeImplied
      split
      · exact ih ⟨frame.close_distinct hframe hbuilder.siblings, houter⟩
      · exact hbuilder

theorem closeThrough_distinct {name : String} {siblings : Forest} {frames : List Frame}
    (hbuilder : Builder.Distinct ⟨siblings, frames⟩) :
    (closeThrough name siblings frames).Distinct := by
  induction frames generalizing siblings with
  | nil => exact hbuilder
  | cons frame outer ih =>
      obtain ⟨hframe, houter⟩ := List.forall_mem_cons.mp hbuilder.openElements
      have hclosed := frame.close_distinct hframe hbuilder.siblings
      unfold closeThrough
      split
      · exact ⟨hclosed, houter⟩
      · exact ih ⟨hclosed, houter⟩

theorem closeAll_distinct {siblings : Forest} {frames : List Frame}
    (hbuilder : Builder.Distinct ⟨siblings, frames⟩) :
    Tree.AllDistinct (closeAll siblings frames) := by
  induction frames generalizing siblings with
  | nil => exact allDistinct_reverse hbuilder.siblings
  | cons frame outer ih =>
      obtain ⟨hframe, houter⟩ := List.forall_mem_cons.mp hbuilder.openElements
      exact ih ⟨frame.close_distinct hframe hbuilder.siblings, houter⟩

theorem addText_distinct {content : String} {siblings : Forest}
    (hdistinct : Tree.AllDistinct siblings) : Tree.AllDistinct (addText content siblings) := by
  unfold addText
  split
  · exact hdistinct
  · split
    · exact hdistinct
    · exact ⟨trivial, hdistinct⟩

theorem Builder.Distinct.add {builder : Builder} {token : Token} (hbuilder : builder.Distinct)
    (htoken : token.Sorted) : (builder.add token).Distinct := by
  cases token with
  | startTag written attributes selfClosing =>
      have hopened : (closeImplied (TagName.fold written) builder.siblings
          builder.openElements).Distinct := closeImplied_distinct hbuilder
      have hnames : Attributes.Distinct attributes := Dict.Sorted.nodup htoken
      simp only [Builder.add]
      split
      · exact ⟨⟨⟨hnames, trivial⟩, hopened.siblings⟩, hopened.openElements⟩
      · exact ⟨trivial, List.forall_mem_cons.mpr ⟨⟨hnames, hopened.siblings⟩,
          hopened.openElements⟩⟩
  | endTag written =>
      simp only [Builder.add]
      split
      · exact closeThrough_distinct hbuilder
      · exact hbuilder
  | text content => exact ⟨addText_distinct hbuilder.siblings, hbuilder.openElements⟩
  | comment content => exact hbuilder
  | doctype content => exact hbuilder
  | error content => exact hbuilder

theorem distinct_foldl_add {builder : Builder} {tokens : List Token} (hbuilder : builder.Distinct)
    (htokens : ∀ token ∈ tokens, token.Sorted) : (tokens.foldl Builder.add builder).Distinct := by
  induction tokens generalizing builder with
  | nil => exact hbuilder
  | cons token rest ih =>
      obtain ⟨htoken, hrest⟩ := List.forall_mem_cons.mp htokens
      exact ih (hbuilder.add htoken) hrest

theorem allDistinct_parse (markup : String) : Tree.AllDistinct (parse markup) := by
  have hstart : Builder.Distinct {} := ⟨trivial, by simp⟩
  exact closeAll_distinct (distinct_foldl_add hstart (sorted_tokensFrom _))

end MustacheHtml.Markup
