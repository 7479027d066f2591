import MustacheHtml.Proofs.Document.Names
import MustacheHtml.Proofs.Render.Refinement
import MustacheHtml.Proofs.Template.RoundTrip

namespace MustacheHtml.Render

open MustacheHtml.Document
open MustacheHtml.Template
open MustacheHtml.Tree (forestHtml merge)

variable {answers : Answers} {data : Value}

theorem partsString_ofPair (place : Place) (attr : String × String) :
    answers.partsString data place (Attribute.ofPair attr).value = .ok attr.2 := by
  unfold Attribute.ofPair
  split
  · next hvalue =>
      rw [hvalue]
      rfl
  · simp [Answers.partsString, Answers.partString, bind, Except.bind]

theorem setAttributes_ofPair (held attributes : Attributes) :
    answers.setAttributes data held (attributes.map Attribute.ofPair) =
      .ok (held.setAll attributes) := by
  induction attributes generalizing held with
  | nil => rfl
  | cons attr rest ih =>
      rw [List.map_cons, Answers.setAttributes, partsString_ofPair]
      exact ih (held.set attr.1 attr.2)

theorem forest_nodesOfForest {refusal? : String → Option String} {forest : Forest}
    (hdistinct : Tree.AllDistinct forest) :
    answers.forest data refusal? (nodesOfForest forest) = .ok forest := by
  induction forest using Tree.forest_induction with
  | nil => rfl
  | text content rest ih =>
      simp only [nodesOfForest, Node.ofTree, Answers.forest, Answers.nodeForest, ih hdistinct.2,
        bind, Except.bind, List.singleton_append]
  | element tag attributes children rest ihChildren ih =>
      obtain ⟨⟨hattributes, hchildren⟩, hrest⟩ := hdistinct
      have hset : Attributes.setAll [] attributes = attributes :=
        Attributes.setAll_of_distinct hattributes
      simp only [nodesOfForest, Node.ofTree, Answers.forest, Answers.nodeForest,
        setAttributes_ofPair, hset, ihChildren hchildren, ih hrest, bind, Except.bind,
        List.singleton_append]

theorem gives_nothing {σ : Type} : (({} : Registry σ)).Gives {} where
  helper := fun _ => .inl ⟨rfl, rfl⟩
  hook := fun kind => .inl (by cases kind <;> exact ⟨rfl, rfl⟩)

/-- Without helpers and hooks, the output is the HTML of the forest that the nodes stand for. -/
theorem renderPlain_of_forest {nodes : List Node} {forest : Forest}
    (hforest : ({} : Answers).forest data (fun _ => none) nodes = .ok forest) :
    renderPlain nodes data = .ok (String.ofList (forestHtml false forest)) := by
  have hhost : (Host.silent Unit).Refuses fun _ => none := fun _ _ => rfl
  have hdraws := drawsFragment_render hhost gives_nothing nodes (plainWorld data)
  have hforest : ({} : Answers).forest (plainWorld data).context (fun _ => none) nodes =
    .ok forest := hforest
  rw [hforest] at hdraws
  obtain ⟨after, placed, hrun, -, -, -, hhtml⟩ := hdraws
  have hrun : (render (Host.silent Unit) {} nodes).run.run (plainWorld data) = _ := hrun
  rw [renderPlain, hrun, ← hhtml]
  rfl

theorem renderPlain_nodesOfForest {forest : Forest} (hdistinct : Tree.AllDistinct forest)
    (data : Value) :
    renderPlain (nodesOfForest forest) data = .ok (String.ofList (forestHtml false forest)) :=
  renderPlain_of_forest (forest_nodesOfForest hdistinct)

/-- The content of a node of a document is a template that renders to this content again. -/
theorem parse_innerHtml {heap : Heap} (hnames : heap.NamesDistinct) {id : NodeId}
    (hescaped : (heap.tag? id).any TagName.isRawText = false)
    (hspellable : Spellable (merge (heap.innerForest id))) : ∃ nodes,
    parse (heap.innerHtml id) = .ok nodes ∧
      ∀ data, renderPlain nodes data = .ok (heap.innerHtml id) := by
  refine ⟨nodesOfForest (merge (heap.innerForest id)), ?_, ?_⟩
  · rw [Heap.innerHtml, hescaped]
    exact parse_forestHtml hspellable
  · intro data
    have hdistinct : Tree.AllDistinct (heap.innerForest id) := hnames.allDistinct_forest _ _
    rw [renderPlain_nodesOfForest hdistinct.merge, Tree.forestHtml_merge, Heap.innerHtml, hescaped]

/-- The template parser undoes the serializer, and rendering does the serializer's work again. -/
theorem parse_serialization {forest : Forest} (hspellable : Spellable (merge forest)) :
    parse (String.ofList (forestHtml false forest)) = .ok (nodesOfForest (merge forest)) ∧
      mustaches (nodesOfForest (merge forest)) = [] ∧
        (Tree.AllDistinct forest → ∀ data, renderPlain (nodesOfForest (merge forest)) data =
          .ok (String.ofList (forestHtml false forest))) := by
  refine ⟨parse_forestHtml hspellable, mustaches_nodesOfForest _, ?_⟩
  intro hdistinct data
  rw [renderPlain_nodesOfForest hdistinct.merge, Tree.forestHtml_merge]

def noteForest : Forest :=
  [.element "p" [("title", "\"a\" & b"), ("hidden", "")]
    [.text "1 <", .text "", .text " 2", .element "br" [] [], .text "\x7b"]]

theorem noteForest_spellable : Spellable (merge noteForest) := by
  have hmerge : merge noteForest = [.element "p" [("title", "\"a\" & b"), ("hidden", "")]
      [.text "1 < 2", .element "br" [] [], .text "\x7b"]] := rfl
  have htitle : IsAttributeName "title".toList := ⟨by decide, by simp [Text.isSpace], by decide⟩
  have hhidden : IsAttributeName "hidden".toList := ⟨by decide, by simp [Text.isSpace], by decide⟩
  have hattributes : ∀ attr ∈ [("title", "\"a\" & b"), ("hidden", "")],
      IsAttributeName attr.1.toList ∧ ¬ Escape.HasBraces attr.2.toList :=
    List.forall_mem_cons.mpr ⟨⟨htitle, by decide⟩,
      List.forall_mem_cons.mpr ⟨⟨hhidden, by decide⟩, List.forall_mem_nil _⟩⟩
  have hbr : IsTagName "br".toList := ⟨⟨'b', ['r'], rfl, by decide⟩, by simp⟩
  have hp : IsTagName "p".toList := ⟨⟨'p', [], rfl, by decide⟩, by simp⟩
  rw [hmerge]
  refine .element hp (by decide) (by decide) hattributes ?_ .nil
  refine .text (by decide) (.element hbr (by decide) (fun _ => rfl) ?_ .nil ?_)
  · exact List.forall_mem_nil _
  · exact .text (by decide) .nil

theorem parse_serialization_note : Spellable (merge noteForest) ∧ Tree.AllDistinct noteForest ∧
    String.ofList (forestHtml false noteForest) =
      "<p title=\"&quot;a&quot; &amp; b\" hidden=\"\">1 &lt; 2<br>\x7b</p>" ∧
    parse (String.ofList (forestHtml false noteForest)) =
      .ok (nodesOfForest (merge noteForest)) ∧
    renderPlain (nodesOfForest (merge noteForest)) .null =
      .ok (String.ofList (forestHtml false noteForest)) := by
  have hdistinct : Tree.AllDistinct noteForest := by
    simp [noteForest, Tree.AllDistinct, Tree.Distinct, Attributes.Distinct]
  obtain ⟨hparse, -, hrender⟩ := parse_serialization noteForest_spellable
  exact ⟨noteForest_spellable, hdistinct, rfl, hparse, hrender hdistinct .null⟩

end MustacheHtml.Render
