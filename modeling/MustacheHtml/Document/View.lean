import MustacheHtml.Document.Heap

namespace MustacheHtml.Document.Heap

/-- The trees of nodes side by side, down to the given depth. A fragment counts as its children.
-/
def forest (heap : Heap) : Nat → List NodeId → Forest
  | 0, _ => []
  | depth + 1, ids =>
      ids.flatMap fun id =>
        match heap.kind id with
        | .text content => [.text content]
        | .element tag attributes =>
            [.element tag attributes (heap.forest depth (heap.children id))]
        | .fragment => heap.forest depth (heap.children id)

/-- What a node shows, the node itself included. -/
def outerForest (heap : Heap) (id : NodeId) : Forest :=
  heap.forest heap.size [id]

/-- What a node shows, without the node itself. -/
def innerForest (heap : Heap) (id : NodeId) : Forest :=
  heap.forest heap.size (heap.children id)

/-- The HTML of a node. -/
def outerHtml (heap : Heap) (id : NodeId) : String :=
  String.ofList (Tree.forestHtml false (heap.outerForest id))

/-- The HTML of what is in a node. It is written raw where the element holds raw text. -/
def innerHtml (heap : Heap) (id : NodeId) : String :=
  String.ofList (Tree.forestHtml ((heap.tag? id).any TagName.isRawText) (heap.innerForest id))

/-- The text of a text node, or that of all that is below another node. -/
def textContent (heap : Heap) (id : NodeId) : String :=
  match heap.kind id with
  | .text content => content
  | _ => Tree.forestText (heap.innerForest id)

end MustacheHtml.Document.Heap
