import MustacheHtml.Document.Heap
import MustacheHtml.Markup.Building

namespace MustacheHtml.Document.Heap

mutual

/-- Makes the nodes of a tree and appends them to a node. -/
def plant (heap : Heap) (parent : NodeId) : Tree → Heap
  | .text content =>
      let (id, made) := heap.create (.text content)
      made.append parent id
  | .element tag attributes children =>
      let (id, made) := heap.create (.element tag [])
      let named := attributes.foldl (fun heap attr => heap.setAttribute id attr.1 attr.2) made
      (plantAll named id children).append parent id

/-- Puts trees below a node, one after the other. -/
def plantAll (heap : Heap) (parent : NodeId) : List Tree → Heap
  | [] => heap
  | tree :: rest => plantAll (plant heap parent tree) parent rest

end

/-- A new fragment that holds the trees of markup. -/
def parseFragment (heap : Heap) (markup : String) : NodeId × Heap :=
  let (id, made) := heap.create .fragment
  (id, made.plantAll id (Markup.parse markup))

/-- Copies a node and what is below it, down to the given depth. -/
def copy : Nat → Heap → NodeId → NodeId × Heap
  | 0, heap, id => heap.create (heap.kind id)
  | depth + 1, heap, id =>
      let (root, made) := heap.create (heap.kind id)
      (root, (heap.children id).foldl (fun heap child =>
        let (branch, grown) := copy depth heap child
        grown.append root branch) made)

/-- Copies a node and all that is below it. -/
def deepClone (heap : Heap) (id : NodeId) : NodeId × Heap :=
  copy heap.size heap id

end MustacheHtml.Document.Heap
