import MustacheHtml.Tree

/-!
The nodes of a document, kept under ids. A node knows its parent and its children; inserting a
node takes it out of where it was, and inserting a fragment moves the children of the fragment
instead.
-/

namespace MustacheHtml.Document

/-- A node is known by the number of its cell. -/
abbrev NodeId := Nat

/-- What a node is, apart from where it stands. -/
inductive Kind where
  | fragment
  | element (tag : String) (attributes : Attributes)
  | text (content : String)
deriving DecidableEq, Inhabited, Repr

/-- A node with its place in the tree: the links go both ways. -/
structure Cell where
  kind : Kind
  parent : Option NodeId
  children : List NodeId
deriving DecidableEq, Inhabited, Repr

namespace Cell

/-- A node that stands alone. -/
def fresh (kind : Kind) : Cell :=
  ⟨kind, none, []⟩

end Cell

/-- All nodes ever made. None is ever given up, and an id is the number of nodes made before. -/
structure Heap where
  cells : Array Cell
deriving Repr

/-- Puts a block before the first occurrence of the mark, or at the end if the mark is not there.
-/
def insertBlock (block : List NodeId) (before : Option NodeId) (list : List NodeId) : List NodeId :=
  match before with
  | none => list ++ block
  | some mark => list.takeWhile (· != mark) ++ block ++ list.dropWhile (· != mark)

/-- What comes right after the first occurrence of an id. -/
def nextAfter? (id : NodeId) (list : List NodeId) : Option NodeId :=
  (list.dropWhile (· != id))[1]?

namespace Heap

def empty : Heap :=
  ⟨#[]⟩

def size (heap : Heap) : Nat :=
  heap.cells.size

/-- The cell of a node. A node that does not exist counts as a fragment that stands alone. -/
def cell (heap : Heap) (id : NodeId) : Cell :=
  heap.cells.getD id (Cell.fresh .fragment)

def kind (heap : Heap) (id : NodeId) : Kind :=
  (heap.cell id).kind

def parent? (heap : Heap) (id : NodeId) : Option NodeId :=
  (heap.cell id).parent

def children (heap : Heap) (id : NodeId) : List NodeId :=
  (heap.cell id).children

/-- The first child of a node, if it has children. -/
def firstChild? (heap : Heap) (id : NodeId) : Option NodeId :=
  (heap.children id).head?

/-- The last child of a node, if it has children. -/
def lastChild? (heap : Heap) (id : NodeId) : Option NodeId :=
  (heap.children id).getLast?

/-- The node behind a node among the children of its parent. -/
def nextSibling? (heap : Heap) (id : NodeId) : Option NodeId :=
  (heap.parent? id).bind fun parent => nextAfter? id (heap.children parent)

/-- The tag of a node, if it is an element. -/
def tag? (heap : Heap) (id : NodeId) : Option String :=
  match heap.kind id with
  | .element tag _ => some tag
  | _ => none

/-- The value of an attribute, if the node is an element that has it. -/
def attribute? (heap : Heap) (id : NodeId) (name : String) : Option String :=
  match heap.kind id with
  | .element _ attributes => attributes.get? name
  | _ => none

def isFragment (heap : Heap) (id : NodeId) : Bool :=
  heap.kind id = .fragment

/-- Changes the cell of one node, if it exists. -/
def modify (heap : Heap) (id : NodeId) (change : Cell → Cell) : Heap :=
  ⟨heap.cells.modify id change⟩

/-- A new node that stands alone. -/
def create (heap : Heap) (kind : Kind) : NodeId × Heap :=
  (heap.size, ⟨heap.cells.push (Cell.fresh kind)⟩)

def setChildren (heap : Heap) (id : NodeId) (children : List NodeId) : Heap :=
  heap.modify id fun cell => { cell with children := children }

def setParent (heap : Heap) (id : NodeId) (parent : Option NodeId) : Heap :=
  heap.modify id fun cell => { cell with parent := parent }

/-- Sets an attribute of an element; other nodes have none. -/
def setAttribute (heap : Heap) (id : NodeId) (name value : String) : Heap :=
  match heap.kind id with
  | .element tag attributes =>
      heap.modify id fun cell => { cell with kind := .element tag (attributes.set name value) }
  | _ => heap

/-- Replaces the content of a text node; other nodes have none. -/
def setText (heap : Heap) (id : NodeId) (content : String) : Heap :=
  match heap.kind id with
  | .text _ => heap.modify id fun cell => { cell with kind := .text content }
  | _ => heap

/-- Takes a node from the children of its parent. -/
def detach (heap : Heap) (id : NodeId) : Heap :=
  match heap.parent? id with
  | none => heap
  | some parent =>
      (heap.setChildren parent ((heap.children parent).filter (· != id))).setParent id none

/-- Takes out what is to be inserted for a node: the children of a fragment, any other node
itself. -/
def takeOut (heap : Heap) (id : NodeId) : List NodeId × Heap :=
  if heap.isFragment id then (heap.children id, heap.setChildren id [])
  else ([id], heap.detach id)

/-- Inserts a node before a child of the parent, or at the end. -/
def insert (heap : Heap) (parent child : NodeId) (before : Option NodeId) : Heap :=
  if parent = child then heap
  else
    let (moved, taken) := heap.takeOut child
    let adopted := moved.foldl (fun heap id => heap.setParent id (some parent)) taken
    adopted.setChildren parent (insertBlock moved before (adopted.children parent))

/-- Puts a node behind all children of the parent. -/
def append (heap : Heap) (parent child : NodeId) : Heap :=
  heap.insert parent child none

/-- Takes a child out of its parent; a node that is no child of it stays where it is. -/
def remove (heap : Heap) (parent child : NodeId) : Heap :=
  if heap.parent? child = some parent then heap.detach child else heap

end Heap

end MustacheHtml.Document
