import Mathlib.Data.Finset.Card
import MustacheHtml.Document.View
import MustacheHtml.Proofs.Document.Cells

namespace MustacheHtml.Document

/-- A tree, with the node at which each part of it is kept. -/
inductive Placed where
  | text (node : NodeId) (content : String)
  | element (node : NodeId) (tag : String) (attributes : Attributes) (children : List Placed)

namespace Placed

/-- The node of a tree, above all its other ones. -/
def root : Placed → NodeId
  | text node _ => node
  | element node _ _ _ => node

/-- The nodes on top of some trees. -/
def roots (placed : List Placed) : List NodeId :=
  placed.map root

mutual

/-- The tree without its nodes. -/
def tree : Placed → Tree
  | text _ content => .text content
  | element _ tag attributes children => .element tag attributes (trees children)

def trees : List Placed → Forest
  | [] => []
  | first :: rest => tree first :: trees rest

end

mutual

def treeNodes : Placed → List NodeId
  | text node _ => [node]
  | element node _ _ children => node :: nodes children

/-- All nodes of some trees. -/
def nodes : List Placed → List NodeId
  | [] => []
  | first :: rest => treeNodes first ++ nodes rest

end

/-- Induction over trees side by side, with the children of the first one as a case of their own.
-/
@[elab_as_elim]
theorem forest_induction {motive : List Placed → Prop} (nil : motive [])
    (text : ∀ node content rest, motive rest → motive (text node content :: rest))
    (element : ∀ node tag attributes children rest, motive children → motive rest →
      motive (element node tag attributes children :: rest)) :
    ∀ placed, motive placed
  | [] => nil
  | .text node content :: rest => text node content rest (forest_induction nil text element rest)
  | .element node tag attributes children :: rest =>
      element node tag attributes children rest (forest_induction nil text element children)
        (forest_induction nil text element rest)

@[simp] theorem roots_nil : roots [] = [] := rfl

@[simp] theorem roots_cons (first : Placed) (rest : List Placed) :
    roots (first :: rest) = first.root :: roots rest := rfl

@[simp] theorem roots_append (left right : List Placed) :
    roots (left ++ right) = roots left ++ roots right :=
  List.map_append

@[simp] theorem trees_append (left right : List Placed) :
    trees (left ++ right) = trees left ++ trees right := by
  induction left with
  | nil => rfl
  | cons first rest ih => simp [trees, ih]

@[simp] theorem nodes_append (left right : List Placed) :
    nodes (left ++ right) = nodes left ++ nodes right := by
  induction left with
  | nil => rfl
  | cons first rest ih => simp [nodes, ih]

@[simp] theorem nodes_text (node : NodeId) (content : String) :
    nodes [.text node content] = [node] := rfl

@[simp] theorem nodes_element (node : NodeId) (tag : String) (attributes : Attributes)
    (children : List Placed) :
    nodes [.element node tag attributes children] = node :: nodes children := by
  simp [nodes, treeNodes]

theorem root_mem_treeNodes (placed : Placed) : placed.root ∈ placed.treeNodes := by
  cases placed <;> simp [root, treeNodes]

theorem roots_subset_nodes (placed : List Placed) : roots placed ⊆ nodes placed := by
  induction placed with
  | nil => simp [roots]
  | cons first rest ih =>
      intro id hid
      rcases List.mem_cons.mp hid with rfl | hrest
      · exact List.mem_append_left _ (root_mem_treeNodes first)
      · exact List.mem_append_right _ (ih hrest)

theorem roots_nodup {placed : List Placed} (hnodup : (nodes placed).Nodup) :
    (roots placed).Nodup := by
  induction placed with
  | nil => simp [roots]
  | cons first rest ih =>
      obtain ⟨-, hrest, hdisjoint⟩ := List.nodup_append'.mp hnodup
      refine List.nodup_cons.mpr ⟨?_, ih hrest⟩
      intro hmem
      exact hdisjoint (root_mem_treeNodes first) (roots_subset_nodes rest hmem)

end Placed

namespace Heap

open Placed

mutual

/-- Each part of a tree is kept at its node, and the nodes are linked as the parts are. -/
def HoldsTree (heap : Heap) (parent : Option NodeId) : Placed → Prop
  | .text node content => heap.cell node = ⟨.text content, parent, []⟩
  | .element node tag attributes children =>
      heap.cell node = ⟨.element tag attributes, parent, roots children⟩ ∧
        Holds heap (some node) children

/-- The same for trees that have one parent in common. -/
def Holds (heap : Heap) (parent : Option NodeId) : List Placed → Prop
  | [] => True
  | first :: rest => HoldsTree heap parent first ∧ Holds heap parent rest

end

variable {heap after : Heap} {parent : Option NodeId}

@[simp] theorem holds_nil : heap.Holds parent [] :=
  trivial

@[simp] theorem holds_text_cons {node : NodeId} {content : String} {rest : List Placed} :
    heap.Holds parent (.text node content :: rest) ↔
      heap.cell node = ⟨.text content, parent, []⟩ ∧ heap.Holds parent rest :=
  Iff.rfl

@[simp] theorem holds_element_cons {node : NodeId} {tag : String} {attributes : Attributes}
    {children rest : List Placed} :
    heap.Holds parent (.element node tag attributes children :: rest) ↔
      (heap.cell node = ⟨.element tag attributes, parent, roots children⟩ ∧
        heap.Holds (some node) children) ∧ heap.Holds parent rest :=
  Iff.rfl

theorem holds_append {left right : List Placed} :
    heap.Holds parent (left ++ right) ↔ heap.Holds parent left ∧ heap.Holds parent right := by
  induction left with
  | nil => simp
  | cons first rest ih => simp only [List.cons_append, Holds, ih, and_assoc]

theorem Holds.parent?_eq {placed : List Placed} (hholds : heap.Holds parent placed) :
    ∀ id ∈ roots placed, heap.parent? id = parent := by
  induction placed with
  | nil => exact fun _ hid => nomatch hid
  | cons first rest ih =>
      intro id hid
      rcases List.mem_cons.mp hid with rfl | hrest
      · cases first with
        | text node content => rw [root, parent?, (holds_text_cons.mp hholds).1]
        | element node tag attributes children =>
            rw [root, parent?, (holds_element_cons.mp hholds).1.1]
      · exact ih hholds.2 id hrest

theorem Holds.children_subset {placed : List Placed} (hholds : heap.Holds parent placed) :
    ∀ id ∈ nodes placed, heap.children id ⊆ nodes placed := by
  induction placed using forest_induction generalizing parent with
  | nil => exact fun _ hid => nomatch hid
  | text node content rest ih =>
      obtain ⟨hcell, hrest⟩ := holds_text_cons.mp hholds
      intro id hid
      rcases List.mem_cons.mp hid with rfl | hid
      · simp [Heap.children, hcell]
      · exact fun child hchild => List.mem_append_right _ (ih hrest id hid hchild)
  | element node tag attributes children rest ihChildren ih =>
      obtain ⟨⟨hcell, hchildren⟩, hrest⟩ := holds_element_cons.mp hholds
      intro id hid child hchild
      rcases List.mem_append.mp hid with hid | hid
      · refine List.mem_append_left _ (List.mem_cons_of_mem _ ?_)
        rcases List.mem_cons.mp hid with rfl | hid
        · rw [Heap.children, hcell] at hchild
          exact roots_subset_nodes children hchild
        · exact ihChildren hchildren id hid hchild
      · exact List.mem_append_right _ (ih hrest id hid hchild)

theorem Holds.congr {placed : List Placed} (hholds : heap.Holds parent placed)
    (hsame : ∀ id ∈ nodes placed, after.cell id = heap.cell id) : after.Holds parent placed := by
  induction placed using forest_induction generalizing parent with
  | nil => trivial
  | text node content rest ih =>
      rw [holds_text_cons] at hholds ⊢
      refine ⟨?_, ih hholds.2 fun id hid => hsame id (List.mem_append_right _ hid)⟩
      rw [hsame node (by simp [nodes, treeNodes])]
      exact hholds.1
  | element node tag attributes children rest ihChildren ih =>
      rw [holds_element_cons] at hholds ⊢
      refine ⟨⟨?_, ihChildren hholds.1.2 fun id hid => hsame id ?_⟩,
        ih hholds.2 fun id hid => hsame id (List.mem_append_right _ hid)⟩
      · rw [hsame node (by simp [nodes, treeNodes])]
        exact hholds.1.1
      · simp [nodes, treeNodes, hid]

theorem Holds.reparent {placed : List Placed} {next : Option NodeId}
    (hholds : heap.Holds parent placed) (hnodup : (nodes placed).Nodup)
    (hroots : ∀ id ∈ roots placed, after.cell id = { heap.cell id with parent := next })
    (hinner : ∀ id ∈ nodes placed, id ∉ roots placed → after.cell id = heap.cell id) :
    after.Holds next placed := by
  induction placed with
  | nil => trivial
  | cons first rest ih =>
      obtain ⟨hfirstNodup, hrestNodup, hdisjoint⟩ := List.nodup_append'.mp hnodup
      have hoff : ∀ id ∈ treeNodes first, id ∉ roots rest := fun id hid hrest =>
        hdisjoint hid (roots_subset_nodes rest hrest)
      have hrest : after.Holds next rest := by
        refine ih hholds.2 hrestNodup (fun id hid => hroots id (List.mem_cons_of_mem _ hid)) ?_
        intro id hid hnot
        apply hinner id (List.mem_append_right _ hid)
        intro hmem
        rcases List.mem_cons.mp hmem with rfl | hmem
        · exact hdisjoint (root_mem_treeNodes first) hid
        · exact hnot hmem
      have htop := hroots first.root List.mem_cons_self
      cases first with
      | text node content =>
          rw [holds_text_cons] at hholds ⊢
          refine ⟨?_, hrest⟩
          rw [root, hholds.1] at htop
          exact htop
      | element node tag attributes children =>
          rw [holds_element_cons] at hholds ⊢
          rw [root, hholds.1.1] at htop
          refine ⟨⟨htop, hholds.1.2.congr fun id hid => ?_⟩, hrest⟩
          have hmem : id ∈ treeNodes (.element node tag attributes children) := by
            simp [treeNodes, hid]
          apply hinner id (List.mem_append_left _ hmem)
          intro hroot
          rcases List.mem_cons.mp hroot with rfl | hroot
          · exact (List.nodup_cons.mp hfirstNodup).1 hid
          · exact hoff id hmem hroot

/-- A forest that is held is the one the heap shows, if the view goes deep enough. -/
theorem Holds.forest_eq {placed : List Placed} (hholds : heap.Holds parent placed) :
    ∀ depth, (nodes placed).length ≤ depth →
      heap.forest depth (roots placed) = trees placed := by
  induction placed using forest_induction generalizing parent with
  | nil =>
      intro depth _
      cases depth <;> simp [forest, trees]
  | text node content rest ih =>
      intro depth hdepth
      rw [holds_text_cons] at hholds
      simp only [nodes, treeNodes, List.length_append, List.length_singleton] at hdepth
      obtain ⟨depth, rfl⟩ : ∃ smaller, depth = smaller + 1 := ⟨depth - 1, by omega⟩
      have hkind : heap.kind node = .text content := by rw [kind, hholds.1]
      have hrest := ih hholds.2 (depth + 1) (by omega)
      simp only [forest] at hrest
      simp only [roots_cons, root, forest, List.flatMap_cons, hkind, hrest, trees, tree,
        List.singleton_append]
  | element node tag attributes children rest ihChildren ih =>
      intro depth hdepth
      rw [holds_element_cons] at hholds
      simp only [nodes, treeNodes, List.length_append, List.length_cons] at hdepth
      obtain ⟨depth, rfl⟩ : ∃ smaller, depth = smaller + 1 := ⟨depth - 1, by omega⟩
      have hkind : heap.kind node = .element tag attributes := by rw [kind, hholds.1.1]
      have hkept : heap.children node = roots children := by rw [Heap.children, hholds.1.1]
      have hinner := ihChildren hholds.1.2 depth (by omega)
      have hrest := ih hholds.2 (depth + 1) (by omega)
      simp only [forest] at hrest
      simp only [roots_cons, root, forest, List.flatMap_cons, hkind, hkept, hinner, hrest, trees,
        tree, List.singleton_append]

theorem length_le_of_nodup {ids : List NodeId} {bound : Nat} (hnodup : ids.Nodup)
    (hids : ∀ id ∈ ids, id < bound) : ids.length ≤ bound := by
  have hsubset : ids.toFinset ⊆ Finset.range bound := by
    intro id hid
    exact Finset.mem_range.mpr (hids id (List.mem_toFinset.mp hid))
  simpa [List.toFinset_card_of_nodup hnodup] using Finset.card_le_card hsubset

theorem Holds.innerForest_eq {placed : List Placed} {id : NodeId}
    (hholds : heap.Holds parent placed) (hchildren : heap.children id = roots placed)
    (hnodup : (nodes placed).Nodup) (hbound : ∀ id ∈ nodes placed, id < heap.size) :
    heap.innerForest id = trees placed := by
  rw [innerForest, hchildren]
  exact hholds.forest_eq _ (length_le_of_nodup hnodup hbound)

end Heap

end MustacheHtml.Document
