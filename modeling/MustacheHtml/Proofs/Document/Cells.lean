import MustacheHtml.Document.Heap

namespace MustacheHtml.Document

attribute [ext] Cell

namespace Heap

@[simp] theorem size_modify (heap : Heap) (id : NodeId) (change : Cell → Cell) :
    (heap.modify id change).size = heap.size := by
  simp [modify, size]

theorem cell_modify_self {heap : Heap} {id : NodeId} (change : Cell → Cell)
    (hid : id < heap.size) : (heap.modify id change).cell id = change (heap.cell id) := by
  have hbound : id < heap.cells.size := hid
  simp [modify, cell, Array.getElem_modify, hbound]

theorem cell_modify_of_ne {heap : Heap} {id other : NodeId} (change : Cell → Cell)
    (hne : other ≠ id) : (heap.modify id change).cell other = heap.cell other := by
  simp [modify, cell, Array.getElem?_modify, hne.symm]

theorem cell_of_size_le {heap : Heap} {id : NodeId} (hid : heap.size ≤ id) :
    heap.cell id = Cell.fresh .fragment := by
  have hbound : heap.cells.size ≤ id := hid
  simp [cell, hbound]

/-- What a change leaves alone in every cell it leaves alone in the heap, also at a node that does
not exist. -/
theorem field_modify {α : Type} {heap : Heap} {id other : NodeId} {change : Cell → Cell}
    (field : Cell → α) (hchange : ∀ cell, field (change cell) = field cell) :
    field ((heap.modify id change).cell other) = field (heap.cell other) := by
  by_cases hother : other = id
  · subst hother
    by_cases hbound : other < heap.size
    · rw [cell_modify_self _ hbound, hchange]
    · rw [cell_of_size_le (by simpa using hbound), cell_of_size_le (by simpa using hbound)]
  · rw [cell_modify_of_ne _ hother]

@[simp] theorem size_setChildren (heap : Heap) (id : NodeId) (children : List NodeId) :
    (heap.setChildren id children).size = heap.size :=
  size_modify _ _ _

@[simp] theorem size_setParent (heap : Heap) (id : NodeId) (parent : Option NodeId) :
    (heap.setParent id parent).size = heap.size :=
  size_modify _ _ _

theorem cell_setChildren_self {heap : Heap} {id : NodeId} (children : List NodeId)
    (hid : id < heap.size) :
    (heap.setChildren id children).cell id = { heap.cell id with children := children } :=
  cell_modify_self _ hid

theorem cell_setChildren_of_ne {heap : Heap} {id other : NodeId} (children : List NodeId)
    (hne : other ≠ id) : (heap.setChildren id children).cell other = heap.cell other :=
  cell_modify_of_ne _ hne

theorem cell_setParent_self {heap : Heap} {id : NodeId} (parent : Option NodeId)
    (hid : id < heap.size) :
    (heap.setParent id parent).cell id = { heap.cell id with parent := parent } :=
  cell_modify_self _ hid

theorem cell_setParent_of_ne {heap : Heap} {id other : NodeId} (parent : Option NodeId)
    (hne : other ≠ id) : (heap.setParent id parent).cell other = heap.cell other :=
  cell_modify_of_ne _ hne

@[simp] theorem children_setParent (heap : Heap) (id other : NodeId) (parent : Option NodeId) :
    (heap.setParent id parent).children other = heap.children other :=
  field_modify Cell.children fun _ => rfl

section Create

variable (heap : Heap) (kind : Kind)

@[simp] theorem size_create : (heap.create kind).2.size = heap.size + 1 := by
  simp [create, size]

@[simp] theorem cell_create_self : (heap.create kind).2.cell heap.size = Cell.fresh kind := by
  simp [create, cell, size]

theorem cell_create_of_lt {id : NodeId} (hid : id < heap.size) :
    (heap.create kind).2.cell id = heap.cell id := by
  have hbound : id < heap.cells.size := hid
  simp [create, cell, Array.getElem?_push, Nat.ne_of_lt hbound]

theorem field_create {α : Type} {heap : Heap} {kind : Kind} {id : NodeId} (field : Cell → α)
    (hfresh : field (Cell.fresh kind) = field (Cell.fresh .fragment)) :
    field ((heap.create kind).2.cell id) = field (heap.cell id) := by
  rcases Nat.lt_trichotomy id heap.size with hlt | rfl | hgt
  · rw [cell_create_of_lt heap kind hlt]
  · rw [cell_create_self, hfresh, cell_of_size_le (Nat.le_refl _)]
  · rw [cell_of_size_le (Nat.le_of_lt hgt), cell_of_size_le (by rwa [size_create])]

end Create

section Kinds

variable {heap : Heap} {id : NodeId}

@[simp] theorem size_setAttribute (heap : Heap) (id : NodeId) (name value : String) :
    (heap.setAttribute id name value).size = heap.size := by
  unfold setAttribute
  split
  · exact size_modify _ _ _
  · rfl

@[simp] theorem size_setText (heap : Heap) (id : NodeId) (content : String) :
    (heap.setText id content).size = heap.size := by
  unfold setText
  split
  · exact size_modify _ _ _
  · rfl

theorem cell_setAttribute_self {tag : String} {attributes : Attributes} {parent : Option NodeId}
    {children : List NodeId} (name value : String) (hid : id < heap.size)
    (hcell : heap.cell id = ⟨.element tag attributes, parent, children⟩) :
    (heap.setAttribute id name value).cell id =
      ⟨.element tag (attributes.set name value), parent, children⟩ := by
  have hkind : heap.kind id = .element tag attributes := by rw [kind, hcell]
  simp only [setAttribute, hkind]
  rw [cell_modify_self _ hid, hcell]

theorem cell_setAttribute_of_ne {other : NodeId} (name value : String) (hne : other ≠ id) :
    (heap.setAttribute id name value).cell other = heap.cell other := by
  unfold setAttribute
  split
  · exact cell_modify_of_ne _ hne
  · rfl

theorem cell_setText_self {old : String} {parent : Option NodeId} {children : List NodeId}
    (content : String) (hid : id < heap.size)
    (hcell : heap.cell id = ⟨.text old, parent, children⟩) :
    (heap.setText id content).cell id = ⟨.text content, parent, children⟩ := by
  have hkind : heap.kind id = .text old := by rw [kind, hcell]
  simp only [setText, hkind]
  rw [cell_modify_self _ hid, hcell]

theorem cell_setText_of_ne {other : NodeId} (content : String) (hne : other ≠ id) :
    (heap.setText id content).cell other = heap.cell other := by
  unfold setText
  split
  · exact cell_modify_of_ne _ hne
  · rfl

end Kinds

section Adopt

/-- Gives nodes a parent, which is how nodes are inserted. -/
def adopt (heap : Heap) (parent : NodeId) (moved : List NodeId) : Heap :=
  moved.foldl (fun heap id => heap.setParent id (some parent)) heap

@[simp] theorem size_adopt (heap : Heap) (parent : NodeId) (moved : List NodeId) :
    (heap.adopt parent moved).size = heap.size := by
  induction moved generalizing heap with
  | nil => rfl
  | cons id rest ih => simpa [adopt] using ih (heap.setParent id (some parent))

@[simp] theorem children_adopt (heap : Heap) (parent other : NodeId) (moved : List NodeId) :
    (heap.adopt parent moved).children other = heap.children other := by
  induction moved generalizing heap with
  | nil => rfl
  | cons id rest ih => simpa [adopt] using ih (heap.setParent id (some parent))

theorem cell_adopt_of_not_mem {heap : Heap} {parent id : NodeId} {moved : List NodeId}
    (hid : id ∉ moved) : (heap.adopt parent moved).cell id = heap.cell id := by
  induction moved generalizing heap with
  | nil => rfl
  | cons first rest ih =>
      simp only [List.mem_cons, not_or] at hid
      exact (ih hid.2).trans (cell_setParent_of_ne _ hid.1)

theorem cell_adopt_of_mem {heap : Heap} {parent id : NodeId} {moved : List NodeId}
    (hid : id ∈ moved) (hbound : id < heap.size) :
    (heap.adopt parent moved).cell id = { heap.cell id with parent := some parent } := by
  induction moved generalizing heap with
  | nil => simp at hid
  | cons first rest ih =>
      have hstep : heap.adopt parent (first :: rest) =
          (heap.setParent first (some parent)).adopt parent rest := rfl
      rw [hstep]
      by_cases hrest : id ∈ rest
      · rw [ih hrest (by simpa using hbound)]
        by_cases hfirst : id = first
        · subst hfirst
          rw [cell_setParent_self _ hbound]
        · rw [cell_setParent_of_ne _ hfirst]
      · have hfirst : id = first := by simpa [hrest] using hid
        subst hfirst
        rw [cell_adopt_of_not_mem hrest, cell_setParent_self _ hbound]

end Adopt

section Insert

variable {heap : Heap} {parent child : NodeId}

theorem insert_of_parentless (before : Option NodeId) (hne : parent ≠ child)
    (hkind : heap.kind child ≠ .fragment) (hparent : heap.parent? child = none) :
    heap.insert parent child before =
      (heap.adopt parent [child]).setChildren parent
        (insertBlock [child] before (heap.children parent)) := by
  have htaken : heap.takeOut child = ([child], heap) := by
    simp [takeOut, isFragment, hkind, detach, hparent]
  rw [← children_adopt heap parent parent [child]]
  simp only [insert, hne, if_false, htaken]
  rfl

theorem insert_of_fragment (before : Option NodeId) (hne : parent ≠ child)
    (hkind : heap.kind child = .fragment) :
    heap.insert parent child before =
      ((heap.setChildren child []).adopt parent (heap.children child)).setChildren parent
        (insertBlock (heap.children child) before (heap.children parent)) := by
  have htaken : heap.takeOut child = (heap.children child, heap.setChildren child []) := by
    simp [takeOut, isFragment, hkind]
  have hkept : heap.children parent =
      ((heap.setChildren child []).adopt parent (heap.children child)).children parent := by
    rw [children_adopt]
    simp only [children, cell_setChildren_of_ne _ hne]
  rw [hkept]
  simp only [insert, hne, if_false, htaken]
  rfl

end Insert

/-- A node that stands nowhere and can be inserted as it is. -/
structure Lone (heap : Heap) (child : NodeId) : Prop where
  kind_ne : heap.kind child ≠ .fragment
  parentless : heap.parent? child = none

namespace Lone

variable {heap : Heap} {parent child : NodeId}

theorem append_eq (hlone : heap.Lone child) (hne : parent ≠ child) :
    heap.append parent child =
      (heap.adopt parent [child]).setChildren parent (heap.children parent ++ [child]) :=
  insert_of_parentless none hne hlone.kind_ne hlone.parentless

theorem cell_append_parent (hlone : heap.Lone child) (hne : parent ≠ child)
    (hparent : parent < heap.size) :
    (heap.append parent child).cell parent =
      { heap.cell parent with children := heap.children parent ++ [child] } := by
  rw [hlone.append_eq hne, cell_setChildren_self _ (by simpa using hparent),
    cell_adopt_of_not_mem (by simpa using hne)]

theorem cell_append_child (hlone : heap.Lone child) (hne : parent ≠ child)
    (hchild : child < heap.size) :
    (heap.append parent child).cell child = { heap.cell child with parent := some parent } := by
  rw [hlone.append_eq hne, cell_setChildren_of_ne _ hne.symm,
    cell_adopt_of_mem (List.mem_singleton_self child) hchild]

theorem cell_append_of_ne (hlone : heap.Lone child) (hne : parent ≠ child) {id : NodeId}
    (hid : id ≠ child) (hother : id ≠ parent) :
    (heap.append parent child).cell id = heap.cell id := by
  rw [hlone.append_eq hne, cell_setChildren_of_ne _ hother,
    cell_adopt_of_not_mem (by simpa using hid)]

theorem size_append (hlone : heap.Lone child) (hne : parent ≠ child) :
    (heap.append parent child).size = heap.size := by
  rw [hlone.append_eq hne, size_setChildren, size_adopt]

end Lone

end Heap

end MustacheHtml.Document
