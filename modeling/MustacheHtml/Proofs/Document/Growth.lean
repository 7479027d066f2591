import Mathlib.Logic.Relation
import MustacheHtml.Document.Copy
import MustacheHtml.Proofs.Document.Linked
import MustacheHtml.Proofs.Document.Placed
import MustacheHtml.Proofs.Markup.DistinctNames

/-!
Growth below a node: new trees at the end of its children, kept at new nodes, and nothing else
changed. Everything that rendering does to a document is such a growth.
-/

namespace MustacheHtml.Document.Heap

open Placed

/-- The second node is the first one, or is below it. -/
def Reaches (heap : Heap) : NodeId → NodeId → Prop :=
  Relation.ReflTransGen fun parent child => child ∈ heap.children parent

theorem Reaches.within {heap : Heap} {root node : NodeId} {within : NodeId → Prop}
    (hreaches : heap.Reaches root node) (hroot : within root)
    (hclosed : ∀ id, within id → ∀ child ∈ heap.children id, within child) : within node := by
  induction hreaches with
  | refl => exact hroot
  | tail _ hchild ih => exact hclosed _ ih _ hchild

theorem Linked.lt_size_of_reaches {heap : Heap} (hlinked : heap.Linked) {root id : NodeId}
    (hroot : root < heap.size) (hreaches : heap.Reaches root id) : id < heap.size := by
  rcases hreaches.cases_tail with rfl | ⟨above, -, hchild⟩
  · exact hroot
  · exact hlinked.child_lt_size hchild

/-- The node `parent` has got the trees `added` as its last children. They are kept at nodes that
did not exist before, and no older node but the parent has changed. -/
structure Grows (heap after : Heap) (parent : NodeId) (added : List Placed) : Prop where
  size_le : heap.size ≤ after.size
  cell_parent : after.cell parent =
    { heap.cell parent with children := heap.children parent ++ roots added }
  cell_old : ∀ id < heap.size, id ≠ parent → after.cell id = heap.cell id
  holds : after.Holds (some parent) added
  fresh : ∀ id ∈ nodes added, heap.size ≤ id
  bound : ∀ id ∈ nodes added, id < after.size
  nodup : (nodes added).Nodup

namespace Grows

variable {heap middle after : Heap} {parent : NodeId} {added more : List Placed}

theorem refl (heap : Heap) (parent : NodeId) : Grows heap heap parent [] where
  size_le := Nat.le_refl _
  cell_parent := by simp [Heap.children]
  cell_old := fun _ _ _ => rfl
  holds := trivial
  fresh := by simp [nodes]
  bound := by simp [nodes]
  nodup := List.nodup_nil

theorem children_parent (hgrows : Grows heap after parent added) :
    after.children parent = heap.children parent ++ roots added := by
  rw [Heap.children, hgrows.cell_parent]

theorem trans (hparent : parent < heap.size) (hfirst : Grows heap middle parent added)
    (hsecond : Grows middle after parent more) : Grows heap after parent (added ++ more) where
  size_le := Nat.le_trans hfirst.size_le hsecond.size_le
  cell_parent := by
    rw [hsecond.cell_parent, hfirst.children_parent, hfirst.cell_parent, roots_append,
      List.append_assoc]
  cell_old := by
    intro id hid hne
    rw [hsecond.cell_old id (Nat.lt_of_lt_of_le hid hfirst.size_le) hne,
      hfirst.cell_old id hid hne]
  holds := by
    refine holds_append.mpr ⟨hfirst.holds.congr fun id hid => ?_, hsecond.holds⟩
    apply hsecond.cell_old id (hfirst.bound id hid)
    rintro rfl
    exact absurd hparent (Nat.not_lt.mpr (hfirst.fresh id hid))
  fresh := by
    intro id hid
    rcases List.mem_append.mp (nodes_append added more ▸ hid) with hid | hid
    · exact hfirst.fresh id hid
    · exact Nat.le_trans hfirst.size_le (hsecond.fresh id hid)
  bound := by
    intro id hid
    rcases List.mem_append.mp (nodes_append added more ▸ hid) with hid | hid
    · exact Nat.lt_of_lt_of_le (hfirst.bound id hid) hsecond.size_le
    · exact hsecond.bound id hid
  nodup := by
    rw [nodes_append]
    refine List.nodup_append'.mpr ⟨hfirst.nodup, hsecond.nodup, ?_⟩
    intro id hold hnew
    exact absurd (hfirst.bound id hold) (Nat.not_lt.mpr (hsecond.fresh id hnew))

theorem old_or_added (hlinked : heap.Linked) (hparent : parent < heap.size)
    (hgrows : Grows heap after parent added) {id : NodeId} (hreaches : after.Reaches parent id) :
    id < heap.size ∨ id ∈ nodes added := by
  induction hreaches with
  | refl => exact .inl hparent
  | @tail middle child _ hchild ih =>
      rcases ih with hold | hnew
      · by_cases hmiddle : middle = parent
        · rw [hmiddle, hgrows.children_parent, List.mem_append] at hchild
          rcases hchild with hchild | hchild
          · exact .inl (hlinked.child_lt_size hchild)
          · exact .inr (roots_subset_nodes added hchild)
        · rw [Heap.children, hgrows.cell_old middle hold hmiddle] at hchild
          exact .inl (hlinked.child_lt_size hchild)
      · exact .inr (hgrows.holds.children_subset middle hnew hchild)

end Grows

/-- The node has taken over the trees of a fragment and has the given children now. -/
structure Adopts (heap after : Heap) (parent fragment : NodeId) (placed : List Placed)
    (children : List NodeId) : Prop where
  size_eq : after.size = heap.size
  cell_parent : after.cell parent = { heap.cell parent with children := children }
  cell_old : ∀ id, id ≠ parent → id ≠ fragment → id ∉ nodes placed → after.cell id = heap.cell id
  holds : after.Holds (some parent) placed

theorem Adopts.parent?_old {heap after : Heap} {parent fragment id : NodeId} {placed : List Placed}
    {children : List NodeId} (hadopts : Adopts heap after parent fragment placed children)
    (hfragment : id ≠ fragment) (hid : id ∉ nodes placed) : after.parent? id = heap.parent? id := by
  by_cases hparent : id = parent
  · rw [hparent, parent?, hadopts.cell_parent, parent?]
  · rw [parent?, hadopts.cell_old id hparent hfragment hid, parent?]

theorem insert_adopts {heap : Heap} {parent fragment : NodeId} {placed : List Placed}
    (hcell : heap.cell fragment = ⟨.fragment, none, roots placed⟩)
    (hholds : heap.Holds (some fragment) placed) (hnodup : (fragment :: nodes placed).Nodup)
    (hbound : ∀ id ∈ nodes placed, id < heap.size) (hparent : parent < heap.size)
    (hne : parent ≠ fragment) (hparentNodes : parent ∉ nodes placed) (before : Option NodeId) :
    Adopts heap (heap.insert parent fragment before) parent fragment placed
      (insertBlock (roots placed) before (heap.children parent)) := by
  obtain ⟨hfragment, hnodup⟩ := List.nodup_cons.mp hnodup
  have hmoved : heap.children fragment = roots placed := by rw [Heap.children, hcell]
  have hinsert : heap.insert parent fragment before =
      ((heap.setChildren fragment []).adopt parent (roots placed)).setChildren parent
        (insertBlock (roots placed) before (heap.children parent)) := by
    rw [insert_of_fragment before hne (by rw [Heap.kind, hcell]), hmoved]
  have hparentRoots : parent ∉ roots placed := fun hmem =>
    hparentNodes (roots_subset_nodes placed hmem)
  rw [hinsert]
  constructor
  case size_eq => simp
  case cell_parent =>
    rw [cell_setChildren_self _ (by simpa using hparent), cell_adopt_of_not_mem hparentRoots,
      cell_setChildren_of_ne _ hne]
  case cell_old =>
    intro id hidParent hidFragment hid
    rw [cell_setChildren_of_ne _ hidParent,
      cell_adopt_of_not_mem fun hmem => hid (roots_subset_nodes placed hmem),
      cell_setChildren_of_ne _ hidFragment]
  case holds =>
    refine hholds.reparent hnodup (fun id hid => ?_) fun id hid hnotRoot => ?_
    · have hmem := roots_subset_nodes placed hid
      rw [cell_setChildren_of_ne _ (ne_of_mem_of_not_mem hmem hparentNodes),
        cell_adopt_of_mem hid (by simpa using hbound id hmem),
        cell_setChildren_of_ne _ (ne_of_mem_of_not_mem hmem hfragment)]
    · rw [cell_setChildren_of_ne _ (ne_of_mem_of_not_mem hid hparentNodes),
        cell_adopt_of_not_mem hnotRoot,
        cell_setChildren_of_ne _ (ne_of_mem_of_not_mem hid hfragment)]

/-- A new node that stands alone, together with what has been put below it. -/
structure Stands (heap after : Heap) (kind : Kind) (placed : List Placed) : Prop where
  size_lt : heap.size < after.size
  cell_new : after.cell heap.size = ⟨kind, none, roots placed⟩
  cell_old : ∀ id < heap.size, after.cell id = heap.cell id
  holds : after.Holds (some heap.size) placed
  fresh : ∀ id ∈ nodes placed, heap.size < id
  bound : ∀ id ∈ nodes placed, id < after.size
  nodup : (nodes placed).Nodup

namespace Stands

variable {heap middle after : Heap} {parent : NodeId} {kind : Kind} {placed more : List Placed}

theorem create (heap : Heap) (kind : Kind) : Stands heap (heap.create kind).2 kind [] where
  size_lt := by simp
  cell_new := by simp [Cell.fresh]
  cell_old := fun id hid => cell_create_of_lt heap kind hid
  holds := trivial
  fresh := by simp [nodes]
  bound := by simp [nodes]
  nodup := List.nodup_nil

theorem children_old (hstands : Stands heap after kind placed) {id : NodeId}
    (hid : id < heap.size) : after.children id = heap.children id := by
  rw [Heap.children, hstands.cell_old id hid, Heap.children]

theorem grows (hstands : Stands heap after kind placed) (hparent : parent < heap.size) :
    Grows heap after parent [] where
  size_le := Nat.le_of_lt hstands.size_lt
  cell_parent := by simp [Heap.children, hstands.cell_old parent hparent]
  cell_old := fun id hid _ => hstands.cell_old id hid
  holds := trivial
  fresh := by simp [nodes]
  bound := by simp [nodes]
  nodup := List.nodup_nil

theorem setAttribute {tag : String} {attributes : Attributes} (name value : String)
    (hstands : Stands heap middle (.element tag attributes) []) :
    Stands heap (middle.setAttribute heap.size name value)
      (.element tag (attributes.set name value)) [] where
  size_lt := by simpa using hstands.size_lt
  cell_new := cell_setAttribute_self name value hstands.size_lt hstands.cell_new
  cell_old := by
    intro id hid
    rw [cell_setAttribute_of_ne _ _ (Nat.ne_of_lt hid), hstands.cell_old id hid]
  holds := trivial
  fresh := by simp [nodes]
  bound := by simp [nodes]
  nodup := List.nodup_nil

theorem grow (hstands : Stands heap middle kind placed)
    (hgrows : Grows middle after heap.size more) : Stands heap after kind (placed ++ more) where
  size_lt := Nat.lt_of_lt_of_le hstands.size_lt hgrows.size_le
  cell_new := by
    rw [hgrows.cell_parent, Heap.children, hstands.cell_new, roots_append]
  cell_old := by
    intro id hid
    rw [hgrows.cell_old id (Nat.lt_trans hid hstands.size_lt) (Nat.ne_of_lt hid),
      hstands.cell_old id hid]
  holds := by
    refine holds_append.mpr ⟨hstands.holds.congr fun id hid => ?_, hgrows.holds⟩
    exact hgrows.cell_old id (hstands.bound id hid) (Nat.ne_of_gt (hstands.fresh id hid))
  fresh := by
    intro id hid
    rcases List.mem_append.mp (nodes_append placed more ▸ hid) with hid | hid
    · exact hstands.fresh id hid
    · exact Nat.lt_of_lt_of_le hstands.size_lt (hgrows.fresh id hid)
  bound := by
    intro id hid
    rcases List.mem_append.mp (nodes_append placed more ▸ hid) with hid | hid
    · exact Nat.lt_of_lt_of_le (hstands.bound id hid) hgrows.size_le
    · exact hgrows.bound id hid
  nodup := by
    rw [nodes_append]
    refine List.nodup_append'.mpr ⟨hstands.nodup, hgrows.nodup, ?_⟩
    intro id hold hnew
    exact absurd (hstands.bound id hold) (Nat.not_lt.mpr (hgrows.fresh id hnew))

theorem lone (hstands : Stands heap middle kind placed) (hkind : kind ≠ .fragment) :
    middle.Lone heap.size where
  kind_ne := by
    rw [Heap.kind, hstands.cell_new]
    exact hkind
  parentless := by rw [Heap.parent?, hstands.cell_new]

theorem cell_append_parent (hstands : Stands heap middle kind placed) (hkind : kind ≠ .fragment)
    (hparent : parent < heap.size) :
    (middle.append parent heap.size).cell parent =
      { heap.cell parent with children := heap.children parent ++ [heap.size] } := by
  rw [(hstands.lone hkind).cell_append_parent (Nat.ne_of_lt hparent)
    (Nat.lt_trans hparent hstands.size_lt), hstands.children_old hparent,
    hstands.cell_old parent hparent]

theorem cell_append_new (hstands : Stands heap middle kind placed) (hkind : kind ≠ .fragment)
    (hparent : parent < heap.size) :
    (middle.append parent heap.size).cell heap.size = ⟨kind, some parent, roots placed⟩ := by
  rw [(hstands.lone hkind).cell_append_child (Nat.ne_of_lt hparent) hstands.size_lt,
    hstands.cell_new]

theorem cell_append_of_ne (hstands : Stands heap middle kind placed) (hkind : kind ≠ .fragment)
    (hparent : parent < heap.size) {id : NodeId} (hid : id ≠ heap.size) (hne : id ≠ parent) :
    (middle.append parent heap.size).cell id = middle.cell id :=
  (hstands.lone hkind).cell_append_of_ne (Nat.ne_of_lt hparent) hid hne

theorem size_append (hstands : Stands heap middle kind placed) (hkind : kind ≠ .fragment)
    (hparent : parent < heap.size) : (middle.append parent heap.size).size = middle.size :=
  (hstands.lone hkind).size_append (Nat.ne_of_lt hparent)

theorem append_text {content : String} (hstands : Stands heap middle (.text content) [])
    (hparent : parent < heap.size) :
    Grows heap (middle.append parent heap.size) parent [.text heap.size content] where
  size_le := by
    rw [hstands.size_append (by simp) hparent]
    exact Nat.le_of_lt hstands.size_lt
  cell_parent := hstands.cell_append_parent (by simp) hparent
  cell_old := by
    intro id hid hne
    rw [hstands.cell_append_of_ne (by simp) hparent (Nat.ne_of_lt hid) hne,
      hstands.cell_old id hid]
  holds := holds_text_cons.mpr ⟨hstands.cell_append_new (by simp) hparent, trivial⟩
  fresh := by simp
  bound := by
    intro id hid
    obtain rfl : id = heap.size := by simpa using hid
    rw [hstands.size_append (by simp) hparent]
    exact hstands.size_lt
  nodup := by simp

theorem append_element {tag : String} {attributes : Attributes}
    (hstands : Stands heap middle (.element tag attributes) placed) (hparent : parent < heap.size)
    (hgrows : Grows (middle.append parent heap.size) after heap.size more) :
    Grows heap after parent [.element heap.size tag attributes (placed ++ more)] := by
  have hnew := hstands.cell_append_new (by simp) hparent
  have hsize := hstands.size_append (by simp) hparent
  have hlt := hstands.size_lt
  have hne : heap.size ≠ parent := Nat.ne_of_gt hparent
  have hkept : ∀ id, id ≠ heap.size → id ≠ parent → id < middle.size →
      after.cell id = middle.cell id := by
    intro id hid hidParent hidBound
    rw [hgrows.cell_old id (hsize ▸ hidBound) hid,
      hstands.cell_append_of_ne (by simp) hparent hid hidParent]
  have hnodes : nodes [.element heap.size tag attributes (placed ++ more)] =
      heap.size :: (nodes placed ++ nodes more) := by simp
  have hplacedNe : ∀ id ∈ nodes placed, id ≠ heap.size ∧ id ≠ parent := fun id hid =>
    ⟨Nat.ne_of_gt (hstands.fresh id hid),
      Nat.ne_of_gt (Nat.lt_trans hparent (hstands.fresh id hid))⟩
  have hmoreFresh : ∀ id ∈ nodes more, middle.size ≤ id := fun id hid =>
    hsize ▸ hgrows.fresh id hid
  have hnewBound : heap.size < after.size := Nat.lt_of_lt_of_le hlt (hsize ▸ hgrows.size_le)
  constructor
  case size_le => exact Nat.le_of_lt hnewBound
  case cell_parent =>
    rw [hgrows.cell_old parent (hsize ▸ Nat.lt_trans hparent hlt) hne.symm]
    exact hstands.cell_append_parent (by simp) hparent
  case cell_old =>
    intro id hid hidParent
    rw [hkept id (Nat.ne_of_lt hid) hidParent (Nat.lt_trans hid hlt), hstands.cell_old id hid]
  case holds =>
    refine holds_element_cons.mpr ⟨⟨?_, holds_append.mpr ⟨?_, hgrows.holds⟩⟩, trivial⟩
    · rw [hgrows.cell_parent, Heap.children, hnew, roots_append]
    · apply hstands.holds.congr
      intro id hid
      exact hkept id (hplacedNe id hid).1 (hplacedNe id hid).2 (hstands.bound id hid)
  case fresh =>
    intro id hid
    rw [hnodes, List.mem_cons, List.mem_append] at hid
    rcases hid with rfl | hid | hid
    · exact Nat.le_refl _
    · exact Nat.le_of_lt (hstands.fresh id hid)
    · exact Nat.le_trans (Nat.le_of_lt hlt) (hmoreFresh id hid)
  case bound =>
    intro id hid
    rw [hnodes, List.mem_cons, List.mem_append] at hid
    rcases hid with rfl | hid | hid
    · exact hnewBound
    · exact Nat.lt_of_lt_of_le (hstands.bound id hid) (hsize ▸ hgrows.size_le)
    · exact hgrows.bound id hid
  case nodup =>
    rw [hnodes]
    refine List.nodup_cons.mpr ⟨?_, List.nodup_append'.mpr ⟨hstands.nodup, hgrows.nodup, ?_⟩⟩
    · intro hmem
      rcases List.mem_append.mp hmem with hmem | hmem
      · exact (hplacedNe _ hmem).1 rfl
      · exact absurd hlt (Nat.not_lt.mpr (hmoreFresh _ hmem))
    · intro id hold hmem
      exact absurd (hstands.bound id hold) (Nat.not_lt.mpr (hmoreFresh id hmem))

theorem nodup_cons (hstands : Stands heap after kind placed) :
    (heap.size :: nodes placed).Nodup :=
  List.nodup_cons.mpr
    ⟨fun hmem => Nat.lt_irrefl _ (hstands.fresh _ hmem), hstands.nodup⟩

theorem not_mem_nodes (hstands : Stands heap after kind placed) {id : NodeId}
    (hid : id < heap.size) : id ∉ nodes placed :=
  fun hmem => absurd (hstands.fresh id hmem) (Nat.not_lt_of_lt hid)

theorem insert_adopts (hstands : Stands heap middle .fragment placed) (hparent : parent < heap.size)
    (hsize : after.size = middle.size)
    (hcells : ∀ id, heap.size ≤ id → after.cell id = middle.cell id) (before : Option NodeId) :
    Adopts after (after.insert parent heap.size before) parent heap.size placed
      (insertBlock (roots placed) before (after.children parent)) := by
  have hcell : after.cell heap.size = ⟨.fragment, none, roots placed⟩ := by
    rw [hcells heap.size (Nat.le_refl _), hstands.cell_new]
  have hholds : after.Holds (some heap.size) placed :=
    hstands.holds.congr fun id hid => hcells id (Nat.le_of_lt (hstands.fresh id hid))
  have hbound : ∀ id ∈ nodes placed, id < after.size := fun id hid =>
    hsize ▸ hstands.bound id hid
  exact Heap.insert_adopts hcell hholds hstands.nodup_cons hbound
    (hsize ▸ Nat.lt_trans hparent hstands.size_lt) (Nat.ne_of_lt hparent)
    (hstands.not_mem_nodes hparent) before

theorem append_fragment (hstands : Stands heap middle .fragment placed)
    (hparent : parent < heap.size) :
    Grows heap (middle.append parent heap.size) parent placed := by
  have hkept : middle.children parent = heap.children parent := by
    simp only [Heap.children, hstands.cell_old parent hparent]
  have hadopts := hstands.insert_adopts hparent rfl (fun _ _ => rfl) none
  constructor
  case size_le =>
    rw [append, hadopts.size_eq]
    exact Nat.le_of_lt hstands.size_lt
  case cell_parent =>
    rw [append, hadopts.cell_parent, hstands.cell_old parent hparent, insertBlock, hkept]
  case cell_old =>
    intro id hid hne
    rw [append, hadopts.cell_old id hne (Nat.ne_of_lt hid) (hstands.not_mem_nodes hid),
      hstands.cell_old id hid]
  case holds => exact hadopts.holds
  case fresh => exact fun id hid => Nat.le_of_lt (hstands.fresh id hid)
  case bound =>
    intro id hid
    rw [append, hadopts.size_eq]
    exact hstands.bound id hid
  case nodup => exact hstands.nodup

theorem innerForest_eq (hstands : Stands heap after kind placed) :
    after.innerForest heap.size = trees placed := by
  refine hstands.holds.innerForest_eq ?_ hstands.nodup hstands.bound
  rw [Heap.children, hstands.cell_new]

theorem innerHtml_eq (hstands : Stands heap after .fragment placed) :
    after.innerHtml heap.size = String.ofList (Tree.forestHtml false (trees placed)) := by
  have htag : after.tag? heap.size = none := by
    rw [tag?, Heap.kind, hstands.cell_new]
  rw [innerHtml, htag, hstands.innerForest_eq]
  rfl

theorem setAttributes {tag : String} {held : Attributes} (attributes : Attributes)
    (hstands : Stands heap middle (.element tag held) []) :
    Stands heap
      (attributes.foldl (fun made attr => made.setAttribute heap.size attr.1 attr.2) middle)
      (.element tag (held.setAll attributes)) [] := by
  induction attributes generalizing middle held with
  | nil => exact hstands
  | cons attr rest ih => exact ih (hstands.setAttribute attr.1 attr.2)

end Stands

/-- Making the nodes of a forest puts exactly this forest below the node. -/
theorem plantAll_grows {heap : Heap} {parent : NodeId} {forest : Forest}
    (hdistinct : Tree.AllDistinct forest) (hparent : parent < heap.size) :
    ∃ added, trees added = forest ∧ Grows heap (heap.plantAll parent forest) parent added := by
  induction forest using Tree.forest_induction generalizing heap parent with
  | nil => exact ⟨[], rfl, Grows.refl heap parent⟩
  | text content rest ih =>
      have hfirst := (Stands.create heap (.text content)).append_text hparent
      obtain ⟨added, htrees, hrest⟩ :=
        ih hdistinct.2 (Nat.lt_of_lt_of_le hparent hfirst.size_le)
      exact ⟨.text heap.size content :: added, by simp [trees, tree, htrees],
        hfirst.trans hparent hrest⟩
  | element tag attributes children rest ihChildren ih =>
      have hnames : Attributes.setAll [] attributes = attributes :=
        Attributes.setAll_of_distinct hdistinct.1.1
      have hmade := (Stands.create heap (.element tag [])).setAttributes attributes
      rw [hnames] at hmade
      obtain ⟨inner, hinner, hchildren⟩ := ihChildren hdistinct.1.2 hmade.size_lt
      have hfirst := (hmade.grow hchildren).append_element hparent (Grows.refl _ _)
      obtain ⟨added, htrees, hrest⟩ :=
        ih hdistinct.2 (Nat.lt_of_lt_of_le hparent hfirst.size_le)
      exact ⟨.element heap.size tag attributes ([] ++ inner ++ []) :: added,
        by simp [trees, tree, hinner, htrees], hfirst.trans hparent hrest⟩

/-- Parsing markup makes a fragment that stands alone and holds the forest of the markup. -/
theorem parseFragment_stands (heap : Heap) (markup : String) :
    (heap.parseFragment markup).1 = heap.size ∧
      ∃ placed, trees placed = Markup.parse markup ∧
        Stands heap (heap.parseFragment markup).2 .fragment placed := by
  have hmade := Stands.create heap .fragment
  obtain ⟨placed, htrees, hgrows⟩ :=
    plantAll_grows (Markup.allDistinct_parse markup) hmade.size_lt
  exact ⟨rfl, placed, htrees, hmade.grow hgrows⟩

end MustacheHtml.Document.Heap
