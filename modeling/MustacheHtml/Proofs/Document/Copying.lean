import Mathlib.Data.List.Forall2
import MustacheHtml.Proofs.Document.Depth
import MustacheHtml.Proofs.Document.Growth

namespace MustacheHtml.Document.Heap

/-- Down to a depth the two nodes are of one kind, and so are their children one by one. -/
def Alike (heap other : Heap) : Nat → NodeId → NodeId → Prop
  | 0, id, copy => other.kind copy = heap.kind id
  | depth + 1, id, copy =>
      other.kind copy = heap.kind id ∧
        List.Forall₂ (Alike heap other depth) (heap.children id) (other.children copy)

/-- Two documents are the same at certain nodes, below which there are only such nodes. -/
structure AgreeOn (heap after : Heap) (within : NodeId → Prop) : Prop where
  kind_eq : ∀ id, within id → after.kind id = heap.kind id
  children_eq : ∀ id, within id → after.children id = heap.children id
  closed : ∀ id, within id → ∀ child ∈ heap.children id, within child

namespace AgreeOn

variable {heap middle after : Heap} {within : NodeId → Prop}

theorem refl (hclosed : ∀ id, within id → ∀ child ∈ heap.children id, within child) :
    AgreeOn heap heap within :=
  ⟨fun _ _ => rfl, fun _ _ => rfl, hclosed⟩

theorem symm (hagree : AgreeOn heap after within) : AgreeOn after heap within where
  kind_eq := fun id hid => (hagree.kind_eq id hid).symm
  children_eq := fun id hid => (hagree.children_eq id hid).symm
  closed := fun id hid => hagree.children_eq id hid ▸ hagree.closed id hid

theorem trans (hfirst : AgreeOn heap middle within) (hsecond : AgreeOn middle after within) :
    AgreeOn heap after within where
  kind_eq := fun id hid => (hsecond.kind_eq id hid).trans (hfirst.kind_eq id hid)
  children_eq := fun id hid => (hsecond.children_eq id hid).trans (hfirst.children_eq id hid)
  closed := hfirst.closed

theorem reaches_iff (hagree : AgreeOn heap after within) {root node : NodeId}
    (hroot : within root) : after.Reaches root node ↔ heap.Reaches root node := by
  have hforward : ∀ {heap after : Heap}, AgreeOn heap after within → heap.Reaches root node →
      after.Reaches root node := by
    intro heap after hagree hreaches
    induction hreaches with
    | refl => exact .refl
    | tail habove hchild ih =>
        refine ih.tail ?_
        rw [hagree.children_eq _ (Reaches.within habove hroot hagree.closed)]
        exact hchild
  exact ⟨hforward hagree.symm, hforward hagree⟩

theorem of_cell_eq (hlinked : heap.Linked)
    (hold : ∀ id < heap.size, after.cell id = heap.cell id) :
    AgreeOn heap after (· < heap.size) where
  kind_eq := fun id hid => congrArg Cell.kind (hold id hid)
  children_eq := fun id hid => congrArg Cell.children (hold id hid)
  closed := fun _ _ _ hchild => hlinked.child_lt_size hchild

end AgreeOn

namespace Alike

variable {heap other : Heap} {depth : Nat} {id copy : NodeId}

theorem kind_eq (halike : heap.Alike other depth id copy) : other.kind copy = heap.kind id := by
  cases depth with
  | zero => exact halike
  | succ depth => exact halike.1

theorem refl (heap : Heap) (depth : Nat) (id : NodeId) : heap.Alike heap depth id id := by
  induction depth generalizing id with
  | zero => rfl
  | succ depth ih => exact ⟨rfl, List.forall₂_same.mpr fun child _ => ih child⟩

theorem congr {heap' other' : Heap} {within copied : NodeId → Prop}
    (halike : heap.Alike other depth id copy) (hheap : AgreeOn heap heap' within)
    (hother : AgreeOn other other' copied) (hid : within id) (hcopy : copied copy) :
    heap'.Alike other' depth id copy := by
  induction depth generalizing id copy with
  | zero => exact (hother.kind_eq copy hcopy).trans (halike.trans (hheap.kind_eq id hid).symm)
  | succ depth ih =>
      obtain ⟨hkind, hchildren⟩ := halike
      refine ⟨(hother.kind_eq copy hcopy).trans (hkind.trans (hheap.kind_eq id hid).symm), ?_⟩
      rw [hheap.children_eq id hid, hother.children_eq copy hcopy]
      obtain ⟨hlength, hpairs⟩ := List.forall₂_iff_zip.mp hchildren
      refine List.forall₂_iff_zip.mpr ⟨hlength, fun {child copied} hpair => ?_⟩
      obtain ⟨hchild, hcopied⟩ := List.of_mem_zip hpair
      exact ih (hpairs hpair) (hheap.closed id hid child hchild)
        (hother.closed copy hcopy copied hcopied)

theorem of_card_below_lt (halike : heap.Alike other depth id copy) (hlinked : heap.Linked)
    (hacyclic : heap.Acyclic) (hdepth : (heap.below id).card < depth) (deeper : Nat) :
    heap.Alike other deeper id copy := by
  induction depth generalizing id copy deeper with
  | zero => exact absurd hdepth (Nat.not_lt_zero _)
  | succ depth ih =>
      obtain ⟨hkind, hchildren⟩ := halike
      cases deeper with
      | zero => exact hkind
      | succ deeper =>
          obtain ⟨hlength, hpairs⟩ := List.forall₂_iff_zip.mp hchildren
          refine ⟨hkind, List.forall₂_iff_zip.mpr ⟨hlength, fun {child copied} hpair => ?_⟩⟩
          have hless := Finset.card_lt_card
            (hacyclic.below_ssubset hlinked (List.of_mem_zip hpair).1)
          exact ih (hpairs hpair) (Nat.lt_of_lt_of_le hless (Nat.le_of_lt_succ hdepth)) deeper

theorem forest_eq {ids copies : List NodeId}
    (halike : List.Forall₂ (heap.Alike other depth) ids copies) :
    other.forest (depth + 1) copies = heap.forest (depth + 1) ids := by
  induction depth generalizing ids copies with
  | zero =>
      induction halike with
      | nil => rfl
      | cons hfirst _ ih =>
          simp only [forest, List.flatMap_cons, hfirst.kind_eq] at ih ⊢
          rw [ih]
  | succ depth ihDepth =>
      induction halike with
      | nil => rfl
      | cons hfirst _ ih =>
          have hbelow := ihDepth hfirst.2
          rw [forest, forest] at ih ⊢
          simp only [List.flatMap_cons, hfirst.kind_eq, hbelow]
          rw [ih]

theorem html_eq (halike : ∀ depth, heap.Alike other depth id copy) (hlinked : heap.Linked)
    (hacyclic : heap.Acyclic) (hid : id < heap.size) (hsize : heap.size ≤ other.size) :
    other.outerHtml copy = heap.outerHtml id ∧ other.innerHtml copy = heap.innerHtml id := by
  obtain ⟨depth, hdepth⟩ := Nat.exists_eq_add_one_of_ne_zero
    (Nat.ne_of_gt (Nat.lt_of_le_of_lt (Nat.zero_le id) (Nat.lt_of_lt_of_le hid hsize)))
  have houter : other.outerForest copy = heap.outerForest id := by
    rw [outerForest, outerForest, ← hacyclic.forest_of_size_le hlinked
      (List.forall_mem_singleton.mpr hid) hsize, hdepth]
    exact forest_eq (.cons (halike depth) .nil)
  have hinner : other.innerForest copy = heap.innerForest id := by
    rw [innerForest, innerForest, ← hacyclic.forest_of_size_le hlinked
      (fun child hchild => hlinked.child_lt_size hchild) hsize, hdepth]
    exact forest_eq (halike (depth + 1)).2
  have htag : other.tag? copy = heap.tag? id := by rw [tag?, tag?, (halike 0).kind_eq]
  exact ⟨by rw [outerHtml, outerHtml, houter], by rw [innerHtml, innerHtml, hinner, htag]⟩

end Alike

/-- A node has been copied down to a depth. The copy is the first of the new nodes and stands
alone, and no older node has changed. -/
structure Clones (heap after : Heap) (depth : Nat) (id : NodeId) : Prop where
  linked : after.Linked
  size_lt : heap.size < after.size
  cell_old : ∀ other < heap.size, after.cell other = heap.cell other
  parentless : after.parent? heap.size = none
  alike : heap.Alike after depth id heap.size

/-- Nodes that look like older ones of a document have been put below a younger one. -/
structure Gathers (base heap after : Heap) (root : NodeId) (depth : Nat)
    (ids copies : List NodeId) : Prop where
  linked : after.Linked
  size_le : heap.size ≤ after.size
  cell_root : after.cell root = { heap.cell root with children := heap.children root ++ copies }
  cell_old : ∀ id < heap.size, id ≠ root → after.cell id = heap.cell id
  alike : List.Forall₂ (base.Alike after depth) ids copies

section Copy

variable {base heap grown after : Heap} {root id : NodeId} {depth : Nat}
  {others copies : List NodeId}

theorem Gathers.refl (base : Heap) (hlinked : heap.Linked) (root : NodeId) (depth : Nat) :
    Gathers base heap heap root depth [] [] :=
  ⟨hlinked, Nat.le_refl _, by rw [List.append_nil, Heap.children], fun _ _ _ => rfl, .nil⟩

theorem Clones.lone (hclones : Clones heap grown depth id) (hkind : heap.kind id ≠ .fragment) :
    grown.Lone heap.size where
  kind_ne := by rwa [hclones.alike.kind_eq]
  parentless := hclones.parentless

theorem Clones.child_new (hclones : Clones heap grown depth id) (hlinked : heap.Linked)
    {other child : NodeId} (hnew : heap.size ≤ other) (hchild : child ∈ grown.children other) :
    heap.size ≤ child ∧ child < grown.size := by
  refine ⟨Nat.not_lt.mp fun hlt => ?_, hclones.linked.child_lt_size hchild⟩
  have hparent := (hclones.linked.parent_iff other child).mpr hchild
  rw [parent?, hclones.cell_old child hlt] at hparent
  exact absurd (hlinked.parent_lt_size hparent) (Nat.not_lt.mpr hnew)

theorem Clones.gathers (hclones : Clones heap grown depth id) (hlinked : heap.Linked)
    (hbase : base.Linked) (hold : ∀ id < base.size, heap.cell id = base.cell id)
    (hid : id < base.size) (hkind : base.kind id ≠ .fragment) (hroot : root < heap.size)
    (hgathers : Gathers base (grown.append root heap.size) after root depth others copies) :
    Gathers base heap after root depth (id :: others) (heap.size :: copies) := by
  have hlone : grown.Lone heap.size := hclones.lone <| by
    rwa [Heap.kind, hold id hid]
  have hne : root ≠ heap.size := Nat.ne_of_lt hroot
  have hgrown : ∀ other < grown.size, other ≠ root → after.cell other =
      (grown.append root heap.size).cell other := by
    intro other hother hnot
    exact hgathers.cell_old other (by rwa [hlone.size_append hne]) hnot
  -- Below the copy only the link of its root with the parent is new.
  have hcopy : AgreeOn grown after fun other => heap.size ≤ other ∧ other < grown.size := by
    have hcells : ∀ other, heap.size ≤ other → other < grown.size →
        after.kind other = grown.kind other ∧ after.children other = grown.children other := by
      intro other hnew hbound
      have hnot : other ≠ root := Nat.ne_of_gt (Nat.lt_of_lt_of_le hroot hnew)
      have hcell := hgrown other hbound hnot
      by_cases hfirst : other = heap.size
      · rw [hfirst, hlone.cell_append_child hne hclones.size_lt] at hcell
        rw [hfirst, Heap.kind, Heap.children, hcell]
        exact ⟨rfl, rfl⟩
      · rw [hlone.cell_append_of_ne hne hfirst hnot] at hcell
        exact ⟨congrArg Cell.kind hcell, congrArg Cell.children hcell⟩
    exact ⟨fun other hother => (hcells other hother.1 hother.2).1,
      fun other hother => (hcells other hother.1 hother.2).2,
      fun other hother child hchild => hclones.child_new hlinked hother.1 hchild⟩
  constructor
  case linked => exact hgathers.linked
  case size_le =>
    have hsize := hgathers.size_le
    rw [hlone.size_append hne] at hsize
    exact Nat.le_trans (Nat.le_of_lt hclones.size_lt) hsize
  case cell_root =>
    rw [hgathers.cell_root, Heap.children, hlone.cell_append_parent hne
      (Nat.lt_trans hroot hclones.size_lt), hclones.cell_old root hroot, Heap.children,
      hclones.cell_old root hroot, List.append_assoc]
    rfl
  case cell_old =>
    intro other hother hnot
    rw [hgrown other (Nat.lt_trans hother hclones.size_lt) hnot,
      hlone.cell_append_of_ne hne (Nat.ne_of_lt hother) hnot, hclones.cell_old other hother]
  case alike =>
    refine .cons ?_ hgathers.alike
    exact hclones.alike.congr (AgreeOn.of_cell_eq hbase hold).symm hcopy hid
      ⟨Nat.le_refl _, hclones.size_lt⟩

theorem gathers_copies {ids : List NodeId}
    (hcopy : ∀ {made : Heap} (id : NodeId), made.Linked →
      Clones made (copy depth made id).2 depth id)
    (hbase : base.Linked) (hids : ∀ id ∈ ids, id < base.size ∧ base.kind id ≠ .fragment)
    (hlinked : heap.Linked) (hold : ∀ id < base.size, heap.cell id = base.cell id)
    (hbelow : base.size ≤ root) (hroot : root < heap.size) : ∃ copies,
    Gathers base heap (ids.foldl (fun heap id =>
      (copy depth heap id).2.append root (copy depth heap id).1) heap) root depth ids copies := by
  induction ids generalizing heap with
  | nil => exact ⟨[], .refl base hlinked root depth⟩
  | cons first others ih =>
      obtain ⟨⟨hfirst, hkind⟩, hothers⟩ := List.forall_mem_cons.mp hids
      have hbound : base.size < heap.size := Nat.lt_of_le_of_lt hbelow hroot
      have hclones := hcopy first hlinked
      have hlone : (copy depth heap first).2.Lone heap.size := hclones.lone <| by
        rwa [Heap.kind, hold first hfirst]
      have hne : root ≠ heap.size := Nat.ne_of_lt hroot
      have hcells : ∀ id < base.size,
          ((copy depth heap first).2.append root heap.size).cell id = base.cell id := by
        intro id hid
        rw [hlone.cell_append_of_ne hne (Nat.ne_of_lt (Nat.lt_trans hid hbound))
          (Nat.ne_of_lt (Nat.lt_of_lt_of_le hid hbelow)),
          hclones.cell_old id (Nat.lt_trans hid hbound), hold id hid]
      have hgrown : root < (copy depth heap first).2.size := Nat.lt_trans hroot hclones.size_lt
      obtain ⟨copies, hgathers⟩ := ih hothers
        (hclones.linked.insert none hgrown hclones.size_lt) hcells
        (by rwa [size_insert])
      rw [List.foldl_cons, (copies_copy hlinked depth first).root_eq]
      exact ⟨heap.size :: copies,
        hclones.gathers hlinked hbase hold hfirst hkind hroot hgathers⟩

theorem clones_create (hlinked : heap.Linked) (id : NodeId) :
    Clones heap (heap.create (heap.kind id)).2 0 id where
  linked := hlinked.create _
  size_lt := by simp
  cell_old := fun _ hother => cell_create_of_lt heap _ hother
  parentless := by rw [parent?, cell_create_self, Cell.fresh]
  alike := by rw [Alike, Heap.kind, cell_create_self, Cell.fresh]

/-- Copying makes a clone, at whatever depth it stops. -/
theorem clones_copy (hlinked : heap.Linked) (depth : Nat) (id : NodeId) :
    Clones heap (copy depth heap id).2 depth id := by
  induction depth generalizing heap id with
  | zero => exact clones_create hlinked id
  | succ depth ih =>
      have hmade := clones_create hlinked id
      obtain ⟨copies, hgathers⟩ := gathers_copies
        (fun child hmade => ih hmade child) hlinked
        (fun child hchild => ⟨hlinked.child_lt_size hchild, hlinked.kind_ne_fragment hchild⟩)
        hmade.linked hmade.cell_old (Nat.le_refl _) hmade.size_lt
      have hcell : (copy (depth + 1) heap id).2.cell heap.size = ⟨heap.kind id, none, copies⟩ := by
        refine hgathers.cell_root.trans ?_
        rw [Heap.children, cell_create_self]
        rfl
      constructor
      case linked => exact hgathers.linked
      case size_lt => exact Nat.lt_of_lt_of_le hmade.size_lt hgathers.size_le
      case cell_old =>
        intro other hother
        exact (hgathers.cell_old other (Nat.lt_trans hother hmade.size_lt)
          (Nat.ne_of_lt hother)).trans (hmade.cell_old other hother)
      case parentless => rw [parent?, hcell]
      case alike =>
        have hchildren : (copy (depth + 1) heap id).2.children heap.size = copies := by
          rw [Heap.children, hcell]
        refine ⟨by rw [Heap.kind, hcell], ?_⟩
        rw [hchildren]
        exact hgathers.alike

end Copy

end MustacheHtml.Document.Heap
