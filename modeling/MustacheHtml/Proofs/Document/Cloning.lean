import MustacheHtml.Proofs.Document.Copying
import MustacheHtml.Proofs.Document.Moves

namespace MustacheHtml.Document

namespace Edit

/-- The nodes that an edit is applied to. Where something is inserted, the node it is put before is
none of them. -/
def targets : Edit → List NodeId
  | perform (.appendChild parent child) => [parent, child]
  | perform (.insertBefore parent child _) => [parent, child]
  | perform (.removeChild parent child) => [parent, child]
  | perform (.setAttribute element _ _) => [element]
  | perform (.setText node _) => [node]
  | _ => []

/-- The edit is applied to nodes of the document, and to none of certain ones. -/
def Outside (within : NodeId → Prop) (heap : Heap) (edit : Edit) : Prop :=
  edit.OnNodes heap ∧ ∀ node ∈ edit.targets, ¬ within node

theorem follow_outside_of_subset {heap : Heap} {within reached : NodeId → Prop} {edits : List Edit}
    (hwithin : ∀ node, reached node → within node) (houtside : Follow (Outside within) heap edits) :
    Follow (Outside reached) heap edits :=
  houtside.mono fun _ _ hedit =>
    ⟨hedit.1, fun node hnode hreached => hedit.2 node hnode (hwithin node hreached)⟩

end Edit

namespace Heap

variable {heap after : Heap} {within : NodeId → Prop}

namespace AgreeOn

theorem insert {parent child : NodeId} (before : Option NodeId) (hlinked : heap.Linked)
    (hclosed : ∀ id, within id → ∀ child ∈ heap.children id, within child)
    (hparent : parent < heap.size) (hchild : child < heap.size) (houtParent : ¬ within parent)
    (houtChild : ¬ within child) : AgreeOn heap (heap.insert parent child before) within where
  kind_eq := fun _ _ => kind_insert parent child before
  children_eq := by
    intro id hid
    by_cases hne : parent = child
    · rw [Heap.insert, if_pos hne]
    · have hlink : heap.parent? child ≠ some id := fun hlink =>
        houtChild (hclosed id hid child ((hlinked.parent_iff id child).mp hlink))
      rw [hlinked.children_insert before hne hparent hchild,
        if_neg (show id ≠ parent from fun hsame => houtParent (hsame ▸ hid)),
        hlinked.filter_moved_eq_self hlink fun hsame => houtChild (hsame.1 ▸ hid)]
  closed := hclosed

theorem remove {child : NodeId} (hlinked : heap.Linked)
    (hclosed : ∀ id, within id → ∀ child ∈ heap.children id, within child) (parent : NodeId)
    (houtChild : ¬ within child) : AgreeOn heap (heap.remove parent child) within := by
  rw [Heap.remove]
  split
  case isFalse => exact refl hclosed
  case isTrue =>
    refine ⟨fun _ _ => kind_detach, fun id hid => ?_, hclosed⟩
    rw [hlinked.children_detach]
    refine List.filter_eq_self.mpr fun other hother => decide_eq_true ?_
    rintro rfl
    exact houtChild (hclosed id hid other hother)

/-- An edit changes nothing at nodes that it is not applied to. -/
theorem apply {edit : Edit} (hlinked : heap.Linked) (hbound : ∀ id, within id → id < heap.size)
    (hclosed : ∀ id, within id → ∀ child ∈ heap.children id, within child)
    (houtside : edit.Outside within heap) : AgreeOn heap (edit.apply heap) within := by
  obtain ⟨hnodes, htargets⟩ := houtside
  have of_cell : (∀ id, within id → (edit.apply heap).cell id = heap.cell id) →
      AgreeOn heap (edit.apply heap) within := fun hcell =>
    ⟨fun id hid => congrArg Cell.kind (hcell id hid),
      fun id hid => congrArg Cell.children (hcell id hid), hclosed⟩
  cases edit with
  | deepClone node =>
      exact of_cell fun id hid => (clones_copy hlinked heap.size node).cell_old id (hbound id hid)
  | perform operation =>
      cases operation with
      | createFragment => exact of_cell fun id hid => cell_create_of_lt heap _ (hbound id hid)
      | createText content => exact of_cell fun id hid => cell_create_of_lt heap _ (hbound id hid)
      | createElement tag => exact of_cell fun id hid => cell_create_of_lt heap _ (hbound id hid)
      | parseFragment markup =>
          obtain ⟨-, placed, -, hstands⟩ := heap.parseFragment_stands markup
          exact of_cell fun id hid => hstands.cell_old id (hbound id hid)
      | setAttribute element name value =>
          refine of_cell fun id hid => cell_setAttribute_of_ne name value ?_
          rintro rfl
          exact htargets id (List.mem_singleton_self id) hid
      | setText node content =>
          refine of_cell fun id hid => cell_setText_of_ne content ?_
          rintro rfl
          exact htargets id (List.mem_singleton_self id) hid
      | appendChild parent child =>
          obtain ⟨hparent, hchild⟩ := hnodes (parent, child) rfl
          exact insert none hlinked hclosed hparent hchild
            (htargets parent List.mem_cons_self) (htargets child (by simp [Edit.targets]))
      | insertBefore parent child before =>
          obtain ⟨hparent, hchild⟩ := hnodes (parent, child) rfl
          exact insert before hlinked hclosed hparent hchild
            (htargets parent List.mem_cons_self) (htargets child (by simp [Edit.targets]))
      | removeChild parent child =>
          exact remove hlinked hclosed parent (htargets child (by simp [Edit.targets]))

theorem edited {edits : List Edit} (hlinked : heap.Linked)
    (hbound : ∀ id, within id → id < heap.size)
    (hclosed : ∀ id, within id → ∀ child ∈ heap.children id, within child)
    (houtside : Edit.Follow (Edit.Outside within) heap edits) :
    AgreeOn heap (heap.edited edits) within ∧ heap.size ≤ (heap.edited edits).size := by
  induction edits generalizing heap with
  | nil => exact ⟨refl hclosed, Nat.le_refl _⟩
  | cons edit rest ih =>
      obtain ⟨hedit, hrest⟩ := houtside
      have hagree := apply hlinked hbound hclosed hedit
      have hsize := Edit.size_le_apply hlinked edit
      obtain ⟨hagreeRest, hsizeRest⟩ := ih (Edit.linked_apply hlinked hedit.1)
        (fun id hid => Nat.lt_of_lt_of_le (hbound id hid) hsize) hagree.symm.closed hrest
      exact ⟨hagree.trans hagreeRest, Nat.le_trans hsize hsizeRest⟩

theorem html_eq {id : NodeId} (hagree : AgreeOn heap after within) (hid : within id)
    (hlinked : heap.Linked) (hacyclic : heap.Acyclic) (hbound : id < heap.size)
    (hsize : heap.size ≤ after.size) :
    after.outerHtml id = heap.outerHtml id ∧ after.innerHtml id = heap.innerHtml id :=
  Alike.html_eq (fun depth => (Alike.refl heap depth id).congr (refl hagree.closed) hagree hid hid)
    hlinked hacyclic hbound hsize

end AgreeOn

/-- The root is the first of the new nodes that a node and all that is below it have been copied
to, and the document has not changed otherwise. -/
structure IsClone (heap after : Heap) (id root : NodeId) : Prop where
  parentless : after.parent? root = none
  alike : ∀ depth, heap.Alike after depth id root
  fresh : ∀ node, after.Reaches root node → heap.size ≤ node ∧ node < after.size
  old : ∀ node, after.Reaches id node → node < heap.size
  linked : after.Linked
  acyclic : after.Acyclic
  cell_old : ∀ node < heap.size, after.cell node = heap.cell node

theorem deepClone_isClone {id : NodeId} (hlinked : heap.Linked) (hacyclic : heap.Acyclic)
    (hid : id < heap.size) : heap.IsClone (heap.deepClone id).2 id (heap.deepClone id).1 := by
  have hclones : Clones heap (heap.deepClone id).2 heap.size id :=
    clones_copy hlinked heap.size id
  have hcopies : Copies heap id (heap.deepClone id) := copies_copy hlinked heap.size id
  rw [hcopies.root_eq]
  constructor
  case parentless => exact hclones.parentless
  case alike =>
    -- The copy goes deeper down than there are nodes below the node.
    exact hclones.alike.of_card_below_lt hlinked hacyclic (hacyclic.card_below_lt_size hid)
  case fresh =>
    intro node hreaches
    exact hreaches.within ⟨Nat.le_refl _, hclones.size_lt⟩ fun id hid child hchild =>
      hclones.child_new hlinked hid.1 hchild
  case old =>
    intro node hreaches
    rw [(AgreeOn.of_cell_eq hlinked hclones.cell_old).reaches_iff hid] at hreaches
    exact hlinked.lt_size_of_reaches hid hreaches
  case linked => exact hclones.linked
  case acyclic => exact hcopies.grown.acyclic hlinked hacyclic
  case cell_old => exact hclones.cell_old

/-- A clone is a copy of the node that stands apart: it shows the same, and what is done to other
nodes than those of one of the two leaves that one as it was. -/
theorem deepClone_stands_apart {id : NodeId} (hlinked : heap.Linked) (hacyclic : heap.Acyclic)
    (hid : id < heap.size) : ∃ root after, heap.deepClone id = (root, after) ∧
      heap.IsClone after id root ∧
      (after.outerHtml root = heap.outerHtml id ∧ after.innerHtml root = heap.innerHtml id) ∧
      ∀ side, side = id ∨ side = root → ∀ edits,
        Edit.Follow (Edit.Outside (after.Reaches side)) after edits →
          (after.edited edits).outerHtml side = heap.outerHtml id ∧
            (after.edited edits).innerHtml side = heap.innerHtml id := by
  obtain ⟨⟨root, after⟩, hmade⟩ : ∃ made, heap.deepClone id = made := ⟨_, rfl⟩
  have hclone : heap.IsClone after id root := by
    have hclone := deepClone_isClone hlinked hacyclic hid
    rwa [hmade] at hclone
  have hroot := hclone.fresh root .refl
  have hsize : heap.size ≤ after.size := Nat.le_of_lt (Nat.lt_of_le_of_lt hroot.1 hroot.2)
  have hcopied := Alike.html_eq hclone.alike hlinked hacyclic hid hsize
  refine ⟨root, after, hmade, hclone, hcopied, fun side hside edits houtside => ?_⟩
  have hbound : side < after.size := by
    rcases hside with rfl | rfl
    · exact Nat.lt_of_lt_of_le hid hsize
    · exact hroot.2
  have hsame : after.outerHtml side = heap.outerHtml id ∧
      after.innerHtml side = heap.innerHtml id := by
    rcases hside with rfl | rfl
    · exact (AgreeOn.of_cell_eq hlinked hclone.cell_old).html_eq hid hlinked hacyclic hid hsize
    · exact hcopied
  obtain ⟨hagree, hgrown⟩ := AgreeOn.edited hclone.linked
    (fun node hreaches => hclone.linked.lt_size_of_reaches hbound hreaches)
    (fun node hreaches child hchild => hreaches.tail hchild) houtside
  have hkept := hagree.html_eq .refl hclone.linked hclone.acyclic hbound hgrown
  exact ⟨hkept.1.trans hsame.1, hkept.2.trans hsame.2⟩

end Heap

theorem deepClone_stands_apart_menu : let heap := Heap.empty.edited menuEdits
    let after := (heap.deepClone 3).2
    let original : List Edit := [.perform (.setText 6 "5"), .perform (.appendChild 0 3)]
    let copied : List Edit :=
      [.perform (.setAttribute 8 "a" "b"), .perform (.insertBefore 0 7 (some 2))]
    heap.Linked ∧ heap.Acyclic ∧ 3 < heap.size ∧ heap.IsClone after 3 7 ∧
      Edit.Follow (Edit.Outside (after.Reaches 7)) after original ∧
      Edit.Follow (Edit.Outside (after.Reaches 3)) after copied ∧
      (after.edited original).outerHtml 0 = "<ul>12<li>3</li>5</ul>" ∧
      (after.edited original).outerHtml 7 = "<li>3</li>4" ∧
      (after.edited copied).outerHtml 0 = "<ul>1<li a=\"b\">3</li>42</ul>" ∧
      (after.edited copied).outerHtml 3 = "<li>3</li>4" := by
  intro heap after original copied
  have hnodes : Edit.Follow Edit.OnNodes .empty menuEdits := by decide +kernel
  have hroots : Edit.Follow Edit.IntoRoots .empty menuEdits := by decide +kernel
  obtain ⟨hlinked, hacyclic⟩ : heap.Linked ∧ heap.Acyclic :=
    Edit.linked_and_acyclic_of_intoRoots hnodes hroots
  have hid : 3 < heap.size := by decide +kernel
  have hhtml : heap.outerHtml 3 = "<li>3</li>4" := by decide +kernel
  obtain ⟨root, made, hmade, hclone, -, hapart⟩ :=
    Heap.deepClone_stands_apart hlinked hacyclic hid
  obtain rfl : after = made := congrArg Prod.snd hmade
  obtain rfl : 7 = root := by
    refine Eq.trans ?_ (congrArg Prod.fst hmade)
    decide +kernel
  have horiginal : Edit.Follow (Edit.Outside (after.Reaches 7)) after original := by
    refine Edit.follow_outside_of_subset (fun node hreaches => (hclone.fresh node hreaches).1) ?_
    exact ⟨⟨by decide +kernel, by decide +kernel⟩, ⟨by decide +kernel, by decide +kernel⟩, trivial⟩
  have hcopied : Edit.Follow (Edit.Outside (after.Reaches 3)) after copied := by
    have hclosed : ∀ id < 7, 3 ≤ id → ∀ child ∈ after.children id, 3 ≤ child ∧ child < 7 := by
      decide +kernel
    have hwithin : ∀ node, after.Reaches 3 node → 3 ≤ node ∧ node < 7 := fun node hreaches =>
      hreaches.within ⟨by decide, by decide⟩ fun id hid => hclosed id hid.2 hid.1
    refine Edit.follow_outside_of_subset hwithin ?_
    exact ⟨⟨by decide +kernel, by decide⟩, ⟨by decide +kernel, by decide⟩, trivial⟩
  exact ⟨hlinked, hacyclic, hid, hclone, horiginal, hcopied, by decide +kernel,
    (hapart 7 (.inr rfl) original horiginal).1.trans hhtml, by decide +kernel,
    (hapart 3 (.inl rfl) copied hcopied).1.trans hhtml⟩

end MustacheHtml.Document
