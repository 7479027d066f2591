import MustacheHtml.Document.World
import MustacheHtml.Proofs.Document.Ancestry

namespace MustacheHtml.Document

/-- The document after an operation has taken place. -/
def Operation.apply (heap : Heap) : Operation → Heap
  | createFragment => (heap.create .fragment).2
  | createText content => (heap.create (.text content)).2
  | createElement tag => (heap.create (.element tag [])).2
  | appendChild parent child => heap.append parent child
  | setAttribute element name value => heap.setAttribute element name value
  | parseFragment markup => (heap.parseFragment markup).2
  | setText node content => heap.setText node content
  | insertBefore parent child before => heap.insert parent child before
  | removeChild parent child => heap.remove parent child

/-- Anything that changes a document. -/
inductive Edit where
  | perform (operation : Operation)
  | deepClone (node : NodeId)
deriving DecidableEq, Repr

namespace Edit

/-- The document after an edit. -/
def apply (heap : Heap) : Edit → Heap
  | perform operation => operation.apply heap
  | deepClone node => (heap.deepClone node).2

/-- The node that something is inserted into, and the node that is inserted. -/
def insertion? : Edit → Option (NodeId × NodeId)
  | perform (.appendChild parent child) => some (parent, child)
  | perform (.insertBefore parent child _) => some (parent, child)
  | _ => none

/-- What is inserted and what it is inserted into are nodes of the document. -/
def OnNodes (heap : Heap) (edit : Edit) : Prop :=
  ∀ move ∈ edit.insertion?, move.1 < heap.size ∧ move.2 < heap.size

/-- Nothing is put below itself. A node that is inserted into itself stays where it is. -/
def PutsApart (heap : Heap) (edit : Edit) : Prop :=
  ∀ move ∈ edit.insertion?, move.1 ≠ move.2 → heap.Apart move.1 move.2

instance (heap : Heap) (edit : Edit) : Decidable (edit.OnNodes heap) :=
  inferInstanceAs (Decidable (∀ move ∈ edit.insertion?, move.1 < heap.size ∧ move.2 < heap.size))

end Edit

/-- The document after some edits. -/
def Heap.edited (heap : Heap) (edits : List Edit) : Heap :=
  edits.foldl Edit.apply heap

/-- Each edit is allowed in the document in which it takes place. -/
def Edit.Follow (allowed : Heap → Edit → Prop) : Heap → List Edit → Prop
  | _, [] => True
  | heap, edit :: rest => allowed heap edit ∧ Follow allowed (edit.apply heap) rest

instance Edit.decidableFollow {allowed : Heap → Edit → Prop}
    [∀ heap edit, Decidable (allowed heap edit)] :
    ∀ heap edits, Decidable (Edit.Follow allowed heap edits)
  | _, [] => inferInstanceAs (Decidable True)
  | heap, edit :: rest =>
      have : Decidable (Edit.Follow allowed (edit.apply heap) rest) := decidableFollow _ rest
      inferInstanceAs (Decidable (_ ∧ _))

/-- Parents and children tell the same; no node stands twice among all children; fragments stand
nowhere; and no element has two attributes of one name. -/
structure Heap.IsForest (heap : Heap) : Prop where
  parent_iff : ∀ parent child, heap.parent? child = some parent ↔ child ∈ heap.children parent
  once : ((List.range heap.size).flatMap heap.children).Nodup
  fragment : ∀ id, heap.kind id = .fragment →
    heap.parent? id = none ∧ ∀ parent, id ∉ heap.children parent
  names : ∀ id tag attributes, heap.kind id = .element tag attributes →
    (attributes.map (·.1)).Nodup

variable {heap : Heap}

theorem Heap.Linked.isForest (hlinked : heap.Linked) (hnames : heap.NamesDistinct) :
    heap.IsForest where
  parent_iff := hlinked.parent_iff
  once := hlinked.placements_nodup
  fragment := by
    intro id hkind
    exact ⟨hlinked.parentless id hkind, fun parent hchild => hlinked.kind_ne_fragment hchild hkind⟩
  names := hnames

namespace Edit

section Steps

variable {edit : Edit}

/-- An edit makes nodes or changes what they say, or it inserts a node, or it removes one. -/
theorem apply_cases (hlinked : heap.Linked) (edit : Edit) :
    heap.Extends (edit.apply heap) ∨
      (∃ parent child before, edit.insertion? = some (parent, child) ∧
        edit.apply heap = heap.insert parent child before) ∨
      ∃ parent child, edit.apply heap = heap.remove parent child := by
  cases edit with
  | deepClone node => exact .inl (Heap.copies_copy hlinked heap.size node).grown
  | perform operation =>
      cases operation with
      | createFragment => exact .inl (.create hlinked _)
      | createText content => exact .inl (.create hlinked _)
      | createElement tag => exact .inl (.create hlinked _)
      | appendChild parent child => exact .inr (.inl ⟨parent, child, none, rfl, rfl⟩)
      | setAttribute element name value => exact .inl (.setAttribute hlinked element name value)
      | parseFragment markup => exact .inl (.parseFragment hlinked markup)
      | setText node content => exact .inl (.setText hlinked node content)
      | insertBefore parent child before => exact .inr (.inl ⟨parent, child, before, rfl, rfl⟩)
      | removeChild parent child => exact .inr (.inr ⟨parent, child, rfl⟩)

theorem linked_apply (hlinked : heap.Linked) (hnodes : edit.OnNodes heap) :
    (edit.apply heap).Linked := by
  rcases apply_cases hlinked edit with
    hextends | ⟨parent, child, before, hinsertion, hinsert⟩ | ⟨parent, child, hremove⟩
  · exact hextends.linked
  · obtain ⟨hparent, hchild⟩ := hnodes (parent, child) hinsertion
    rw [hinsert]
    exact hlinked.insert before hparent hchild
  · rw [hremove]
    exact hlinked.remove parent child

theorem size_le_apply (hlinked : heap.Linked) (edit : Edit) :
    heap.size ≤ (edit.apply heap).size := by
  rcases apply_cases hlinked edit with
    hextends | ⟨parent, child, before, -, hinsert⟩ | ⟨parent, child, hremove⟩
  · exact hextends.size_le
  · simp [hinsert]
  · simp [hremove]

theorem acyclic_apply (hacyclic : heap.Acyclic) (hlinked : heap.Linked)
    (hnodes : edit.OnNodes heap) (hapart : edit.PutsApart heap) : (edit.apply heap).Acyclic := by
  rcases apply_cases hlinked edit with
    hextends | ⟨parent, child, before, hinsertion, hinsert⟩ | ⟨parent, child, hremove⟩
  · exact hextends.acyclic hlinked hacyclic
  · rw [hinsert]
    by_cases hne : parent = child
    · rwa [Heap.insert, if_pos hne]
    · exact hacyclic.insert hlinked before hne (hnodes (parent, child) hinsertion).2
        (hapart (parent, child) hinsertion hne)
  · rw [hremove, Heap.remove]
    split
    · exact hacyclic.detach child
    · exact hacyclic

theorem namesDistinct_apply (hnames : heap.NamesDistinct) (edit : Edit) :
    (edit.apply heap).NamesDistinct := by
  cases edit with
  | deepClone node => exact hnames.copy heap.size node
  | perform operation =>
      cases operation with
      | createFragment => exact hnames.create nofun
      | createText content => exact hnames.create nofun
      | createElement tag =>
          refine hnames.create fun _ _ hkind => ?_
          cases hkind
          exact List.nodup_nil
      | appendChild parent child => exact hnames.insert parent child none
      | setAttribute element name value => exact hnames.setAttribute element name value
      | parseFragment markup => exact hnames.parseFragment markup
      | setText node content => exact hnames.setText node content
      | insertBefore parent child before => exact hnames.insert parent child before
      | removeChild parent child => exact hnames.remove parent child

end Steps

section Runs

variable {edits : List Edit}

theorem linked_edited (hlinked : heap.Linked) (hnames : heap.NamesDistinct)
    (hnodes : Follow OnNodes heap edits) :
    (heap.edited edits).Linked ∧ (heap.edited edits).NamesDistinct := by
  induction edits generalizing heap with
  | nil => exact ⟨hlinked, hnames⟩
  | cons edit rest ih =>
      exact ih (linked_apply hlinked hnodes.1) (namesDistinct_apply hnames edit) hnodes.2

theorem acyclic_edited (hacyclic : heap.Acyclic) (hlinked : heap.Linked)
    (hnodes : Follow OnNodes heap edits) (hapart : Follow PutsApart heap edits) :
    (heap.edited edits).Acyclic := by
  induction edits generalizing heap with
  | nil => exact hacyclic
  | cons edit rest ih =>
      exact ih (acyclic_apply hacyclic hlinked hnodes.1 hapart.1)
        (linked_apply hlinked hnodes.1) hnodes.2 hapart.2

theorem Follow.mono {allowed permitted : Heap → Edit → Prop}
    (hallowed : ∀ heap edit, allowed heap edit → permitted heap edit)
    (hfollow : Follow allowed heap edits) : Follow permitted heap edits := by
  induction edits generalizing heap with
  | nil => trivial
  | cons edit rest ih => exact ⟨hallowed heap edit hfollow.1, ih hfollow.2⟩

theorem Follow.of_prefix {allowed : Heap → Edit → Prop} {taken : List Edit}
    (hfollow : Follow allowed heap edits) (htaken : taken <+: edits) :
    Follow allowed heap taken := by
  induction taken generalizing heap edits with
  | nil => trivial
  | cons edit taken ih =>
      obtain ⟨rest, rfl⟩ := htaken
      exact ⟨hfollow.1, ih hfollow.2 (List.prefix_append taken rest)⟩

end Runs

end Edit

theorem Heap.acyclic_empty : Heap.empty.Acyclic := by
  intro id hcycle
  obtain ⟨above, hstep, -⟩ := Relation.TransGen.head'_iff.mp hcycle
  rw [Heap.ChildOf, Heap.parent?_of_size_le (Nat.zero_le id)] at hstep
  cases hstep

/-- After every step of a sequence of operations the document is a forest, and no node is its own
ancestor unless something has been put below itself. -/
theorem forest_after_edits {edits taken : List Edit}
    (hnodes : Edit.Follow Edit.OnNodes .empty edits) (htaken : taken <+: edits) :
    (Heap.empty.edited taken).IsForest ∧
      (Edit.Follow Edit.PutsApart .empty taken →
        ∀ id, ¬ Relation.TransGen (Heap.empty.edited taken).ChildOf id id) := by
  have htakenNodes := hnodes.of_prefix htaken
  obtain ⟨hlinked, hnames⟩ := Edit.linked_edited .empty .empty htakenNodes
  exact ⟨hlinked.isForest hnames, Edit.acyclic_edited Heap.acyclic_empty .empty htakenNodes⟩

/-- Everything is inserted into a node without a parent that does not move itself. -/
def Edit.IntoRoots (heap : Heap) (edit : Edit) : Prop :=
  ∀ move ∈ edit.insertion?, move.1 ≠ move.2 →
    heap.parent? move.1 = none ∧ move.1 ∉ heap.moved move.2

instance (heap : Heap) (edit : Edit) : Decidable (edit.IntoRoots heap) :=
  inferInstanceAs (Decidable (∀ move ∈ edit.insertion?, move.1 ≠ move.2 →
    heap.parent? move.1 = none ∧ move.1 ∉ heap.moved move.2))

theorem Edit.IntoRoots.putsApart {edit : Edit} (hroots : edit.IntoRoots heap) :
    edit.PutsApart heap := by
  intro move hmove hne
  obtain ⟨hparent, hchild⟩ := hroots move hmove hne
  exact Heap.apart_of_parentless hparent hchild

theorem Edit.linked_and_acyclic_of_intoRoots {edits : List Edit}
    (hnodes : Follow OnNodes .empty edits) (hroots : Follow IntoRoots .empty edits) :
    (Heap.empty.edited edits).Linked ∧ (Heap.empty.edited edits).Acyclic :=
  ⟨(linked_edited .empty .empty hnodes).1, acyclic_edited Heap.acyclic_empty .empty hnodes <|
    hroots.mono fun _ _ hedit => hedit.putsApart⟩

def listEdits : List Edit :=
  [.perform (.createElement "ul"), .perform (.createText "1"), .perform (.createText "3"),
    .perform (.appendChild 0 1), .perform (.appendChild 0 2),
    .perform (.parseFragment "<li a=b>2<li>tail"), .perform (.insertBefore 0 3 (some 2)),
    .perform (.appendChild 0 1), .perform (.insertBefore 0 2 (some 2)),
    .perform (.setAttribute 4 "a" "c"), .perform (.setText 5 "two"), .deepClone 0,
    .perform .createFragment, .perform (.appendChild 15 0), .perform (.appendChild 15 15),
    .perform (.removeChild 0 6)]

theorem forest_after_edits_list :
    Edit.Follow Edit.OnNodes .empty listEdits ∧ Edit.Follow Edit.PutsApart .empty listEdits ∧
      (Heap.empty.edited listEdits).IsForest ∧
      ∀ id, ¬ Relation.TransGen (Heap.empty.edited listEdits).ChildOf id id := by
  have hnodes : Edit.Follow Edit.OnNodes .empty listEdits := by decide +kernel
  have hroots : Edit.Follow Edit.IntoRoots .empty listEdits := by decide +kernel
  have hapart := hroots.mono fun _ _ hedit => hedit.putsApart
  obtain ⟨hforest, hacyclic⟩ := forest_after_edits hnodes List.prefix_rfl
  exact ⟨hnodes, hapart, hforest, hacyclic hapart⟩

end MustacheHtml.Document
