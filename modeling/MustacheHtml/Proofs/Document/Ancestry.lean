import Mathlib.Logic.Relation
import MustacheHtml.Proofs.Document.Linked
import MustacheHtml.Proofs.Tree

namespace MustacheHtml.Document.Heap

open Relation

/-- One step up in the document. -/
def ChildOf (heap : Heap) (child parent : NodeId) : Prop :=
  heap.parent? child = some parent

/-- No node is its own ancestor. -/
def Acyclic (heap : Heap) : Prop :=
  ∀ id, ¬ TransGen heap.ChildOf id id

/-- Nothing that moves with the child is the parent or an ancestor of it. -/
def Apart (heap : Heap) (parent child : NodeId) : Prop :=
  ∀ id ∈ heap.moved child, ¬ ReflTransGen heap.ChildOf parent id

theorem apart_of_parentless {heap : Heap} {parent child : NodeId}
    (hparent : heap.parent? parent = none) (hchild : parent ∉ heap.moved child) :
    heap.Apart parent child := by
  intro id hid hpath
  rcases hpath.cases_head with rfl | ⟨above, hstep, -⟩
  · exact hchild hid
  · rw [ChildOf, hparent] at hstep
    cases hstep

section Insert

variable {heap : Heap} {parent child : NodeId}

theorem Acyclic.insert (hacyclic : heap.Acyclic) (hlinked : heap.Linked)
    (before : Option NodeId) (hne : parent ≠ child) (hchild : child < heap.size)
    (hapart : heap.Apart parent child) : (heap.insert parent child before).Acyclic := by
  let after := heap.insert parent child before
  have hedge : ∀ {low high}, after.ChildOf low high →
      low ∈ heap.moved child ∧ high = parent ∨ heap.ChildOf low high := by
    intro low high hstep
    rw [ChildOf, hlinked.parent?_insert before hne hchild] at hstep
    split at hstep
    · next hmoved => exact .inl ⟨hmoved, (Option.some.inj hstep).symm⟩
    · exact .inr hstep
  -- Above the new parent nothing has changed, since nothing that moves stands there.
  have habove : ∀ {id}, ReflTransGen after.ChildOf parent id →
      ReflTransGen heap.ChildOf parent id := by
    intro id hpath
    induction hpath with
    | refl => exact .refl
    | tail _ hstep ih =>
        rcases hedge hstep with ⟨hmoved, -⟩ | hold
        · exact absurd ih (hapart _ hmoved)
        · exact ih.tail hold
  have hnever : ∀ {id}, id ∈ heap.moved child → ¬ ReflTransGen after.ChildOf parent id :=
    fun hmoved hpath => hapart _ hmoved (habove hpath)
  -- Hence a way that comes back to where it began uses no new link.
  have hback : ∀ {id last}, TransGen after.ChildOf id last → ReflTransGen after.ChildOf last id →
      TransGen heap.ChildOf id last := by
    intro id last hpath
    induction hpath with
    | single hstep =>
        intro hreturn
        rcases hedge hstep with ⟨hmoved, rfl⟩ | hold
        · exact absurd hreturn (hnever hmoved)
        · exact .single hold
    | tail hpath hstep ih =>
        intro hreturn
        rcases hedge hstep with ⟨hmoved, rfl⟩ | hold
        · exact absurd (hreturn.trans hpath.to_reflTransGen) (hnever hmoved)
        · exact (ih (hreturn.head hstep)).tail hold
  intro id hcycle
  exact hacyclic id (hback hcycle .refl)

theorem Acyclic.detach (hacyclic : heap.Acyclic) (id : NodeId) : (heap.detach id).Acyclic := by
  have hedge : ∀ low high, (heap.detach id).ChildOf low high → heap.ChildOf low high := by
    intro low high hstep
    rw [ChildOf, parent?_detach] at hstep
    split at hstep
    · cases hstep
    · exact hstep
  exact fun other hcycle => hacyclic other (TransGen.mono hedge _ _ hcycle)

end Insert

/-- New nodes have been made. Each has been put below an older one if it has a parent, and no older
node has moved. -/
structure Extends (heap after : Heap) : Prop where
  linked : after.Linked
  size_le : heap.size ≤ after.size
  fragment_iff : ∀ id < heap.size, after.kind id = .fragment ↔ heap.kind id = .fragment
  parent_old : ∀ id < heap.size, after.parent? id = heap.parent? id
  parent_new : ∀ id parent, heap.size ≤ id → after.parent? id = some parent → parent < id

namespace Extends

variable {heap middle after : Heap} {parent child : NodeId}

theorem refl (hlinked : heap.Linked) : Extends heap heap where
  linked := hlinked
  size_le := Nat.le_refl _
  fragment_iff := fun _ _ => Iff.rfl
  parent_old := fun _ _ => rfl
  parent_new := by
    intro id parent hid hlink
    rw [parent?_of_size_le hid] at hlink
    cases hlink

theorem trans (hfirst : Extends heap middle) (hsecond : Extends middle after) :
    Extends heap after where
  linked := hsecond.linked
  size_le := Nat.le_trans hfirst.size_le hsecond.size_le
  fragment_iff := by
    intro id hid
    rw [hsecond.fragment_iff id (Nat.lt_of_lt_of_le hid hfirst.size_le), hfirst.fragment_iff id hid]
  parent_old := by
    intro id hid
    rw [hsecond.parent_old id (Nat.lt_of_lt_of_le hid hfirst.size_le), hfirst.parent_old id hid]
  parent_new := by
    intro id parent hid hlink
    by_cases hold : id < middle.size
    · rw [hsecond.parent_old id hold] at hlink
      exact hfirst.parent_new id parent hid hlink
    · exact hsecond.parent_new id parent (Nat.not_lt.mp hold) hlink

theorem acyclic (hextends : Extends heap after) (hlinked : heap.Linked)
    (hacyclic : heap.Acyclic) : after.Acyclic := by
  have hold : ∀ {id high}, id < heap.size → TransGen after.ChildOf id high →
      TransGen heap.ChildOf id high ∧ high < heap.size := by
    intro id high hid hpath
    induction hpath with
    | single hstep =>
        rw [ChildOf, hextends.parent_old id hid] at hstep
        exact ⟨.single hstep, hlinked.parent_lt_size hstep⟩
    | tail _ hstep ih =>
        rw [ChildOf, hextends.parent_old _ ih.2] at hstep
        exact ⟨ih.1.tail hstep, hlinked.parent_lt_size hstep⟩
  have hnew : ∀ {id high}, heap.size ≤ id → TransGen after.ChildOf id high → high < id := by
    intro id high hid hpath
    induction hpath with
    | single hstep => exact hextends.parent_new _ _ hid hstep
    | @tail middle high _ hstep ih =>
        by_cases hmiddle : middle < heap.size
        · exact Nat.lt_of_lt_of_le (hold hmiddle (.single hstep)).2 hid
        · exact Nat.lt_trans (hextends.parent_new _ _ (Nat.not_lt.mp hmiddle) hstep) ih
  intro id hcycle
  by_cases hid : id < heap.size
  · exact hacyclic id (hold hid hcycle).1
  · exact Nat.lt_irrefl id (hnew (Nat.not_lt.mp hid) hcycle)

theorem create (hlinked : heap.Linked) (kind : Kind) : Extends heap (heap.create kind).2 where
  linked := hlinked.create kind
  size_le := by simp
  fragment_iff := by
    intro id hid
    rw [Heap.kind, cell_create_of_lt _ _ hid, Heap.kind]
  parent_old := fun _ _ => parent?_create kind
  parent_new := by
    intro id parent hid hlink
    rw [parent?_create, parent?_of_size_le hid] at hlink
    cases hlink

theorem of_parent?_eq (hlinked : after.Linked) (hsize : after.size = heap.size)
    (hkind : ∀ id, after.kind id = .fragment ↔ heap.kind id = .fragment)
    (hparent : ∀ id, after.parent? id = heap.parent? id) : Extends heap after where
  linked := hlinked
  size_le := Nat.le_of_eq hsize.symm
  fragment_iff := fun id _ => hkind id
  parent_old := fun id _ => hparent id
  parent_new := by
    intro id parent hid hlink
    rw [hparent, parent?_of_size_le hid] at hlink
    cases hlink

theorem setAttribute (hlinked : heap.Linked) (id : NodeId) (name value : String) :
    Extends heap (heap.setAttribute id name value) :=
  of_parent?_eq (hlinked.setAttribute id name value) (size_setAttribute _ _ _ _)
    (fun _ => kind_setAttribute_eq_fragment name value) fun _ => parent?_setAttribute name value

theorem setText (hlinked : heap.Linked) (id : NodeId) (content : String) :
    Extends heap (heap.setText id content) :=
  of_parent?_eq (hlinked.setText id content) (size_setText _ _ _)
    (fun _ => kind_setText_eq_fragment content) fun _ => parent?_setText content

theorem setAttributes (hextends : Extends heap middle) (id : NodeId) (attributes : Attributes) :
    Extends heap
      (attributes.foldl (fun made attr => made.setAttribute id attr.1 attr.2) middle) := by
  induction attributes generalizing middle with
  | nil => exact hextends
  | cons attr rest ih => exact ih (hextends.trans (setAttribute hextends.linked id attr.1 attr.2))

theorem append (hextends : Extends heap middle) (hnew : heap.size ≤ child)
    (hchild : child < middle.size) (hlt : parent < child)
    (hkind : middle.kind child ≠ .fragment) : Extends heap (middle.append parent child) := by
  have hmoved : middle.moved child = [child] := by simp [moved, isFragment, hkind]
  have hparent : ∀ id, (middle.append parent child).parent? id =
      if id = child then some parent else middle.parent? id := by
    intro id
    rw [Heap.append, hextends.linked.parent?_insert none (Nat.ne_of_lt hlt) hchild, hmoved]
    simp
  constructor
  case linked => exact hextends.linked.insert none (Nat.lt_trans hlt hchild) hchild
  case size_le => simpa [Heap.append] using hextends.size_le
  case fragment_iff =>
    intro id hid
    rw [Heap.append, kind_insert, hextends.fragment_iff id hid]
  case parent_old =>
    intro id hid
    rw [hparent, if_neg (Nat.ne_of_lt (Nat.lt_of_lt_of_le hid hnew)), hextends.parent_old id hid]
  case parent_new =>
    intro id above hid hlink
    rw [hparent] at hlink
    split at hlink
    · next hsame =>
        cases hlink
        exact hsame ▸ hlt
    · exact hextends.parent_new id above hid hlink

theorem plantAll {forest : Forest} (hlinked : heap.Linked) (hparent : parent < heap.size) :
    Extends heap (heap.plantAll parent forest) := by
  induction forest using Tree.forest_induction generalizing heap parent with
  | nil => exact refl hlinked
  | text content rest ih =>
      have hmade := create hlinked (.text content)
      have hfirst : Extends heap (heap.plant parent (.text content)) :=
        hmade.append (Nat.le_refl _) (by simp) hparent (by simp [Heap.kind, Cell.fresh])
      exact hfirst.trans (ih hfirst.linked (Nat.lt_of_lt_of_le hparent hfirst.size_le))
  | element tag attributes children rest ihChildren ih =>
      have hmade := create hlinked (.element tag [])
      have hnew : heap.size < (heap.create (.element tag [])).2.size := by simp
      have hnamed := (refl hmade.linked).setAttributes heap.size attributes
      have hbelow := ihChildren hnamed.linked (Nat.lt_of_lt_of_le hnew hnamed.size_le)
      have hgrown := hnamed.trans hbelow
      have hfirst : Extends heap (heap.plant parent (.element tag attributes children)) := by
        refine (hmade.trans hgrown).append (Nat.le_refl _) ?_ hparent ?_
        · exact Nat.lt_of_lt_of_le hnew hgrown.size_le
        · rw [ne_eq, hgrown.fragment_iff _ hnew]
          simp [Heap.kind, Cell.fresh]
      exact hfirst.trans (ih hfirst.linked (Nat.lt_of_lt_of_le hparent hfirst.size_le))

theorem parseFragment (hlinked : heap.Linked) (markup : String) :
    Extends heap (heap.parseFragment markup).2 := by
  have hmade := create hlinked .fragment
  exact hmade.trans (plantAll hmade.linked (by simp))

end Extends

/-- A node has been copied. The copy is the first of the new nodes, and a fragment only if the node
is one. -/
structure Copies (heap : Heap) (id : NodeId) (made : NodeId × Heap) : Prop where
  root_eq : made.1 = heap.size
  grown : Extends heap made.2
  root_lt : heap.size < made.2.size
  fragment_iff : made.2.kind heap.size = .fragment ↔ heap.kind id = .fragment

theorem Extends.appendCopies {copyOf : Heap → NodeId → NodeId × Heap} {heap : Heap}
    {root : NodeId} {ids : List NodeId}
    (hcopy : ∀ {made : Heap} (id : NodeId), made.Linked → Copies made id (copyOf made id))
    (hlinked : heap.Linked) (hroot : root < heap.size)
    (hids : ∀ id ∈ ids, id < heap.size ∧ heap.kind id ≠ .fragment) :
    Extends heap (ids.foldl (fun heap id => (copyOf heap id).2.append root (copyOf heap id).1)
      heap) := by
  induction ids generalizing heap with
  | nil => exact refl hlinked
  | cons first others ih =>
      obtain ⟨hfirst, hothers⟩ := List.forall_mem_cons.mp hids
      have hcopied := hcopy first hlinked
      have hstep : Extends heap ((copyOf heap first).2.append root (copyOf heap first).1) := by
        rw [hcopied.root_eq]
        refine hcopied.grown.append (Nat.le_refl _) hcopied.root_lt hroot ?_
        rw [ne_eq, hcopied.fragment_iff]
        exact hfirst.2
      refine hstep.trans (ih hstep.linked (Nat.lt_of_lt_of_le hroot hstep.size_le) ?_)
      intro id hid
      obtain ⟨hbound, hkind⟩ := hothers id hid
      rw [ne_eq, hstep.fragment_iff id hbound]
      exact ⟨Nat.lt_of_lt_of_le hbound hstep.size_le, hkind⟩

theorem copies_create {heap : Heap} (hlinked : heap.Linked) (id : NodeId) :
    Copies heap id (heap.create (heap.kind id)) where
  root_eq := rfl
  grown := Extends.create hlinked _
  root_lt := by simp
  fragment_iff := by rw [kind, cell_create_self, Cell.fresh]

theorem copies_copy {heap : Heap} (hlinked : heap.Linked) (depth : Nat) (id : NodeId) :
    Copies heap id (copy depth heap id) := by
  induction depth generalizing heap id with
  | zero => exact copies_create hlinked id
  | succ depth ih =>
      have hroot := copies_create hlinked id
      have hchildren : ∀ child ∈ heap.children id,
          child < (heap.create (heap.kind id)).2.size ∧
            (heap.create (heap.kind id)).2.kind child ≠ .fragment := by
        intro child hchild
        have hbound := hlinked.child_lt_size hchild
        rw [ne_eq, hroot.grown.fragment_iff child hbound]
        exact ⟨Nat.lt_trans hbound hroot.root_lt, hlinked.kind_ne_fragment hchild⟩
      have hgrown := Extends.appendCopies (fun child hmade => ih hmade child) hroot.grown.linked
        hroot.root_lt hchildren
      refine ⟨rfl, hroot.grown.trans hgrown, Nat.lt_of_lt_of_le hroot.root_lt hgrown.size_le, ?_⟩
      exact (hgrown.fragment_iff _ hroot.root_lt).trans hroot.fragment_iff

end MustacheHtml.Document.Heap
