import Mathlib.Data.Finset.Card
import MustacheHtml.Document.View
import MustacheHtml.Proofs.Document.Ancestry

namespace MustacheHtml.Document.Heap

open Classical
open Relation

variable {heap : Heap} {id child : NodeId} {depth deeper : Nat} {ids : List NodeId}

/-- The nodes that have a node among their ancestors. -/
noncomputable def below (heap : Heap) (id : NodeId) : Finset NodeId :=
  {other ∈ Finset.range heap.size | TransGen heap.ChildOf other id}

theorem Acyclic.not_mem_below (hacyclic : heap.Acyclic) (id : NodeId) : id ∉ heap.below id := by
  intro hmem
  exact hacyclic id (Finset.mem_filter.mp hmem).2

theorem Acyclic.below_ssubset (hacyclic : heap.Acyclic) (hlinked : heap.Linked)
    (hchild : child ∈ heap.children id) : heap.below child ⊂ heap.below id := by
  have hstep : heap.ChildOf child id := (hlinked.parent_iff id child).mpr hchild
  have hsubset : heap.below child ⊆ heap.below id := by
    intro other hother
    obtain ⟨hbound, hpath⟩ := Finset.mem_filter.mp hother
    exact Finset.mem_filter.mpr ⟨hbound, hpath.tail hstep⟩
  refine (Finset.ssubset_iff_of_subset hsubset).mpr ⟨child, ?_, hacyclic.not_mem_below child⟩
  exact Finset.mem_filter.mpr ⟨Finset.mem_range.mpr (hlinked.child_lt_size hchild), .single hstep⟩

theorem Acyclic.card_below_lt_size (hacyclic : heap.Acyclic) (hid : id < heap.size) :
    (heap.below id).card < heap.size := by
  have hsubset : heap.below id ⊂ Finset.range heap.size :=
    (Finset.ssubset_iff_of_subset (Finset.filter_subset _ _)).mpr
      ⟨id, Finset.mem_range.mpr hid, hacyclic.not_mem_below id⟩
  simpa using Finset.card_lt_card hsubset

theorem Acyclic.forest_of_card_lt (hacyclic : heap.Acyclic) (hlinked : heap.Linked)
    (hdepth : depth ≤ deeper) (hids : ∀ id ∈ ids, (heap.below id).card < depth) :
    heap.forest deeper ids = heap.forest depth ids := by
  induction depth generalizing deeper ids with
  | zero =>
      cases ids with
      | nil => cases deeper <;> rfl
      | cons first rest => exact absurd (hids first List.mem_cons_self) (Nat.not_lt_zero _)
  | succ depth ih =>
      obtain ⟨more, rfl⟩ := Nat.exists_eq_add_of_le' hdepth
      have hbelow : ∀ id ∈ ids, heap.forest (more + depth) (heap.children id) =
          heap.forest depth (heap.children id) := by
        intro id hid
        refine ih (Nat.le_add_left _ _) fun child hchild => ?_
        have hless := Finset.card_lt_card (hacyclic.below_ssubset hlinked hchild)
        exact Nat.lt_of_lt_of_le hless (Nat.le_of_lt_succ (hids id hid))
      rw [← Nat.add_assoc, forest, forest]
      exact List.flatMap_congr fun id hid => by rw [hbelow id hid]

theorem Acyclic.forest_of_size_le (hacyclic : heap.Acyclic) (hlinked : heap.Linked)
    (hids : ∀ id ∈ ids, id < heap.size) (hdepth : heap.size ≤ depth) :
    heap.forest depth ids = heap.forest heap.size ids :=
  hacyclic.forest_of_card_lt hlinked hdepth fun id hid => hacyclic.card_below_lt_size (hids id hid)

end MustacheHtml.Document.Heap
