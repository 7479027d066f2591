import Mathlib.Data.List.TakeWhile
import MustacheHtml.Proofs.Document.Edits
import MustacheHtml.Proofs.Document.Revision

namespace MustacheHtml.Document

section Lists

variable {list : List NodeId} {mark : NodeId}

theorem insertBlock_of_mem (block : List NodeId) (hnodup : list.Nodup) (hmark : mark ∈ list) :
    ∃ front back, list = front ++ mark :: back ∧
      insertBlock block (some mark) list = front ++ block ++ mark :: back := by
  obtain ⟨front, back, rfl⟩ := List.append_of_mem hmark
  exact ⟨front, back, rfl, insertBlock_head? hnodup⟩

theorem insertBlock_of_not_mem (block : List NodeId) (hmark : mark ∉ list) :
    insertBlock block (some mark) list = list ++ block := by
  have hkept : ∀ id ∈ list, (id != mark) = true := by
    intro id hid
    simpa using ne_of_mem_of_not_mem hid hmark
  rw [insertBlock, List.takeWhile_eq_self_iff.mpr hkept, List.dropWhile_eq_nil_iff.mpr hkept,
    List.append_nil]

end Lists

namespace Heap

/-- What moves with the child has been moved to the parent, before the given child of it or behind
all its children. -/
structure Moves (heap after : Heap) (parent child : NodeId) (before : Option NodeId) : Prop where
  children_before : ∀ mark ∈ before, mark ∈ heap.children parent → ∃ front back,
    (heap.children parent).filter (· ∉ heap.moved child) = front ++ mark :: back ∧
      after.children parent = front ++ heap.moved child ++ mark :: back
  children_end : (∀ mark ∈ before, mark ∉ heap.children parent) → after.children parent =
    (heap.children parent).filter (· ∉ heap.moved child) ++ heap.moved child
  parent_moved : ∀ id ∈ heap.moved child, after.parent? id = some parent
  fragment_left : heap.kind child = .fragment → after.children child = []
  parent_left : ∀ old, heap.parent? child = some old → old ≠ parent →
    after.children old = (heap.children old).filter (· ≠ child)
  children_other : ∀ id, id ≠ parent → heap.parent? child ≠ some id →
    ¬ (id = child ∧ heap.kind child = .fragment) → after.children id = heap.children id
  parent_other : ∀ id, id ∉ heap.moved child → after.parent? id = heap.parent? id
  kind_eq : ∀ id, after.kind id = heap.kind id
  placements_perm : after.placements.Perm
    (if heap.parent? child = none ∧ heap.kind child ≠ .fragment then child :: heap.placements
      else heap.placements)

section Insert

variable {heap : Heap} {parent child : NodeId}

theorem moved_of_fragment (hkind : heap.kind child = .fragment) :
    heap.moved child = heap.children child := by
  rw [moved, isFragment, decide_eq_true hkind, if_pos rfl]

theorem moved_of_not_fragment (hkind : heap.kind child ≠ .fragment) :
    heap.moved child = [child] := by
  rw [moved, isFragment, decide_eq_false hkind, if_neg Bool.false_ne_true]

theorem Linked.filter_moved_eq_self (hlinked : heap.Linked) {id : NodeId}
    (hparent : heap.parent? child ≠ some id)
    (hfragment : ¬ (id = child ∧ heap.kind child = .fragment)) :
    (heap.children id).filter (· ∉ heap.moved child) = heap.children id := by
  refine List.filter_eq_self.mpr fun other hother => ?_
  rw [decide_eq_true_eq]
  intro hmoved
  by_cases hkind : heap.kind child = .fragment
  · rw [moved_of_fragment hkind] at hmoved
    exact hfragment ⟨hlinked.eq_of_mem hother hmoved, hkind⟩
  · rw [moved_of_not_fragment hkind, List.mem_singleton] at hmoved
    exact hparent ((hlinked.parent_iff id child).mpr (hmoved ▸ hother))

theorem Linked.placements_insert (hlinked : heap.Linked) (before : Option NodeId)
    (hne : parent ≠ child) (hparent : parent < heap.size) (hchild : child < heap.size) :
    (heap.insert parent child before).placements.Perm
      (if heap.parent? child = none ∧ heap.kind child ≠ .fragment then child :: heap.placements
        else heap.placements) := by
  have hafter := hlinked.insert before hparent hchild
  have hmem : ∀ id, id ∈ (heap.insert parent child before).placements ↔
      id ∈ heap.moved child ∨ id ∈ heap.placements := by
    intro id
    rw [hafter.mem_placements, hlinked.mem_placements, hlinked.parent?_insert before hne hchild]
    by_cases hid : id ∈ heap.moved child <;> simp [hid]
  split
  · next hnew =>
      have hfresh : child ∉ heap.placements := by
        rw [hlinked.mem_placements, hnew.1]
        simp
      refine (List.perm_ext_iff_of_nodup hafter.placements_nodup
        (List.nodup_cons.mpr ⟨hfresh, hlinked.placements_nodup⟩)).mpr fun id => ?_
      rw [hmem, moved_of_not_fragment hnew.2, List.mem_singleton, List.mem_cons]
  · next hold =>
      refine (List.perm_ext_iff_of_nodup hafter.placements_nodup
        hlinked.placements_nodup).mpr fun id => ?_
      rw [hmem, or_iff_right_iff_imp, hlinked.mem_placements]
      intro hmoved
      by_cases hkind : heap.kind child = .fragment
      · rw [moved_of_fragment hkind, ← hlinked.parent_iff] at hmoved
        exact ⟨child, hmoved⟩
      · rw [moved_of_not_fragment hkind, List.mem_singleton] at hmoved
        rw [hmoved, ← Option.isSome_iff_exists, Option.isSome_iff_ne_none]
        exact fun hnone => hold ⟨hnone, hkind⟩

end Insert

/-- Inserting a node, or a fragment with all that stands in it, moves it to its new place and does
nothing else. -/
theorem insert_moves {heap : Heap} (hlinked : heap.Linked) {parent child : NodeId}
    (hne : child ≠ parent) (hparent : parent < heap.size) (hchild : child < heap.size)
    (before : Option NodeId) (hbefore : ∀ mark ∈ before, mark ∉ heap.moved child) :
    heap.Moves (heap.insert parent child before) parent child before ∧
      heap.Moves (heap.append parent child) parent child none := by
  have hmoves : ∀ before : Option NodeId, (∀ mark ∈ before, mark ∉ heap.moved child) →
      heap.Moves (heap.insert parent child before) parent child before := by
    intro before hbefore
    have hchildren := hlinked.children_insert before hne.symm hparent hchild
    have hlinks := hlinked.parent?_insert before hne.symm hchild
    have hnodup : ((heap.children parent).filter (· ∉ heap.moved child)).Nodup :=
      (hlinked.nodup parent).filter _
    constructor
    case children_before =>
      rintro mark ⟨⟩ hmark
      have hkept : mark ∈ (heap.children parent).filter (· ∉ heap.moved child) :=
        List.mem_filter.mpr ⟨hmark, decide_eq_true (hbefore mark rfl)⟩
      obtain ⟨front, back, hsplit, hblock⟩ :=
        insertBlock_of_mem (heap.moved child) hnodup hkept
      refine ⟨front, back, hsplit, ?_⟩
      rw [hchildren, if_pos rfl, hblock]
    case children_end =>
      intro hnone
      rw [hchildren, if_pos rfl]
      cases before with
      | none => rfl
      | some mark =>
          exact insertBlock_of_not_mem _ fun hmark => hnone mark rfl (List.mem_filter.mp hmark).1
    case parent_moved =>
      intro id hid
      rw [hlinks, if_pos hid]
    case fragment_left =>
      intro hkind
      rw [hchildren, if_neg hne, moved_of_fragment hkind, List.filter_eq_nil_iff]
      intro id hid
      simpa using hid
    case parent_left =>
      intro old hold hother
      have hkind : heap.kind child ≠ .fragment := by
        intro hkind
        rw [hlinked.parentless child hkind] at hold
        cases hold
      rw [hchildren, if_neg hother, moved_of_not_fragment hkind]
      exact List.filter_congr fun id _ => by simp
    case children_other =>
      intro id hid hold hfragment
      rw [hchildren, if_neg hid, hlinked.filter_moved_eq_self hold hfragment]
    case parent_other =>
      intro id hid
      rw [hlinks, if_neg hid]
    case kind_eq => exact fun id => kind_insert parent child before
    case placements_perm => exact hlinked.placements_insert before hne.symm hparent hchild
  exact ⟨hmoves before hbefore, hmoves none nofun⟩

end Heap

/-- A list with two items, and a fragment with two more. -/
def menuEdits : List Edit :=
  [.perform (.createElement "ul"), .perform (.createText "1"), .perform (.createText "2"),
    .perform (.appendChild 0 1), .perform (.appendChild 0 2),
    .perform (.parseFragment "<li>3</li>4")]

theorem insert_moves_menu : let heap := Heap.empty.edited menuEdits
    heap.Linked ∧ 3 ≠ 0 ∧ 0 < heap.size ∧ 3 < heap.size ∧ (∀ mark ∈ some 2, mark ∉ heap.moved 3) ∧
      (∀ mark ∈ some 1, mark ∉ heap.moved 2) ∧
      heap.Moves (heap.insert 0 3 (some 2)) 0 3 (some 2) ∧
      (heap.insert 0 3 (some 2)).children 0 = [1, 4, 6, 2] ∧
      heap.Moves (heap.insert 0 2 (some 1)) 0 2 (some 1) ∧
      (heap.insert 0 2 (some 1)).children 0 = [2, 1] := by
  intro heap
  have hnodes : Edit.Follow Edit.OnNodes .empty menuEdits := by decide +kernel
  have hlinked : heap.Linked := (Edit.linked_edited .empty .empty hnodes).1
  have hlist : 0 < heap.size := by decide +kernel
  have hitem : 2 < heap.size := by decide +kernel
  have hfragment : 3 < heap.size := by decide +kernel
  have hmark : ∀ mark ∈ some 2, mark ∉ heap.moved 3 := by decide +kernel
  have hfirst : ∀ mark ∈ some 1, mark ∉ heap.moved 2 := by decide +kernel
  have hmoves := Heap.insert_moves hlinked (by decide) hlist hfragment (some 2) hmark
  have hswaps := Heap.insert_moves hlinked (by decide) hlist hitem (some 1) hfirst
  exact ⟨hlinked, by decide, hlist, hfragment, hmark, hfirst, hmoves.1, by decide +kernel,
    hswaps.1, by decide +kernel⟩

end MustacheHtml.Document
