import MustacheHtml.Proofs.Document.Copying
import MustacheHtml.Proofs.Document.Moves
import MustacheHtml.Proofs.Document.Stretch

namespace MustacheHtml.Document

section Lists

variable {before run behind : List NodeId}

theorem exists_insertBlock_eq (block : List NodeId) (mark? : Option NodeId) (list : List NodeId) :
    ∃ front back, insertBlock block mark? list = front ++ block ++ back := by
  cases mark? with
  | none => exact ⟨list, [], (List.append_nil _).symm⟩
  | some mark => exact ⟨_, _, rfl⟩

theorem insertBlock_keeps_run (block : List NodeId) (hnodup : (before ++ run ++ behind).Nodup)
    {mark? : Option NodeId} (hmark : ∀ mark ∈ mark?, mark ∉ run.tail) : ∃ front back,
    insertBlock block mark? (before ++ run ++ behind) = front ++ run ++ back := by
  have hend : before ++ run ++ behind ++ block = before ++ run ++ (behind ++ block) :=
    List.append_assoc _ _ _
  cases mark? with
  | none => exact ⟨before, behind ++ block, hend⟩
  | some mark =>
      have hsplit : ∀ front back, before ++ run ++ behind = front ++ mark :: back →
          insertBlock block (some mark) (before ++ run ++ behind) =
            front ++ block ++ mark :: back := by
        intro front back hlist
        rw [hlist] at hnodup ⊢
        exact insertBlock_head? hnodup
      -- The mark is before the run, or it begins the run, or it is behind it, or it is not there.
      by_cases hbefore : mark ∈ before
      · obtain ⟨front, back, rfl⟩ := List.append_of_mem hbefore
        refine ⟨front ++ block ++ mark :: back, behind, ?_⟩
        rw [hsplit front (back ++ run ++ behind) (by simp)]
        simp
      by_cases hrun : mark ∈ run
      · obtain ⟨others, rfl⟩ : ∃ others, run = mark :: others := by
          cases run with
          | nil => cases hrun
          | cons first others =>
              obtain rfl := (List.mem_cons.mp hrun).resolve_right (hmark mark rfl)
              exact ⟨others, rfl⟩
        refine ⟨before ++ block, behind, ?_⟩
        rw [hsplit before (others ++ behind) (by simp)]
        simp
      by_cases hbehind : mark ∈ behind
      · obtain ⟨front, back, rfl⟩ := List.append_of_mem hbehind
        refine ⟨before, front ++ block ++ mark :: back, ?_⟩
        rw [hsplit (before ++ run ++ front) back (by simp)]
        simp
      · refine ⟨before, behind ++ block, ?_⟩
        rw [insertBlock_of_not_mem block (by simp [hbefore, hrun, hbehind]), hend]

end Lists

namespace Heap

namespace Spans

variable {heap : Heap} {first last parent target child : NodeId}
  {before run behind : List NodeId}

theorem insert_whole (hspans : heap.Spans first last parent before run behind)
    (hlinked : heap.Linked) (hne : target ≠ child) (htarget : target < heap.size)
    (hchild : child < heap.size) (hrun : run <:+: heap.moved child) (mark? : Option NodeId) :
    ∃ front back, (heap.insert target child mark?).Spans first last target front run back := by
  obtain ⟨front, back, hmoved⟩ := hrun
  obtain ⟨left, right, hblock⟩ := exists_insertBlock_eq (heap.moved child) mark?
    ((heap.children target).filter (· ∉ heap.moved child))
  refine ⟨left ++ front, back ++ right, ?_, hspans.head_eq, hspans.last_eq⟩
  rw [hlinked.children_insert mark? hne htarget hchild, if_pos rfl, hblock, ← hmoved]
  simp

theorem insert_apart (hspans : heap.Spans first last parent before run behind)
    (hlinked : heap.Linked) (hne : target ≠ child) (htarget : target < heap.size)
    (hchild : child < heap.size) (hmoved : ∀ id ∈ heap.moved child, id ∉ run)
    {mark? : Option NodeId}
    (hmark : ∀ mark ∈ mark?, heap.parent? mark = some target → mark ∉ run.tail) :
    ∃ front back, (heap.insert target child mark?).Spans first last parent front run back := by
  have hrun : run.filter (· ∉ heap.moved child) = run := by
    refine List.filter_eq_self.mpr fun id hid => decide_eq_true ?_
    exact fun hmem => hmoved id hmem hid
  have hleft : (heap.children parent).filter (· ∉ heap.moved child) =
      before.filter (· ∉ heap.moved child) ++ run ++ behind.filter (· ∉ heap.moved child) := by
    rw [hspans.children_eq, List.filter_append, List.filter_append, hrun]
  have hchildren := hlinked.children_insert mark? hne htarget hchild parent
  rw [hleft] at hchildren
  by_cases hparent : parent = target
  · have hnodup := (hlinked.nodup parent).filter (· ∉ heap.moved child)
    rw [hleft] at hnodup
    have htail : ∀ mark ∈ mark?, mark ∉ run.tail := by
      intro mark hmem htail
      refine hmark mark hmem ?_ htail
      rw [← hparent]
      exact hspans.parent?_eq hlinked mark (List.mem_of_mem_tail htail)
    obtain ⟨front, back, hblock⟩ := insertBlock_keeps_run (heap.moved child) hnodup htail
    refine ⟨front, back, ?_, hspans.head_eq, hspans.last_eq⟩
    rw [hchildren, if_pos hparent, hblock]
  · rw [if_neg hparent] at hchildren
    exact ⟨_, _, hchildren, hspans.head_eq, hspans.last_eq⟩

theorem remove_apart (hspans : heap.Spans first last parent before run behind)
    (hlinked : heap.Linked) (hchild : heap.parent? child = some target → child ∉ run) :
    ∃ front back, (heap.remove target child).Spans first last parent front run back := by
  rw [Heap.remove]
  split
  · next hlink =>
      refine ⟨before.filter (· ≠ child), behind.filter (· ≠ child), ?_, hspans.head_eq,
        hspans.last_eq⟩
      have hrun : run.filter (· ≠ child) = run := by
        refine List.filter_eq_self.mpr fun id hid => decide_eq_true ?_
        exact ne_of_mem_of_not_mem hid (hchild hlink)
      rw [hlinked.children_detach, hspans.children_eq, List.filter_append, List.filter_append, hrun]
  · exact ⟨before, behind, hspans⟩

end Spans

end Heap

namespace Edit

/-- The node before which something is inserted. -/
def mark? : Edit → Option NodeId
  | perform (.insertBefore _ _ before) => before
  | _ => none

/-- The node that something is removed from, and the node that is removed. -/
def removal? : Edit → Option (NodeId × NodeId)
  | perform (.removeChild parent child) => some (parent, child)
  | _ => none

/-- The run moves as a whole, or nothing of it moves and nothing is put between its nodes. -/
def Spares (heap : Heap) (run : List NodeId) (edit : Edit) : Prop :=
  (∀ move ∈ edit.insertion?, run <:+: heap.moved move.2 ∨
    (∀ id ∈ heap.moved move.2, id ∉ run) ∧
      ∀ mark ∈ edit.mark?, heap.parent? mark = some move.1 → mark ∉ run.tail) ∧
    ∀ move ∈ edit.removal?, heap.parent? move.2 = some move.1 → move.2 ∉ run

instance (heap : Heap) (run : List NodeId) (edit : Edit) : Decidable (edit.Spares heap run) :=
  inferInstanceAs (Decidable ((∀ move ∈ edit.insertion?, run <:+: heap.moved move.2 ∨
    (∀ id ∈ heap.moved move.2, id ∉ run) ∧
      ∀ mark ∈ edit.mark?, heap.parent? mark = some move.1 → mark ∉ run.tail) ∧
    ∀ move ∈ edit.removal?, heap.parent? move.2 = some move.1 → move.2 ∉ run))

variable {heap : Heap} {edit : Edit}

theorem apply_children_cases (hlinked : heap.Linked) (edit : Edit) :
    (∀ id < heap.size, (edit.apply heap).children id = heap.children id) ∨
      (∃ parent child, edit.insertion? = some (parent, child) ∧
        edit.apply heap = heap.insert parent child edit.mark?) ∨
      ∃ parent child, edit.removal? = some (parent, child) ∧
        edit.apply heap = heap.remove parent child := by
  cases edit with
  | deepClone node =>
      exact .inl fun id hid => congrArg Cell.children
        ((Heap.clones_copy hlinked heap.size node).cell_old id hid)
  | perform operation =>
      cases operation with
      | createFragment => exact .inl fun _ _ => Heap.children_create _
      | createText content => exact .inl fun _ _ => Heap.children_create _
      | createElement tag => exact .inl fun _ _ => Heap.children_create _
      | appendChild parent child => exact .inr (.inl ⟨parent, child, rfl, rfl⟩)
      | setAttribute element name value =>
          exact .inl fun _ _ => Heap.children_setAttribute name value
      | parseFragment markup =>
          obtain ⟨-, placed, -, hstands⟩ := heap.parseFragment_stands markup
          exact .inl fun id hid => hstands.children_old hid
      | setText node content => exact .inl fun _ _ => Heap.children_setText content
      | insertBefore parent child before => exact .inr (.inl ⟨parent, child, rfl, rfl⟩)
      | removeChild parent child => exact .inr (.inr ⟨parent, child, rfl, rfl⟩)

/-- After an edit that spares a run its nodes are still neighbours, in the same order. -/
theorem Spares.spans {first last parent : NodeId} {before run behind : List NodeId}
    (hspares : edit.Spares heap run) (hlinked : heap.Linked) (hnodes : edit.OnNodes heap)
    (hspans : heap.Spans first last parent before run behind) : ∃ owner front back,
    (edit.apply heap).Spans first last owner front run back := by
  rcases apply_children_cases hlinked edit with
    hsame | ⟨target, child, hinsertion, hinsert⟩ | ⟨target, child, hremoval, hremove⟩
  · exact ⟨parent, before, behind, hspans.congr (hsame parent (hspans.parent_lt_size hlinked))⟩
  · obtain ⟨htarget, hchild⟩ := hnodes (target, child) hinsertion
    rw [hinsert]
    by_cases hne : target = child
    · rw [Heap.insert, if_pos hne]
      exact ⟨parent, before, behind, hspans⟩
    · rcases hspares.1 (target, child) hinsertion with hwhole | ⟨hmoved, hmark⟩
      · exact ⟨target, hspans.insert_whole hlinked hne htarget hchild hwhole _⟩
      · exact ⟨parent, hspans.insert_apart hlinked hne htarget hchild hmoved hmark⟩
  · rw [hremove]
    exact ⟨parent, hspans.remove_apart hlinked (hspares.2 (target, child) hremoval)⟩

end Edit

end MustacheHtml.Document
