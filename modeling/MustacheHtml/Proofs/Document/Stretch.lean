import MustacheHtml.Proofs.Document.Ancestry
import MustacheHtml.Proofs.Document.Revision

/-!
Stretches of siblings: what lies from one child of a node through another one, and what is left of
a document when it is taken out.
-/

namespace MustacheHtml.Document

/-- A list up to and with the first occurrence of an id, or all of it. -/
def through (last : NodeId) : List NodeId → List NodeId
  | [] => []
  | id :: rest => if id = last then [id] else id :: through last rest

section Lists

variable {last : NodeId} {list run behind : List NodeId}

theorem filter_run_append {before : List NodeId} (hnodup : (before ++ run ++ behind).Nodup) :
    (before ++ run ++ behind).filter (· ∉ run) = before ++ behind := by
  obtain ⟨hfront, -, hapart⟩ := List.nodup_append'.mp hnodup
  have hbefore : before.filter (· ∉ run) = before := by
    refine List.filter_eq_self.mpr fun id hid => decide_eq_true ?_
    exact (List.nodup_append'.mp hfront).2.2 hid
  have hrun : run.filter (· ∉ run) = [] := by
    refine List.filter_eq_nil_iff.mpr fun id hid => ?_
    simpa using hid
  have hbehind : behind.filter (· ∉ run) = behind := by
    refine List.filter_eq_self.mpr fun id hid => decide_eq_true ?_
    exact fun hmem => hapart (List.mem_append_right _ hmem) hid
  rw [List.filter_append, List.filter_append, hbefore, hrun, hbehind, List.append_nil]

theorem through_of_not_mem (hlast : last ∉ list) : through last list = list := by
  induction list with
  | nil => rfl
  | cons id rest ih =>
      rw [List.mem_cons, not_or] at hlast
      rw [through, if_neg (Ne.symm hlast.1), ih hlast.2]

theorem through_append (hnodup : run.Nodup) (hlast : run.getLast? = some last) :
    through last (run ++ behind) = run := by
  induction run with
  | nil => cases hlast
  | cons id rest ih =>
      obtain ⟨hid, hrest⟩ := List.nodup_cons.mp hnodup
      cases rest with
      | nil =>
          obtain rfl : id = last := by simpa using hlast
          rw [List.singleton_append, through, if_pos rfl]
      | cons next more =>
          rw [List.getLast?_cons_cons] at hlast
          have hne : id ≠ last := fun hsame => hid (hsame ▸ List.mem_of_getLast? hlast)
          rw [List.cons_append, through, if_neg hne, ih hrest hlast]

theorem exists_through_eq (hlast : last ∈ list) :
    ∃ behind, list = through last list ++ behind ∧ (through last list).getLast? = some last := by
  induction list with
  | nil => cases hlast
  | cons id rest ih =>
      by_cases hid : id = last
      · exact ⟨rest, by simp [through, hid], by simp [through, hid]⟩
      · obtain ⟨behind, hsplit, hend⟩ := ih ((List.mem_cons.mp hlast).resolve_left (Ne.symm hid))
        refine ⟨behind, ?_, ?_⟩
        · rw [through, if_neg hid, List.cons_append, ← hsplit]
        · rw [through, if_neg hid, List.getLast?_cons, hend, Option.getD_some]

theorem through_subset (last : NodeId) (list : List NodeId) : through last list ⊆ list := by
  induction list with
  | nil => exact List.Subset.refl _
  | cons id rest ih =>
      rw [through]
      split
      · simp
      · exact List.cons_subset_cons id ih

theorem length_through_le (last : NodeId) (list : List NodeId) :
    (through last list).length ≤ list.length := by
  induction list with
  | nil => exact Nat.le_refl 0
  | cons id rest ih =>
      rw [through]
      split
      · exact Nat.le_add_left 1 _
      · exact Nat.succ_le_succ ih

end Lists

namespace Heap

/-- A node and the siblings that follow it. -/
def onward (heap : Heap) (first : NodeId) : List NodeId :=
  match heap.parent? first with
  | none => []
  | some parent => (heap.children parent).dropWhile (· != first)

/-- The siblings from a node through another one; all that follow if the other one does not. -/
def stretch (heap : Heap) (first last : NodeId) : List NodeId :=
  through last (heap.onward first)

/-- Two nodes are the ends of a run of children of the parent, between those before and behind it.
-/
structure Spans (heap : Heap) (first last parent : NodeId) (before run behind : List NodeId) :
    Prop where
  children_eq : heap.children parent = before ++ run ++ behind
  head_eq : run.head? = some first
  last_eq : run.getLast? = some last

section Stretch

variable {heap : Heap} {first last parent : NodeId} {before run behind rest : List NodeId}

theorem Linked.not_mem_before (hlinked : heap.Linked)
    (hchildren : heap.children parent = before ++ first :: rest) : first ∉ before := by
  intro hmem
  have hnodup := hlinked.nodup parent
  rw [hchildren] at hnodup
  exact (List.nodup_append'.mp hnodup).2.2 hmem List.mem_cons_self

theorem Linked.parent?_of_split (hlinked : heap.Linked)
    (hchildren : heap.children parent = before ++ first :: rest) :
    heap.parent? first = some parent := by
  rw [hlinked.parent_iff, hchildren]
  simp

theorem Linked.onward_eq (hlinked : heap.Linked)
    (hchildren : heap.children parent = before ++ first :: rest) :
    heap.onward first = first :: rest := by
  simp only [onward, hlinked.parent?_of_split hchildren, hchildren]
  exact dropWhile_ne_append (hlinked.not_mem_before hchildren)

theorem Linked.nextSibling?_of_split (hlinked : heap.Linked)
    (hchildren : heap.children parent = before ++ first :: rest) :
    heap.nextSibling? first = rest.head? := by
  rw [nextSibling?, hlinked.parent?_of_split hchildren, Option.bind_some, hchildren,
    nextAfter?_append (hlinked.not_mem_before hchildren)]

theorem Linked.stretch_eq (hlinked : heap.Linked)
    (hchildren : heap.children parent = before ++ first :: rest) :
    heap.stretch first last = through last (first :: rest) := by
  rw [stretch, hlinked.onward_eq hchildren]

namespace Spans

theorem exists_cons (hspans : heap.Spans first last parent before run behind) :
    ∃ others, run = first :: others ∧
      heap.children parent = before ++ first :: (others ++ behind) := by
  obtain ⟨others, rfl⟩ := List.head?_eq_some_iff.mp hspans.head_eq
  refine ⟨others, rfl, ?_⟩
  rw [hspans.children_eq, List.append_assoc, List.cons_append]

theorem first_mem (hspans : heap.Spans first last parent before run behind) : first ∈ run :=
  List.mem_of_mem_head? hspans.head_eq

theorem last_mem (hspans : heap.Spans first last parent before run behind) : last ∈ run :=
  List.mem_of_getLast? hspans.last_eq

theorem run_subset (hspans : heap.Spans first last parent before run behind) :
    run ⊆ heap.children parent := by
  intro id hid
  rw [hspans.children_eq]
  simp [hid]

theorem congr {after : Heap} (hspans : heap.Spans first last parent before run behind)
    (hsame : after.children parent = heap.children parent) :
    after.Spans first last parent before run behind :=
  ⟨hsame.trans hspans.children_eq, hspans.head_eq, hspans.last_eq⟩

theorem parent?_eq (hspans : heap.Spans first last parent before run behind)
    (hlinked : heap.Linked) : ∀ id ∈ run, heap.parent? id = some parent := fun id hid =>
  (hlinked.parent_iff parent id).mpr (hspans.run_subset hid)

theorem parent_lt_size (hspans : heap.Spans first last parent before run behind)
    (hlinked : heap.Linked) : parent < heap.size :=
  hlinked.parent_lt_size (hspans.parent?_eq hlinked first hspans.first_mem)

theorem nodup (hspans : heap.Spans first last parent before run behind) (hlinked : heap.Linked) :
    (before ++ run ++ behind).Nodup :=
  hspans.children_eq ▸ hlinked.nodup parent

theorem stretch_eq (hspans : heap.Spans first last parent before run behind)
    (hlinked : heap.Linked) : heap.stretch first last = run := by
  have hrun := (List.nodup_append'.mp (List.nodup_append'.mp (hspans.nodup hlinked)).1).2.1
  obtain ⟨others, rfl, hchildren⟩ := hspans.exists_cons
  rw [hlinked.stretch_eq hchildren, ← List.cons_append, through_append hrun hspans.last_eq]

theorem nextSibling?_eq (hspans : heap.Spans first last parent before run behind)
    (hlinked : heap.Linked) : heap.nextSibling? last = behind.head? := by
  exact nextSibling?_last hspans.children_eq (hspans.nodup hlinked)
    (hspans.parent?_eq hlinked last hspans.last_mem) hspans.last_eq

end Spans

end Stretch

/-- The nodes have been taken out of the lists in which they stood. -/
structure Withdraws (heap after : Heap) (run : List NodeId) : Prop where
  linked : after.Linked
  size_eq : after.size = heap.size
  parent?_eq : ∀ id, after.parent? id = if id ∈ run then none else heap.parent? id
  children_eq : ∀ id, after.children id = (heap.children id).filter (· ∉ run)
  kind_eq : ∀ id, after.kind id = heap.kind id

namespace Withdraws

variable {heap middle after : Heap} {id parent : NodeId} {run rest : List NodeId}

theorem detach (hlinked : heap.Linked) (id : NodeId) : Withdraws heap (heap.detach id) [id] where
  linked := hlinked.detach id
  size_eq := size_detach heap id
  parent?_eq := by
    intro other
    rw [parent?_detach]
    simp
  children_eq := by
    intro other
    rw [hlinked.children_detach]
    exact List.filter_congr fun child _ => by simp
  kind_eq := fun other => kind_detach

theorem remove {before behind : List NodeId} (hlinked : heap.Linked)
    (hchildren : heap.children parent = before ++ id :: behind) :
    Withdraws heap (heap.remove parent id) [id] := by
  rw [Heap.remove, if_pos (hlinked.parent?_of_split hchildren)]
  exact .detach hlinked id

theorem cons (hfirst : Withdraws heap middle [id]) (hrest : Withdraws middle after rest) :
    Withdraws heap after (id :: rest) where
  linked := hrest.linked
  size_eq := hrest.size_eq.trans hfirst.size_eq
  parent?_eq := by
    intro other
    rw [hrest.parent?_eq, hfirst.parent?_eq]
    by_cases hother : other = id <;> simp [hother]
  children_eq := by
    intro other
    rw [hrest.children_eq, hfirst.children_eq, List.filter_filter]
    exact List.filter_congr fun child _ => by simp [Bool.and_comm]
  kind_eq := fun other => (hrest.kind_eq other).trans (hfirst.kind_eq other)

theorem acyclic (hwithdraws : Withdraws heap after run) (hacyclic : heap.Acyclic) :
    after.Acyclic := by
  have hedge : ∀ low high, after.ChildOf low high → heap.ChildOf low high := by
    intro low high hstep
    rw [ChildOf, hwithdraws.parent?_eq] at hstep
    split at hstep
    · cases hstep
    · exact hstep
  exact fun other hcycle => hacyclic other (Relation.TransGen.mono hedge _ _ hcycle)

theorem children_of_ne (hwithdraws : Withdraws heap after run) (hlinked : heap.Linked)
    (hrun : run ⊆ heap.children parent) (hne : id ≠ parent) :
    after.children id = heap.children id := by
  rw [hwithdraws.children_eq, List.filter_eq_self]
  intro child hchild
  rw [decide_eq_true_eq]
  exact fun hmem => hne (hlinked.eq_of_mem hchild (hrun hmem))

theorem cell_of_ne (hwithdraws : Withdraws heap after run) (hlinked : heap.Linked)
    (hrun : run ⊆ heap.children parent) (hne : id ≠ parent) (hid : id ∉ run) :
    after.cell id = heap.cell id := by
  have hparent := hwithdraws.parent?_eq id
  rw [if_neg hid] at hparent
  exact Cell.ext (hwithdraws.kind_eq id) hparent (hwithdraws.children_of_ne hlinked hrun hne)

end Withdraws

section View

variable {heap after : Heap}

theorem forest_congr (depth : Nat) {ids : List NodeId}
    (hsame : ∀ root ∈ ids, ∀ id, heap.Reaches root id →
      after.kind id = heap.kind id ∧ after.children id = heap.children id) :
    after.forest depth ids = heap.forest depth ids := by
  induction depth generalizing ids with
  | zero => rfl
  | succ depth ih =>
      have hbelow : ∀ root ∈ ids,
          after.forest depth (after.children root) = heap.forest depth (heap.children root) := by
        intro root hroot
        rw [(hsame root hroot root .refl).2]
        refine ih fun child hchild id hreaches => hsame root hroot id ?_
        exact Relation.ReflTransGen.head hchild hreaches
      rw [forest, forest]
      refine List.flatMap_congr fun root hroot => ?_
      rw [(hsame root hroot root .refl).1, hbelow root hroot]

end View

end Heap

end MustacheHtml.Document
