import MustacheHtml.Proofs.Document.Stretch
import MustacheHtml.Proofs.Render.Updating

namespace MustacheHtml.Document.Heap

open Placed

/-- A stretch of children has been taken out, and new trees have been put before the mark, or at the
end if no child is the mark. Nothing else has changed. -/
structure Resplices (heap after : Heap) (parent : NodeId) (run : List NodeId)
    (mark : Option NodeId) (new : List Placed) : Prop where
  linked : after.Linked
  acyclic : heap.Acyclic → after.Acyclic
  size_le : heap.size ≤ after.size
  children_parent : after.children parent =
    insertBlock (roots new) mark ((heap.children parent).filter (· ∉ run))
  children_other : ∀ id < heap.size, id ≠ parent → after.children id = heap.children id
  parent_run : ∀ id ∈ run, after.parent? id = none
  parent_other : ∀ id < heap.size, id ∉ run → after.parent? id = heap.parent? id
  kind_eq : ∀ id < heap.size, after.kind id = heap.kind id
  holds : after.Holds (some parent) new
  fresh : ∀ id ∈ nodes new, heap.size ≤ id
  nodup : (nodes new).Nodup

section Resplice

variable {heap made unlinked : Heap} {parent : NodeId} {run : List NodeId} {new : List Placed}

theorem Stands.nextSibling?_old (hstands : Stands heap made .fragment new) (hlinked : heap.Linked)
    {id : NodeId} (hid : id < heap.size) : made.nextSibling? id = heap.nextSibling? id := by
  have hparent : made.parent? id = heap.parent? id := by
    rw [parent?, hstands.cell_old id hid, parent?]
  rw [nextSibling?, nextSibling?, hparent]
  cases hlink : heap.parent? id with
  | none => rfl
  | some owner =>
      rw [Option.bind_some, Option.bind_some, hstands.children_old (hlinked.parent_lt_size hlink)]

theorem Stands.cell_withdrawn (hstands : Stands heap made .fragment new) (hlinked : heap.Linked)
    (hmade : made.Linked) (hparent : parent < heap.size) (hrun : run ⊆ heap.children parent)
    (hwithdraws : Withdraws made unlinked run) {id : NodeId} (hid : heap.size ≤ id) :
    unlinked.cell id = made.cell id := by
  have hrunMade : run ⊆ made.children parent := by rwa [hstands.children_old hparent]
  refine hwithdraws.cell_of_ne hmade hrunMade ?_ ?_
  · exact Nat.ne_of_gt (Nat.lt_of_lt_of_le hparent hid)
  · exact fun hmem => absurd (hlinked.child_lt_size (hrun hmem)) (Nat.not_lt.mpr hid)

theorem Withdraws.apart (hlinked : heap.Linked) (hstands : Stands heap made .fragment new)
    (hparent : parent < heap.size) (hwithdraws : Withdraws made unlinked run)
    (hfragment : unlinked.cell heap.size = ⟨.fragment, none, roots new⟩) :
    unlinked.Apart parent heap.size := by
  have habove : ∀ {id}, Relation.ReflTransGen unlinked.ChildOf parent id → id < heap.size := by
    intro id hpath
    induction hpath with
    | refl => exact hparent
    | @tail low high _ hstep ih =>
        rw [ChildOf, hwithdraws.parent?_eq] at hstep
        split at hstep
        · cases hstep
        · rw [parent?, hstands.cell_old low ih] at hstep
          exact hlinked.parent_lt_size hstep
  intro id hid hpath
  rw [moved, isFragment, kind, Heap.children, hfragment, if_pos (decide_eq_true rfl)] at hid
  exact absurd (habove hpath) (Nat.not_lt_of_lt (hstands.fresh id (roots_subset_nodes new hid)))

theorem Stands.resplices (hstands : Stands heap made .fragment new) (hlinked : heap.Linked)
    (hextends : Extends heap made) (hparent : parent < heap.size)
    (hrun : run ⊆ heap.children parent) (hwithdraws : Withdraws made unlinked run)
    (mark : Option NodeId) :
    Resplices heap (unlinked.insert parent heap.size mark) parent run mark new := by
  have hne : parent ≠ heap.size := Nat.ne_of_lt hparent
  have hnew : ∀ id, heap.size ≤ id → unlinked.cell id = made.cell id := fun id hid =>
    hstands.cell_withdrawn hlinked hextends.linked hparent hrun hwithdraws hid
  have hadopts := hstands.insert_adopts hparent hwithdraws.size_eq hnew mark
  have hfragmentBound : heap.size < unlinked.size := by
    rw [hwithdraws.size_eq]
    exact hstands.size_lt
  have hparentBound : parent < unlinked.size := Nat.lt_trans hparent hfragmentBound
  have hchildren : ∀ id < heap.size,
      unlinked.children id = (heap.children id).filter (· ∉ run) := by
    intro id hid
    rw [hwithdraws.children_eq, hstands.children_old hid]
  -- An older node is not of the new trees, so only the run has lost its parent.
  have hparents : ∀ id < heap.size, (unlinked.insert parent heap.size mark).parent? id =
      if id ∈ run then none else heap.parent? id := by
    intro id hid
    rw [hadopts.parent?_old (Nat.ne_of_lt hid) (hstands.not_mem_nodes hid),
      hwithdraws.parent?_eq, hextends.parent_old id hid]
  constructor
  case linked => exact hwithdraws.linked.insert mark hparentBound hfragmentBound
  case acyclic =>
    intro hacyclic
    have hfragment : unlinked.cell heap.size = ⟨.fragment, none, roots new⟩ := by
      rw [hnew heap.size (Nat.le_refl _), hstands.cell_new]
    exact (hwithdraws.acyclic (hextends.acyclic hlinked hacyclic)).insert hwithdraws.linked mark
      hne hfragmentBound (hwithdraws.apart hlinked hstands hparent hfragment)
  case size_le =>
    rw [hadopts.size_eq]
    exact Nat.le_of_lt hfragmentBound
  case children_parent =>
    rw [Heap.children, hadopts.cell_parent, hchildren parent hparent]
  case children_other =>
    intro id hid hother
    rw [Heap.children, hadopts.cell_old id hother (Nat.ne_of_lt hid) (hstands.not_mem_nodes hid),
      ← Heap.children, hchildren id hid, List.filter_eq_self]
    intro child hchild
    rw [decide_eq_true_eq]
    exact fun hmem => hother (hlinked.eq_of_mem hchild (hrun hmem))
  case parent_run =>
    intro id hid
    rw [hparents id (hlinked.child_lt_size (hrun hid)), if_pos hid]
  case parent_other =>
    intro id hid hnot
    rw [hparents id hid, if_neg hnot]
  case kind_eq =>
    intro id hid
    rw [kind_insert, hwithdraws.kind_eq, kind, hstands.cell_old id hid, kind]
  case holds => exact hadopts.holds
  case fresh => exact fun id hid => Nat.le_of_lt (hstands.fresh id hid)
  case nodup => exact hstands.nodup

end Resplice

end MustacheHtml.Document.Heap

namespace MustacheHtml.Render

open MustacheHtml.Document
open MustacheHtml.Document.Heap
open MustacheHtml.Document.Placed

variable {σ : Type} {host : Host σ} {world : World σ}

theorem run_removeRun_none {parent last node : NodeId} {count : Nat}
    (hnext : world.heap.nextSibling? node = none) :
    (removeRun host parent last (count + 1) node).run world =
      ((), ((host.removeChild parent node).run world).2) := by
  simp only [removeRun, StateT.run_bind, StateT.run_get, pure_bind, hnext]
  rfl

theorem run_removeRun_through (host : Host σ) (world : World σ) (last : NodeId)
    {parent node : NodeId} {before rest : List NodeId} (hlinked : world.heap.Linked)
    (hchildren : world.heap.children parent = before ++ node :: rest) : ∃ after state,
      (∀ count, (through last (node :: rest)).length ≤ count →
        (removeRun host parent last count node).run world =
          ((), ⟨after, world.context, state⟩)) ∧
        Withdraws world.heap after (through last (node :: rest)) := by
  induction rest generalizing world node with
  | nil =>
      have hnext : world.heap.nextSibling? node = none := hlinked.nextSibling?_of_split hchildren
      have hthrough : through last [node] = [node] := by
        rw [through]
        split <;> rfl
      let middle : World σ := ((host.removeChild parent node).run world).2
      rw [hthrough]
      refine ⟨middle.heap, middle.host, fun count hcount => ?_, .remove hlinked hchildren⟩
      obtain ⟨count, rfl⟩ := Nat.exists_eq_add_of_le' hcount
      exact run_removeRun_none hnext
  | cons next others ih =>
      have hnext : world.heap.nextSibling? node = some next :=
        hlinked.nextSibling?_of_split hchildren
      let middle : World σ := ((host.removeChild parent node).run world).2
      have hfirst : Withdraws world.heap middle.heap [node] := .remove hlinked hchildren
      by_cases hlast : node = last
      · subst hlast
        rw [through, if_pos rfl]
        refine ⟨middle.heap, middle.host, fun count hcount => ?_, hfirst⟩
        obtain ⟨count, rfl⟩ := Nat.exists_eq_add_of_le' hcount
        exact run_removeRun_last host world
      · have hleft : middle.heap.children parent = before ++ next :: others := by
          have hnodup : (before ++ node :: next :: others).Nodup := hchildren ▸ hlinked.nodup parent
          rw [hfirst.children_eq, hchildren, ← filter_ne_append hnodup]
          exact List.filter_congr fun id _ => by simp [bne, Bool.beq_eq_decide_eq]
        obtain ⟨after, state, hrun, hrest⟩ := ih middle hfirst.linked hleft
        rw [through, if_neg hlast]
        refine ⟨after, state, fun count hcount => ?_, hfirst.cons hrest⟩
        cases count with
        | zero => exact absurd hcount (Nat.not_succ_le_zero _)
        | succ count =>
            have hfewer := Nat.le_of_succ_le_succ hcount
            exact (run_removeRun_next hnext hlast).trans (hrun count hfewer)

theorem extends_parseFragment (hhost : host.Refuses fun _ => none) (hlinked : world.heap.Linked)
    (markup : String) :
    Extends world.heap ((parseFragment host markup).runIn world).2.heap := by
  rw [parseFragment, Effect.runIn_adapt, Host.runIn_parseFragment world hhost rfl]
  exact .parseFragment hlinked markup

theorem extends_fragmentBounds (host : Host σ) (world : World σ) {fragment : NodeId}
    (hlinked : world.heap.Linked) (hfragment : fragment < world.heap.size) :
    Extends world.heap ((fragmentBounds host fragment).run world).2.heap := by
  have hmade := Extends.create hlinked (.text "")
  have hplaced : Extends world.heap
      ((world.heap.create (.text "")).2.append fragment world.heap.size) :=
    hmade.append (Nat.le_refl _) (by simp) hfragment (by simp [Heap.kind, Cell.fresh])
  simp only [fragmentBounds, StateT.run_bind, StateT.run_get, pure_bind]
  split
  · exact .refl hlinked
  · exact hplaced

section ReplaceRun

variable {first last parent : NodeId} {before rest : List NodeId}

/-- What replacing a run does in any document in which the first node has a parent. -/
theorem runIn_replaceRun_linked (hhost : host.Refuses fun _ => none) (hlinked : world.heap.Linked)
    (hchildren : world.heap.children parent = before ++ first :: rest)
    (hlast : last < world.heap.size) (markup : String) : ∃ after state newFirst newOthers,
      (Binding.replaceRun host first last markup).runIn world =
          (.ok (newFirst.root, lastRoot newFirst newOthers), ⟨after, world.context, state⟩) ∧
        world.heap.Resplices after parent (world.heap.stretch first last)
            (world.heap.nextSibling? last) (newFirst :: newOthers) ∧
          trees (newFirst :: newOthers) = boundForest (Markup.parse markup) := by
  obtain ⟨grown, seen, placed, hparse, hmade, htrees⟩ := runIn_parseFragment hhost world markup
  have hgrown := extends_parseFragment hhost hlinked markup
  rw [hparse] at hgrown
  let parsed : World σ := ⟨grown, world.context, seen⟩
  obtain ⟨made, state, newFirst, newOthers, hbounds, hstands, hnewTrees⟩ :=
    run_fragmentBounds host parsed hmade
  have hextends : Extends world.heap made := by
    refine hgrown.trans ?_
    have hbounded := extends_fragmentBounds host parsed hgrown.linked hmade.size_lt
    rwa [hbounds] at hbounded
  let bounded : World σ := ⟨made, world.context, state⟩
  have hlink := hlinked.parent?_of_split hchildren
  have hparent : parent < world.heap.size := hlinked.parent_lt_size hlink
  have hmadeChildren : made.children parent = before ++ first :: rest := by
    rw [hstands.children_old hparent, hchildren]
  obtain ⟨unlinked, left, hremoveAll, hwithdraws⟩ :=
    run_removeRun_through host bounded last hextends.linked hmadeChildren
  have hremove := hremoveAll (made.children parent).length <| by
    rw [hmadeChildren, List.length_append]
    exact Nat.le_add_left_of_le (length_through_le last (first :: rest))
  have hnext : made.nextSibling? last = world.heap.nextSibling? last :=
    hstands.nextSibling?_old hlinked hlast
  have hrun := runIn_replaceRun_of_steps hlink hparse hbounds hremove
  rw [show bounded.heap.nextSibling? last = world.heap.nextSibling? last from hnext] at hrun
  have hstretch : world.heap.stretch first last = through last (first :: rest) :=
    hlinked.stretch_eq hchildren
  have hsubset : through last (first :: rest) ⊆ world.heap.children parent := by
    intro id hid
    rw [hchildren]
    exact List.mem_append_right _ (through_subset last _ hid)
  refine ⟨_, _, newFirst, newOthers, hrun, ?_, by rw [hnewTrees, htrees]⟩
  rw [hstretch]
  exact hstands.resplices hlinked hextends hparent hsubset hwithdraws _

end ReplaceRun

end MustacheHtml.Render
