import MustacheHtml.Proofs.Document.Sparing
import MustacheHtml.Proofs.Render.Resplicing

namespace MustacheHtml.Document.Heap

open Placed
open Relation

/-- New trees have taken the place of a run. What has been taken out has no parent and shows what it
has shown, and nothing else has changed. -/
structure Splices (heap after : Heap) (parent : NodeId) (before run behind : List NodeId)
    (new : List Placed) : Prop where
  cell_parent : after.cell parent =
    { heap.cell parent with children := before ++ roots new ++ behind }
  cell_run : ∀ id ∈ run, after.cell id = { heap.cell id with parent := none }
  forest_run : ∀ id ∈ run, ∀ depth, after.forest depth [id] = heap.forest depth [id]
  cell_other : ∀ id < heap.size, id ≠ parent → id ∉ run → after.cell id = heap.cell id
  holds : after.Holds (some parent) new
  fresh : ∀ id ∈ nodes new, heap.size ≤ id
  nodup : (nodes new).Nodup

variable {heap after : Heap} {first last parent : NodeId} {before run behind : List NodeId}
  {new : List Placed}

theorem Acyclic.not_reaches_parent (hacyclic : heap.Acyclic) (hlinked : heap.Linked) {id : NodeId}
    (hparent : heap.parent? id = some parent) : ¬ heap.Reaches id parent := by
  intro hreaches
  have hback : ReflTransGen heap.ChildOf parent id := by
    rw [← reflTransGen_swap]
    refine ReflTransGen.mono (fun above below hbelow => ?_) _ _ hreaches
    exact (hlinked.parent_iff above below).mpr hbelow
  exact hacyclic parent (TransGen.tail' hback hparent)

theorem Spans.filter_run (hspans : heap.Spans first last parent before run behind)
    (hlinked : heap.Linked) : (heap.children parent).filter (· ∉ run) = before ++ behind := by
  rw [hspans.children_eq, filter_run_append (hspans.nodup hlinked)]

/-- Before what is behind the run, the new trees stand where the run has been. -/
theorem Resplices.splices (hresplices : Resplices heap after parent run behind.head? new)
    (hlinked : heap.Linked) (hacyclic : heap.Acyclic)
    (hspans : heap.Spans first last parent before run behind) :
    Splices heap after parent before run behind new := by
  have hparents := hspans.parent?_eq hlinked
  have hparent : parent ∉ run := fun hmem =>
    hacyclic.not_reaches_parent hlinked (hparents parent hmem) .refl
  have hparentBound := hspans.parent_lt_size hlinked
  have hbound : ∀ id ∈ run, id < heap.size := fun id hid =>
    hlinked.child_lt_size (hspans.run_subset hid)
  have hsiblings : (before ++ behind).Nodup := by
    rw [← hspans.filter_run hlinked]
    exact (hlinked.nodup parent).filter _
  constructor
  case cell_parent =>
    refine Cell.ext (hresplices.kind_eq parent hparentBound)
      (hresplices.parent_other parent hparentBound hparent) ?_
    show after.children parent = before ++ roots new ++ behind
    rw [hresplices.children_parent, hspans.filter_run hlinked, insertBlock_head? hsiblings]
  case cell_run =>
    intro id hid
    refine Cell.ext (hresplices.kind_eq id (hbound id hid)) (hresplices.parent_run id hid) ?_
    exact hresplices.children_other id (hbound id hid) (ne_of_mem_of_not_mem hid hparent)
  case forest_run =>
    intro root hroot depth
    refine forest_congr depth ?_
    rintro other hother id hreaches
    rw [List.mem_singleton.mp hother] at hreaches
    have hid := hlinked.lt_size_of_reaches (hbound root hroot) hreaches
    -- Only the parent has other children now, and it is not below any of them.
    refine ⟨hresplices.kind_eq id hid, hresplices.children_other id hid ?_⟩
    rintro rfl
    exact hacyclic.not_reaches_parent hlinked (hparents root hroot) hreaches
  case cell_other =>
    intro id hid hne hnot
    exact Cell.ext (hresplices.kind_eq id hid) (hresplices.parent_other id hid hnot)
      (hresplices.children_other id hid hne)
  case holds => exact hresplices.holds
  case fresh => exact hresplices.fresh
  case nodup => exact hresplices.nodup

end MustacheHtml.Document.Heap

namespace MustacheHtml.Document.Edit

/-- The edit takes place around the run between two nodes. -/
structure LeavesRun (first last : NodeId) (heap : Heap) (edit : Edit) : Prop where
  nodes : edit.OnNodes heap
  apart : edit.PutsApart heap
  spares : edit.Spares heap (heap.stretch first last)

end MustacheHtml.Document.Edit

namespace MustacheHtml.Render

open MustacheHtml.Document
open MustacheHtml.Document.Heap
open MustacheHtml.Document.Placed
open Relation

variable {σ : Type} {host : Host σ} {world : World σ} {path : List String}
  {first last parent : NodeId} {before run behind : List NodeId}

/-- Updating a binding to the run succeeds. It puts the trees of the text in the place of the run,
and the binding holds the ends of these afterwards. -/
def UpdateSplices (host : Host σ) (world : World σ) (path : List String)
    (first last parent : NodeId) (before run behind : List NodeId) : Prop :=
  ∃ newFirst newLast after new,
    (Binding.update host ⟨path, .fragment first last⟩).runIn world =
        (.ok ⟨path, .fragment newFirst newLast⟩, after) ∧
      after.context = world.context ∧
      world.heap.Splices after.heap parent before run behind new ∧
      trees new = boundForest (Markup.parse (world.textAt path)) ∧
      after.heap.Linked ∧ after.heap.Acyclic ∧
      after.heap.Spans newFirst newLast parent before (roots new) behind

theorem updateSplices_of_spans (hhost : host.Refuses fun _ => none) (hlinked : world.heap.Linked)
    (hacyclic : world.heap.Acyclic)
    (hspans : world.heap.Spans first last parent before run behind) (path : List String) :
    UpdateSplices host world path first last parent before run behind := by
  obtain ⟨others, -, hchildren⟩ := hspans.exists_cons
  have hlast : last < world.heap.size :=
    hlinked.child_lt_size (hspans.run_subset hspans.last_mem)
  obtain ⟨after, state, newFirst, newOthers, hrun, hresplices, htrees⟩ :=
    runIn_replaceRun_linked hhost hlinked hchildren hlast (world.textAt path)
  rw [hspans.stretch_eq hlinked, hspans.nextSibling?_eq hlinked] at hresplices
  have hsplices := hresplices.splices hlinked hacyclic hspans
  refine ⟨_, _, _, _, runIn_update_run hrun, rfl, hsplices, htrees, hresplices.linked,
    hresplices.acyclic hacyclic, ?_, rfl, roots_getLast? newFirst newOthers⟩
  rw [Heap.children, hsplices.cell_parent]

/-- What may happen to a binding to a fragment: the data change, the document is edited around its
run, or it is updated. The host may keep what it likes of that. -/
inductive Happens (host : Host σ) : World σ × Binding σ → World σ × Binding σ → Prop
  | data {world after : World σ} {binding : Binding σ} (hheap : after.heap = world.heap) :
      Happens host (world, binding) (after, binding)
  | edit {world after : World σ} {path : List String} {first last : NodeId} {edit : Edit}
      (hedit : edit.LeavesRun first last world.heap) (hheap : after.heap = edit.apply world.heap) :
      Happens host (world, ⟨path, .fragment first last⟩) (after, ⟨path, .fragment first last⟩)
  | update {world after : World σ} {binding updated : Binding σ}
      (hrun : (binding.update host).runIn world = (.ok updated, after)) :
      Happens host (world, binding) (after, updated)

theorem happens_edited {after : World σ} {edits : List Edit}
    (hedits : Edit.Follow (Edit.LeavesRun first last) world.heap edits)
    (hheap : after.heap = world.heap.edited edits) :
    ReflTransGen (Happens host) (world, ⟨path, .fragment first last⟩)
      (after, ⟨path, .fragment first last⟩) := by
  induction edits generalizing world with
  | nil => exact .single (.data hheap)
  | cons edit rest ih =>
      let middle : World σ := ⟨edit.apply world.heap, world.context, world.host⟩
      exact .head (.edit hedits.1 (Eq.refl middle.heap)) (ih hedits.2 hheap)

/-- The document is in order, and the binding holds the ends of a run in it. -/
structure Holding (path : List String) (state : World σ × Binding σ) : Prop where
  linked : state.1.heap.Linked
  acyclic : state.1.heap.Acyclic
  held : ∃ first last parent before run behind, state.2 = ⟨path, .fragment first last⟩ ∧
    state.1.heap.Spans first last parent before run behind

theorem Holding.step (hhost : host.Refuses fun _ => none) {state next : World σ × Binding σ}
    (hholding : Holding path state) (hhappens : Happens host state next) : Holding path next := by
  obtain ⟨hlinked, hacyclic, first, last, parent, before, run, behind, hbinding, hspans⟩ := hholding
  cases hhappens with
  | data hheap =>
      constructor
      all_goals rw [hheap]
      · exact hlinked
      · exact hacyclic
      · exact ⟨first, last, parent, before, run, behind, hbinding, hspans⟩
  | edit hedit hheap =>
      cases hbinding
      have hspares := hedit.spares
      rw [hspans.stretch_eq hlinked] at hspares
      obtain ⟨owner, front, back, hkept⟩ := hspares.spans hlinked hedit.nodes hspans
      constructor
      all_goals rw [hheap]
      · exact Edit.linked_apply hlinked hedit.nodes
      · exact Edit.acyclic_apply hacyclic hlinked hedit.nodes hedit.apart
      · exact ⟨first, last, owner, front, run, back, rfl, hkept⟩
  | update hrun =>
      cases hbinding
      obtain ⟨newFirst, newLast, after, new, hupdate, -, -, -, hlinkedAfter, hacyclicAfter,
        hends⟩ := updateSplices_of_spans hhost hlinked hacyclic hspans path
      cases hrun.symm.trans hupdate
      exact ⟨hlinkedAfter, hacyclicAfter, newFirst, newLast, parent, before, roots new, behind, rfl,
        hends⟩

theorem Holding.steps (hhost : host.Refuses fun _ => none) {state last : World σ × Binding σ}
    (hholding : Holding path state) (hhappens : ReflTransGen (Happens host) state last) :
    Holding path last := by
  induction hhappens with
  | refl => exact hholding
  | tail _ hstep ih => exact ih.step hhost hstep

/-- Updating a binding that holds the ends of a run splices new trees in its place, and it goes on
to do so whatever happens: after any updates, changes of the data and edits around the run, of which
one is to append the fragment that the run stands in to another node. -/
theorem update_splices_always (hhost : host.Refuses fun _ => none) (hlinked : world.heap.Linked)
    (hacyclic : world.heap.Acyclic)
    (hspans : world.heap.Spans first last parent before run behind) (path : List String) :
    UpdateSplices host world path first last parent before run behind ∧
      ∀ after updated,
        ReflTransGen (Happens host) (world, ⟨path, .fragment first last⟩) (after, updated) →
          ∃ first last parent before run behind, updated = ⟨path, .fragment first last⟩ ∧
            after.heap.Spans first last parent before run behind ∧
            UpdateSplices host after path first last parent before run behind ∧
            (after.heap.kind parent = .fragment → ∀ target,
              (Edit.perform (.appendChild target parent)).Spares after.heap
                (after.heap.stretch first last)) := by
  refine ⟨updateSplices_of_spans hhost hlinked hacyclic hspans path, ?_⟩
  intro after updated hhappens
  have hholding : Holding path (world, (⟨path, .fragment first last⟩ : Binding σ)) :=
    ⟨hlinked, hacyclic, first, last, parent, before, run, behind, rfl, hspans⟩
  obtain ⟨hlinkedAfter, hacyclicAfter, first, last, parent, before, run, behind, hupdated,
    hafter⟩ := hholding.steps hhost hhappens
  refine ⟨first, last, parent, before, run, behind, hupdated, hafter,
    updateSplices_of_spans hhost hlinkedAfter hacyclicAfter hafter path, ?_⟩
  intro hfragment target
  rw [hafter.stretch_eq hlinkedAfter]
  refine ⟨?_, nofun⟩
  rintro move ⟨⟩
  rw [moved_of_fragment hfragment]
  exact .inl ⟨before, behind, hafter.children_eq.symm⟩

section Frame

/-- Markup between two texts in a fragment. -/
def frameEdits : List Edit :=
  [.perform .createFragment, .perform (.createText "a"), .perform (.appendChild 0 1),
    .perform (.parseFragment "<b>x</b>y"), .perform (.appendChild 0 2),
    .perform (.createText "z"), .perform (.appendChild 0 6)]

def frameWorld : World Unit :=
  ⟨Heap.empty.edited frameEdits, .map [("x", .string "")], ()⟩

/-- The frame after an update for data without markup. -/
def frameUpdated : World Unit :=
  ((Binding.update (Host.silent Unit) ⟨["x"], .fragment 3 5⟩).runIn frameWorld).2

/-- All of it goes into an element, and then what has been behind the run goes before it. -/
def frameMoves : List Edit :=
  [.perform (.createElement "div"), .perform (.appendChild 9 0),
    .perform (.insertBefore 9 6 (some 8))]

def frameMoved : World Unit :=
  ⟨frameUpdated.heap.edited frameMoves, .map [("x", .string "<i>1</i>2")], ()⟩

theorem linked_frameWorld : frameWorld.heap.Linked ∧ frameWorld.heap.Acyclic := by
  have hnodes : Edit.Follow Edit.OnNodes .empty frameEdits := by decide +kernel
  have hroots : Edit.Follow Edit.IntoRoots .empty frameEdits := by decide +kernel
  exact Edit.linked_and_acyclic_of_intoRoots hnodes hroots

theorem leavesRun_frameMoves :
    Edit.Follow (Edit.LeavesRun 8 8) frameUpdated.heap frameMoves := by
  have hmoves : Edit.Follow (fun heap edit => edit.OnNodes heap ∧ edit.IntoRoots heap ∧
      edit.Spares heap (heap.stretch 8 8)) frameUpdated.heap frameMoves := by decide +kernel
  exact hmoves.mono fun _ _ hedit => ⟨hedit.1, hedit.2.1.putsApart, hedit.2.2⟩

theorem update_splices_always_frame :
    (Host.silent Unit).Refuses (fun _ => none) ∧ frameWorld.heap.Linked ∧
      frameWorld.heap.Acyclic ∧ frameWorld.heap.Spans 3 5 0 [1] [3, 5] [6] ∧
      UpdateSplices (Host.silent Unit) frameWorld ["x"] 3 5 0 [1] [3, 5] [6] ∧
      frameMoved.heap.children 9 = [1, 6, 8] ∧
      ReflTransGen (Happens (Host.silent Unit)) (frameWorld, ⟨["x"], .fragment 3 5⟩)
        (frameMoved, ⟨["x"], .fragment 8 8⟩) ∧
      ∃ parent before run behind, frameMoved.heap.Spans 8 8 parent before run behind ∧
        UpdateSplices (Host.silent Unit) frameMoved ["x"] 8 8 parent before run behind := by
  have hhost : (Host.silent Unit).Refuses fun _ => none := fun _ _ => rfl
  obtain ⟨hlinked, hacyclic⟩ := linked_frameWorld
  have hspans : frameWorld.heap.Spans 3 5 0 [1] [3, 5] [6] := ⟨by decide +kernel, rfl, rfl⟩
  obtain ⟨hsplices, hlasts⟩ := update_splices_always hhost hlinked hacyclic hspans ["x"]
  obtain ⟨newFirst, newLast, after, new, hrun, -, -, -, -, -, hends⟩ := id hsplices
  obtain rfl : frameUpdated = after := congrArg Prod.snd hrun
  -- The ends after the update are read off the children, where the neighbours are known.
  have hroots : [8] = roots new := by
    have hchildren : frameUpdated.heap.children 0 = [1, 8, 6] := by decide +kernel
    have hsame : [1] ++ [8] ++ [6] = [1] ++ roots new ++ [6] :=
      hchildren.symm.trans hends.children_eq
    exact List.append_cancel_left (List.append_cancel_right hsame)
  obtain ⟨rfl, rfl⟩ : 8 = newFirst ∧ 8 = newLast := by
    have hfirst := hends.head_eq
    have hlast := hends.last_eq
    rw [← hroots] at hfirst hlast
    exact ⟨Option.some.inj hfirst, Option.some.inj hlast⟩
  have hhappens : ReflTransGen (Happens (Host.silent Unit)) (frameWorld, ⟨["x"], .fragment 3 5⟩)
      (frameMoved, ⟨["x"], .fragment 8 8⟩) :=
    .head (.update hrun) (happens_edited leavesRun_frameMoves rfl)
  obtain ⟨first, last, parent, before, run, behind, hbinding, hmoved, hagain, -⟩ :=
    hlasts _ _ hhappens
  cases hbinding
  exact ⟨hhost, hlinked, hacyclic, hspans, hsplices, by decide +kernel, hhappens, parent, before,
    run, behind, hmoved, hagain⟩

end Frame

end MustacheHtml.Render
