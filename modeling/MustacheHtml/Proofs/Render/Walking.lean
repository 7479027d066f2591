import MustacheHtml.Proofs.Document.Edits
import MustacheHtml.Proofs.Render.Resplicing

namespace MustacheHtml.Document.Heap

/-- Going on from a node to the next sibling until there is none visits these nodes. -/
inductive Walks (heap : Heap) : Option NodeId → List NodeId → Prop where
  | done : Walks heap none []
  | step {id : NodeId} {rest : List NodeId} (hrest : Walks heap (heap.nextSibling? id) rest) :
      Walks heap (some id) (id :: rest)

variable {heap : Heap} {parent : NodeId}

theorem Walks.unique {start? : Option NodeId} {visited others : List NodeId}
    (hvisited : heap.Walks start? visited) (hothers : heap.Walks start? others) :
    visited = others := by
  induction hvisited generalizing others with
  | done =>
      cases hothers
      rfl
  | step _ ih =>
      cases hothers with
      | step hrest => rw [ih hrest]

theorem Linked.walks_rest (hlinked : heap.Linked) {before rest : List NodeId}
    (hchildren : heap.children parent = before ++ rest) : heap.Walks rest.head? rest := by
  induction rest generalizing before with
  | nil => exact .done
  | cons id others ih =>
      refine .step ?_
      rw [hlinked.nextSibling?_of_split hchildren]
      have hnext : heap.children parent = (before ++ [id]) ++ others := by
        rw [hchildren, List.append_assoc, List.singleton_append]
      exact ih hnext

theorem Linked.walks_iff (hlinked : heap.Linked) (parent : NodeId) (visited : List NodeId) :
    heap.Walks (heap.firstChild? parent) visited ↔ visited = heap.children parent := by
  have hwalks : heap.Walks (heap.firstChild? parent) (heap.children parent) :=
    hlinked.walks_rest (List.nil_append _).symm
  constructor
  · exact fun hvisited => hvisited.unique hwalks
  · rintro rfl
    exact hwalks

theorem Linked.nextSibling?_lastChild (hlinked : heap.Linked) {last : NodeId}
    (hlast : heap.lastChild? parent = some last) :
    ∃ front, heap.children parent = front ++ [last] ∧ heap.nextSibling? last = none := by
  obtain ⟨front, hchildren⟩ := List.getLast?_eq_some_iff.mp hlast
  exact ⟨front, hchildren, hlinked.nextSibling?_of_split hchildren⟩

end MustacheHtml.Document.Heap

namespace MustacheHtml.Render

open MustacheHtml.Document
open MustacheHtml.Document.Heap

variable {σ : Type}

/-- A walk from the first child visits every child once, in order, and ends behind the last one.
Removing from a child on takes away just the children through the one where it is to stop, or all
that follow if that one does not, and then ends by itself. -/
theorem walks_and_removes_siblings (host : Host σ) {world : World σ} (hlinked : world.heap.Linked)
    (parent : NodeId) :
    (∀ visited, world.heap.Walks (world.heap.firstChild? parent) visited ↔
      visited = world.heap.children parent) ∧
    (world.heap.children parent).Nodup ∧
    (∀ last, world.heap.lastChild? parent = some last →
      ∃ front, world.heap.children parent = front ++ [last] ∧
        world.heap.nextSibling? last = none) ∧
    ∀ node last, world.heap.parent? node = some parent → ∃ before run behind after state,
      world.heap.children parent = before ++ run ++ behind ∧ run.head? = some node ∧
      (last ∈ run ++ behind → run.getLast? = some last) ∧
      (last ∉ run ++ behind → behind = []) ∧
      (∀ count, run.length ≤ count → (removeRun host parent last count node).run world =
        ((), ⟨after, world.context, state⟩)) ∧
      after.children parent = before ++ behind ∧ world.heap.Withdraws after run := by
  refine ⟨hlinked.walks_iff parent, hlinked.nodup parent,
    fun last => hlinked.nextSibling?_lastChild, ?_⟩
  intro node last hnode
  obtain ⟨before, rest, hchildren⟩ :=
    List.append_of_mem ((hlinked.parent_iff parent node).mp hnode)
  obtain ⟨after, state, hrun, hwithdraws⟩ :=
    run_removeRun_through host world last hlinked hchildren
  obtain ⟨behind, hsplit, hfound, hmissing⟩ : ∃ behind,
      node :: rest = through last (node :: rest) ++ behind ∧
        (last ∈ node :: rest → (through last (node :: rest)).getLast? = some last) ∧
        (last ∉ node :: rest → behind = []) := by
    by_cases hlast : last ∈ node :: rest
    · obtain ⟨behind, hsplit, hend⟩ := exists_through_eq hlast
      exact ⟨behind, hsplit, fun _ => hend, fun hnot => absurd hlast hnot⟩
    · refine ⟨[], ?_, fun hmem => absurd hmem hlast, fun _ => rfl⟩
      rw [through_of_not_mem hlast, List.append_nil]
  have hhead : (through last (node :: rest)).head? = some node := by
    rw [through]
    split <;> rfl
  have hbetween : world.heap.children parent =
      before ++ through last (node :: rest) ++ behind := by
    rw [hchildren, List.append_assoc, ← hsplit]
  have hleft : after.children parent = before ++ behind := by
    have hnodup := hlinked.nodup parent
    rw [hbetween] at hnodup
    rw [hwithdraws.children_eq, hbetween, filter_run_append hnodup]
  refine ⟨before, through last (node :: rest), behind, after, state, hbetween, hhead, ?_, ?_, hrun,
    hleft, hwithdraws⟩
  · rwa [← hsplit]
  · rwa [← hsplit]

section Queue

/-- Four texts one after the other, the second of which has been moved to the end, and a text
elsewhere. -/
def queueEdits : List Edit :=
  [.perform (.createElement "p"), .perform (.createText "1"), .perform (.createText "2"),
    .perform (.createText "3"), .perform (.createText "4"), .perform (.createText "elsewhere"),
    .perform (.appendChild 0 1), .perform (.appendChild 0 2), .perform (.appendChild 0 3),
    .perform (.appendChild 0 4), .perform (.appendChild 0 2)]

def queueWorld : World Unit :=
  ⟨Heap.empty.edited queueEdits, .null, ()⟩

theorem walks_and_removes_siblings_queue :
    queueWorld.heap.Linked ∧ queueWorld.heap.parent? 3 = some 0 ∧
      (∀ visited, queueWorld.heap.Walks (some 1) visited ↔ visited = [1, 3, 4, 2]) ∧
      ∀ last, ∃ before run behind after,
        [1, 3, 4, 2] = before ++ run ++ behind ∧ run.head? = some 3 ∧
        (last ∈ run ++ behind → run.getLast? = some last) ∧
        (last ∉ run ++ behind → behind = []) ∧
        (removeRun (Host.silent Unit) 0 last 4 3).run queueWorld = ((), after) ∧
        after.heap.children 0 = before ++ behind := by
  have hnodes : Edit.Follow Edit.OnNodes .empty queueEdits := by decide +kernel
  have hlinked : queueWorld.heap.Linked := (Edit.linked_edited .empty .empty hnodes).1
  have hparent : queueWorld.heap.parent? 3 = some 0 := by decide +kernel
  have hfirst : queueWorld.heap.firstChild? 0 = some 1 := by decide +kernel
  have hchildren : queueWorld.heap.children 0 = [1, 3, 4, 2] := by decide +kernel
  obtain ⟨hwalks, -, -, hremoves⟩ := walks_and_removes_siblings (Host.silent Unit) hlinked 0
  rw [hfirst, hchildren] at hwalks
  refine ⟨hlinked, hparent, hwalks, fun last => ?_⟩
  obtain ⟨before, run, behind, after, state, hsplit, hhead, hfound, hmissing, hrun, hleft, -⟩ :=
    hremoves 3 last hparent
  rw [hchildren] at hsplit
  have hcount : run.length ≤ 4 := by
    have hlength := congrArg List.length hsplit
    simp only [List.length_append, List.length_cons, List.length_nil] at hlength
    omega
  exact ⟨before, run, behind, _, hsplit, hhead, hfound, hmissing, hrun 4 hcount, hleft⟩

end Queue

end MustacheHtml.Render
