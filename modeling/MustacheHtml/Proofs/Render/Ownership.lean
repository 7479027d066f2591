import MustacheHtml.Proofs.Document.Edits
import MustacheHtml.Proofs.Render.Resplicing

/-!
What an update of a binding to a fragment takes away, wherever its two nodes have been moved.
Nothing happens once the first node has no parent. As long as it has one, its siblings up to the
last node are removed; and these are all that follow it if the last node is not one of them.
-/

namespace MustacheHtml.Document.Heap

/-- The two nodes are children of one parent, the first one at or before the last one. -/
def Together (heap : Heap) (first last : NodeId) : Prop :=
  ∃ parent before run behind, heap.Spans first last parent before run behind

/-- The node is one of the siblings from the first one to the last one. -/
def Between (heap : Heap) (first last node : NodeId) : Prop :=
  ∃ parent before run behind, heap.Spans first last parent before run behind ∧ node ∈ run

/-- The first node still has a parent, but the last one does not follow it there. -/
def Severed (heap : Heap) (first last : NodeId) : Prop :=
  heap.parent? first ≠ none ∧ ¬ heap.Together first last

variable {heap : Heap} {first last node : NodeId}

theorem Linked.together_iff (hlinked : heap.Linked) :
    heap.Together first last ↔ last ∈ heap.onward first := by
  constructor
  · rintro ⟨parent, before, run, behind, hspans⟩
    obtain ⟨others, rfl, hchildren⟩ := hspans.exists_cons
    rw [hlinked.onward_eq hchildren, ← List.cons_append]
    exact List.mem_append_left _ hspans.last_mem
  · intro hlast
    cases hparent : heap.parent? first with
    | none => simp [onward, hparent] at hlast
    | some parent =>
        obtain ⟨before, rest, hchildren⟩ :=
          List.append_of_mem ((hlinked.parent_iff parent first).mp hparent)
        rw [hlinked.onward_eq hchildren] at hlast
        obtain ⟨behind, hsplit, hend⟩ := exists_through_eq hlast
        refine ⟨parent, before, through last (first :: rest), behind, ?_, ?_, hend⟩
        · rw [hchildren, List.append_assoc, ← hsplit]
        · rw [through]
          split <;> rfl

theorem Linked.between_of_mem_stretch (hlinked : heap.Linked) (htogether : heap.Together first last)
    (hnode : node ∈ heap.stretch first last) : heap.Between first last node := by
  obtain ⟨parent, before, run, behind, hspans⟩ := htogether
  rw [hspans.stretch_eq hlinked] at hnode
  exact ⟨parent, before, run, behind, hspans, hnode⟩

theorem Linked.stretch_of_not_together (hlinked : heap.Linked)
    (htogether : ¬ heap.Together first last) : heap.stretch first last = heap.onward first :=
  through_of_not_mem fun hlast => htogether (hlinked.together_iff.mpr hlast)

theorem Resplices.mem_of_removed {after : Heap} {parent : NodeId} {run : List NodeId}
    {mark : Option NodeId} {new : List Placed}
    (hresplices : Resplices heap after parent run mark new) (hlinked : heap.Linked) {id : NodeId}
    (hold : node ∈ heap.children id) (hnew : node ∉ after.children id) : node ∈ run := by
  by_cases hid : id = parent
  · rw [hid, hresplices.children_parent, (insertBlock_perm _ _ _).mem_iff, List.mem_append, not_or,
      List.mem_filter, ← hid] at hnew
    by_contra hkept
    exact hnew.2 ⟨hold, decide_eq_true hkept⟩
  · have hbound : id < heap.size :=
      hlinked.parent_lt_size ((hlinked.parent_iff id node).mpr hold)
    rw [hresplices.children_other id hbound hid] at hnew
    exact absurd hold hnew

end MustacheHtml.Document.Heap

namespace MustacheHtml.Render

open MustacheHtml.Document
open MustacheHtml.Document.Heap

variable {σ : Type} {host : Host σ} {world : World σ} {first last : NodeId}

theorem runIn_replaceRun_parentless (hparent : world.heap.parent? first = none) (markup : String) :
    (Binding.replaceRun host first last markup).runIn world = (.ok (first, last), world) := by
  unfold Binding.replaceRun
  refine (Effect.runIn_bind_ok (Effect.runIn_get world)).trans ?_
  simp only [hparent]
  rfl

/-- Updating a binding to a fragment succeeds. Where its two nodes are not together it changes
nothing, and it never takes a node away that does not lie between them; unless they are severed, for
then it takes away all siblings from the first node on. -/
theorem update_takes_between (hhost : host.Refuses fun _ => none) (hlinked : world.heap.Linked)
    (first : NodeId) (hlast : last < world.heap.size) (path : List String) : ∃ updated after,
    (Binding.update host ⟨path, .fragment first last⟩).runIn world = (.ok updated, after) ∧
      (¬ world.heap.Together first last → ¬ world.heap.Severed first last →
        updated = ⟨path, .fragment first last⟩ ∧ after = world) ∧
      (∀ parent node, node ∈ world.heap.children parent → node ∉ after.heap.children parent →
        world.heap.Between first last node ∨
          world.heap.Severed first last ∧ node ∈ world.heap.onward first) ∧
      (world.heap.Severed first last →
        ∀ node ∈ world.heap.onward first, after.heap.parent? node = none) := by
  cases hparent : world.heap.parent? first with
  | none =>
      refine ⟨_, world, runIn_update_run (runIn_replaceRun_parentless hparent _),
        fun _ _ => ⟨rfl, rfl⟩, fun parent node hold hnew => absurd hold hnew, ?_⟩
      exact fun hsevered => absurd hparent hsevered.1
  | some parent =>
      obtain ⟨before, rest, hchildren⟩ :=
        List.append_of_mem ((hlinked.parent_iff parent first).mp hparent)
      obtain ⟨after, state, newFirst, newOthers, hrun, hresplices, -⟩ :=
        runIn_replaceRun_linked hhost hlinked hchildren hlast (world.textAt path)
      have hsevered : ¬ world.heap.Together first last → world.heap.Severed first last :=
        fun htogether => ⟨by simp [hparent], htogether⟩
      refine ⟨_, _, runIn_update_run hrun, ?_, ?_, ?_⟩
      · exact fun htogether hnot => absurd (hsevered htogether) hnot
      · intro id node hold hnew
        have hnode := hresplices.mem_of_removed hlinked hold hnew
        by_cases htogether : world.heap.Together first last
        · exact .inl (hlinked.between_of_mem_stretch htogether hnode)
        · rw [hlinked.stretch_of_not_together htogether] at hnode
          exact .inr ⟨hsevered htogether, hnode⟩
      · rintro ⟨-, htogether⟩ node hnode
        rw [← hlinked.stretch_of_not_together htogether] at hnode
        exact hresplices.parent_run node hnode

section Note

/-- Markup in front of a text of the page itself. -/
def noteEdits : List Edit :=
  [.perform (.createElement "p"), .perform (.parseFragment "<b>1</b><i>2</i>"),
    .perform (.appendChild 0 1), .perform (.createText " world"), .perform (.appendChild 0 6)]

/-- The note once the page has removed a part of the markup, and new markup for all of it. -/
def noteWithout (node : NodeId) : World Unit where
  heap := (Heap.empty.edited noteEdits).remove 0 node
  context := .map [("x", .string "<i>new</i>")]
  host := ()

theorem linked_noteWithout (node : NodeId) : (noteWithout node).heap.Linked := by
  have hnodes : Edit.Follow Edit.OnNodes .empty noteEdits := by decide +kernel
  exact (Edit.linked_edited .empty .empty hnodes).1.remove 0 node

theorem update_takes_between_note :
    (Host.silent Unit).Refuses (fun _ => none) ∧ (noteWithout 2).heap.Linked ∧
      4 < (noteWithout 2).heap.size ∧ ¬ (noteWithout 2).heap.Together 2 4 ∧
      ¬ (noteWithout 2).heap.Severed 2 4 ∧ ∃ updated after,
        (Binding.update (Host.silent Unit) ⟨["x"], .fragment 2 4⟩).runIn (noteWithout 2) =
            (.ok updated, after) ∧
          updated = ⟨["x"], .fragment 2 4⟩ ∧ after = noteWithout 2 := by
  have hhost : (Host.silent Unit).Refuses fun _ => none := fun _ _ => rfl
  have hlinked := linked_noteWithout 2
  have hlast : 4 < (noteWithout 2).heap.size := by decide +kernel
  have htogether : ¬ (noteWithout 2).heap.Together 2 4 := by
    rw [hlinked.together_iff]
    decide +kernel
  have hsevered : ¬ (noteWithout 2).heap.Severed 2 4 := by
    rintro ⟨hparent, -⟩
    exact hparent (by decide +kernel)
  obtain ⟨updated, after, hrun, hsame, -⟩ :=
    update_takes_between hhost hlinked 2 hlast ["x"]
  exact ⟨hhost, hlinked, hlast, htogether, hsevered, updated, after, hrun, hsame htogether hsevered⟩

/-- Without its last node the markup is replaced together with the text of the page behind it. -/
theorem update_takes_text_of_page :
    (noteWithout 4).heap.Linked ∧ ¬ (noteWithout 4).heap.Together 2 4 ∧
      ¬ (noteWithout 4).heap.Between 2 4 6 ∧ (noteWithout 4).heap.children 0 = [2, 6] ∧
      (noteWithout 4).heap.innerHtml 0 = "<b>1</b> world" ∧
      let after := ((Binding.update (Host.silent Unit) ⟨["x"], .fragment 2 4⟩).runIn
        (noteWithout 4)).2
      6 ∉ after.heap.children 0 ∧ after.heap.innerHtml 0 = "<i>new</i>" := by
  have hlinked := linked_noteWithout 4
  have htogether : ¬ (noteWithout 4).heap.Together 2 4 := by
    rw [hlinked.together_iff]
    decide +kernel
  refine ⟨hlinked, htogether, ?_, by decide +kernel, by decide +kernel, by decide +kernel,
    by decide +kernel⟩
  rintro ⟨parent, before, run, behind, hspans, -⟩
  exact htogether ⟨parent, before, run, behind, hspans⟩

end Note

end MustacheHtml.Render
