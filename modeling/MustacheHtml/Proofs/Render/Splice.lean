import MustacheHtml.Render.Standard
import MustacheHtml.Proofs.Document.Revision
import MustacheHtml.Proofs.Document.Running

namespace MustacheHtml.Render

open MustacheHtml.Document
open MustacheHtml.Document.Heap
open MustacheHtml.Document.Placed

variable {σ : Type} {host : Host σ} {world : World σ}

/-- The trees of a fragment that is bound; an empty one keeps its place by an empty text. -/
def boundForest : Forest → Forest
  | [] => [.text ""]
  | forest => forest

/-- The root of the last of some trees. -/
def lastRoot (first : Placed) (others : List Placed) : NodeId :=
  (others.getLastD first).root

theorem roots_getLast? (first : Placed) (others : List Placed) :
    (roots (first :: others)).getLast? = some (lastRoot first others) := by
  rw [roots, List.getLast?_map, List.getLast?_cons, Option.map_some, lastRoot,
    List.getLastD_eq_getLast?]

section RemoveRun

variable {parent last node next : NodeId} {count : Nat}

theorem run_removeRun_last (host : Host σ) (world : World σ) :
    (removeRun host parent node (count + 1) node).run world =
      ((), ((host.removeChild parent node).run world).2) := by
  simp only [removeRun, StateT.run_bind, StateT.run_get, pure_bind]
  cases world.heap.nextSibling? node with
  | none => rfl
  | some next =>
      simp only [if_true]
      rfl

theorem run_removeRun_next (hnext : world.heap.nextSibling? node = some next)
    (hne : node ≠ last) : (removeRun host parent last (count + 1) node).run world =
      (removeRun host parent last count next).run
        ((host.removeChild parent node).run world).2 := by
  simp only [removeRun, StateT.run_bind, StateT.run_get, pure_bind, hnext, if_neg hne]
  rfl

theorem run_removeRun (host : Host σ) (world : World σ) {first : NodeId}
    {before run behind : List NodeId} (hrow : world.heap.Row parent before run behind)
    (hfirst : run.head? = some first) (hlast : run.getLast? = some last)
    (hcount : run.length ≤ count) : ∃ after state,
    (removeRun host parent last count first).run world = ((), ⟨after, world.context, state⟩) ∧
      Unlinks world.heap after parent run (before ++ behind) := by
  induction run generalizing world first count with
  | nil => cases hfirst
  | cons node others ih =>
      cases hfirst
      obtain ⟨count, rfl⟩ : ∃ smaller, count = smaller + 1 :=
        ⟨count - 1, by rw [List.length_cons] at hcount; omega⟩
      let middle : World σ := ((host.removeChild parent node).run world).2
      have hunlinks : Unlinks world.heap middle.heap parent [node] (before ++ (others ++ behind)) :=
        hrow.remove_first
      cases others with
      | nil =>
          obtain rfl : node = last := by simpa using hlast
          exact ⟨middle.heap, middle.host, run_removeRun_last host world, hunlinks⟩
      | cons next more =>
          rw [List.getLast?_cons_cons] at hlast
          have hnotLast : node ≠ last :=
            (ne_of_mem_of_not_mem (List.mem_of_getLast? hlast) hrow.not_mem).symm
          obtain ⟨after, state, hrest, hmore⟩ :=
            ih middle (hrow.rest hunlinks) rfl hlast (by simpa using hcount)
          exact ⟨after, state, (run_removeRun_next hrow.nextSibling?_first hnotLast).trans hrest,
            hunlinks.trans hrow.apart hrow.not_mem hmore⟩

end RemoveRun

theorem runIn_parseFragment (hhost : host.Refuses fun _ => none) (world : World σ)
    (markup : String) : ∃ made state placed,
    (parseFragment host markup).runIn world =
        (.ok world.heap.size, ⟨made, world.context, state⟩) ∧
      Stands world.heap made .fragment placed ∧ trees placed = Markup.parse markup := by
  obtain ⟨-, placed, htrees, hmade⟩ := parseFragment_stands world.heap markup
  refine ⟨(world.heap.parseFragment markup).2,
    host.observe (.parseFragment markup) world.heap world.host, placed, ?_, hmade, htrees⟩
  rw [parseFragment, Effect.runIn_adapt, Host.runIn_parseFragment world hhost rfl]
  rfl

theorem run_fragmentBounds (host : Host σ) (world : World σ) {heap : Heap} {placed : List Placed}
    (hstands : Stands heap world.heap .fragment placed) : ∃ after state first others,
    (fragmentBounds host heap.size).run world =
        ((first.root, lastRoot first others), ⟨after, world.context, state⟩) ∧
      Stands heap after .fragment (first :: others) ∧
        trees (first :: others) = boundForest (trees placed) := by
  have hchildren : world.heap.children heap.size = roots placed := by
    rw [Heap.children, hstands.cell_new]
  cases placed with
  | nil =>
      have hgrows := (Stands.create world.heap (.text "")).append_text hstands.size_lt
      have hrun : (fragmentBounds host heap.size).run world =
          (do
            let placeholder ← host.createText ""
            host.appendChild heap.size placeholder
            return (placeholder, placeholder) : StateM (World σ) (NodeId × NodeId)).run world := by
        simp only [fragmentBounds, StateT.run_bind, StateT.run_get, pure_bind, firstChild?,
          hchildren, roots_nil, List.head?_nil]
      exact ⟨_, _, .text world.heap.size "", [], hrun.trans rfl, hstands.grow hgrows, rfl⟩
  | cons first others =>
      refine ⟨world.heap, world.host, first, others, ?_, hstands, rfl⟩
      have hhead : (roots (first :: others)).head? = some first.root := rfl
      simp only [fragmentBounds, StateT.run_bind, StateT.run_get, pure_bind, firstChild?,
        lastChild?, hchildren, hhead, roots_getLast?]
      rfl

theorem runIn_replaceRun_of_steps {parent first last fragment : NodeId} {markup : String}
    {parsed bounded removed : World σ} {bounds : NodeId × NodeId}
    (hlink : world.heap.parent? first = some parent)
    (hparse : (parseFragment host markup).runIn world = (.ok fragment, parsed))
    (hbounds : (fragmentBounds host fragment).run parsed = (bounds, bounded))
    (hremove : (removeRun host parent last (bounded.heap.children parent).length first).run
      bounded = ((), removed)) :
    (Binding.replaceRun host first last markup).runIn world =
      (.ok bounds,
        ((host.insertBefore parent fragment (bounded.heap.nextSibling? last)).run removed).2) := by
  have hfound : Effect.runIn (ε := RenderError) (liftM (fragmentBounds host fragment)) parsed =
      (.ok bounds, bounded) := by
    rw [Effect.runIn_lift, hbounds]
  have hremoved : Effect.runIn (ε := RenderError)
      (liftM (removeRun host parent last (bounded.heap.children parent).length first)) bounded =
        (.ok (), removed) := by
    rw [Effect.runIn_lift, hremove]
  unfold Binding.replaceRun
  refine (Effect.runIn_bind_ok (Effect.runIn_get world)).trans ?_
  simp only [hlink]
  refine (Effect.runIn_bind_ok hparse).trans ((Effect.runIn_bind_ok hfound).trans ?_)
  refine (Effect.runIn_bind_ok (Effect.runIn_get bounded)).trans ?_
  refine (Effect.runIn_bind_ok hremoved).trans ?_
  exact (Effect.runIn_bind_ok (Effect.runIn_lift _ _)).trans rfl

/-- Where trees lie, replacing the run of them by markup revises them to the trees of the markup,
and yields the ends of these. -/
theorem runIn_replaceRun (hhost : host.Refuses fun _ => none) {parent : NodeId}
    {before behind : List NodeId} {first : Placed} {others : List Placed}
    (hlies : world.heap.Lies parent before behind (first :: others)) (markup : String) :
    ∃ after state newFirst newOthers,
      (Binding.replaceRun host first.root (lastRoot first others) markup).runIn world =
          (.ok (newFirst.root, lastRoot newFirst newOthers), ⟨after, world.context, state⟩) ∧
        world.heap.Revises after parent before behind (first :: others) (newFirst :: newOthers) ∧
          trees (newFirst :: newOthers) = boundForest (Markup.parse markup) := by
  obtain ⟨grown, seen, placed, hparse, hmade, htrees⟩ := runIn_parseFragment hhost world markup
  let parsed : World σ := ⟨grown, world.context, seen⟩
  obtain ⟨made, state, newFirst, newOthers, hbounds, hstands, hnewTrees⟩ :=
    run_fragmentBounds host parsed hmade
  let bounded : World σ := ⟨made, world.context, state⟩
  let last := lastRoot first others
  -- The run is still there while the new trees stand apart.
  have hrow : made.Row parent before (roots (first :: others)) behind :=
    hlies.row.older (Nat.le_of_lt hstands.size_lt) hstands.cell_old
  have hlast : (roots (first :: others)).getLast? = some last := roots_getLast? first others
  have hlink : world.heap.parent? first.root = some parent :=
    hlies.holds.parent?_eq first.root List.mem_cons_self
  have hcount : (roots (first :: others)).length ≤ (made.children parent).length := by
    rw [hrow.children]
    simp only [List.length_append]
    omega
  obtain ⟨unlinked, left, hremove, hunlinks⟩ := run_removeRun host bounded hrow rfl hlast hcount
  have hrun := runIn_replaceRun_of_steps hlink hparse hbounds hremove
  rw [show bounded.heap.nextSibling? last = behind.head? from hrow.nextSibling?_last hlast] at hrun
  exact ⟨_, _, newFirst, newOthers, hrun, hlies.splice hstands hunlinks,
    by rw [hnewTrees, htrees]⟩

end MustacheHtml.Render
