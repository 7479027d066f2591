import MustacheHtml.Proofs.Render.Keeping

/-!
Updating all bindings once more after it has failed. The bindings before the failing one have been
updated, and the others stand where they have stood; so once nothing is in the way any more the
document comes to look as if nothing had ever been.
-/

namespace MustacheHtml.Render

open MustacheHtml.Document
open MustacheHtml.Document.Heap

variable {σ : Type} {host : Host σ} {world after : World σ} {bindings settled : Bindings σ}
  {shows : Effect σ String Unit → Value → Puts} {scaffold : Scaffold} {limit : Nat}

/-- The nodes that the binding of that number stands for. -/
def runsOf (heap : Heap) (bindings : Bindings σ) (index : Nat) : List NodeId :=
  bindings[index]?.elim [] (Binding.run heap)

theorem Anchored.disjoint_runsOf {heap : Heap} (hanchored : Anchored heap bindings)
    {index other : Nat} (hne : index ≠ other) :
    (runsOf heap bindings index).Disjoint (runsOf heap bindings other) := by
  have hless : ∀ {low high : Nat}, low < high →
      (runsOf heap bindings low).Disjoint (runsOf heap bindings high) := by
    intro low high hlow
    by_cases hhigh : high < bindings.length
    · have hapart := List.pairwise_iff_getElem.mp hanchored.apart low high
        (Nat.lt_trans hlow hhigh) hhigh hlow
      rwa [runsOf, runsOf, List.getElem?_eq_getElem hhigh,
        List.getElem?_eq_getElem (Nat.lt_trans hlow hhigh)]
    · rw [runsOf, runsOf, List.getElem?_eq_none (Nat.not_lt.mp hhigh)]
      exact List.disjoint_nil_right _
  rcases Nat.lt_or_gt_of_ne hne with hlt | hgt
  · exact hless hlt
  · exact (hless hgt).symm

theorem Anchored.exists_spans (hanchored : Anchored world.heap bindings) {index : Nat}
    {path : List String} {first last : NodeId}
    (hbinding : bindings[index]? = some ⟨path, .fragment first last⟩) :
    ∃ parent before behind, world.heap.Spans first last parent before
      (runsOf world.heap bindings index) behind := by
  obtain ⟨parent, before, run, behind, hspans⟩ :=
    hanchored.together path first last (List.mem_of_getElem? hbinding)
  have hrun : runsOf world.heap bindings index = run := by
    rw [runsOf, hbinding]
    exact hspans.stretch_eq hanchored.linked
  exact ⟨parent, before, behind, hrun ▸ hspans⟩

/-- The document stands on a scaffold on which the runs of the bindings are marked. -/
theorem Anchored.exists_sound (hanchored : Anchored world.heap bindings)
    (hbehaves : ∀ binding ∈ bindings, binding.Behaves shows world.heap.size) :
    ∃ scaffold, Stage.Sound shows scaffold world.heap.size
      ⟨world, bindings, runsOf world.heap bindings⟩ := by
  classical
  let indices := (List.range bindings.length).filter fun index => ∃ path first last,
    bindings[index]? = some ⟨path, .fragment first last⟩
  have hindices : ∀ index, index ∈ indices ↔ ∃ path first last,
      bindings[index]? = some ⟨path, .fragment first last⟩ := by
    intro index
    simp only [indices, List.mem_filter, List.mem_range, decide_eq_true_eq, and_iff_right_iff_imp]
    rintro ⟨path, first, last, hbinding⟩
    exact (List.getElem?_eq_some_iff.mp hbinding).1
  have hspans : ∀ index ∈ indices, ∃ first last parent before behind,
      world.heap.Spans first last parent before (runsOf world.heap bindings index) behind := by
    intro index hindex
    obtain ⟨path, first, last, hbinding⟩ := (hindices index).mp hindex
    exact ⟨first, last, hanchored.exists_spans hbinding⟩
  have hapart : indices.Pairwise fun index other =>
      (runsOf world.heap bindings index).Disjoint (runsOf world.heap bindings other) :=
    (List.nodup_range.filter _).imp fun hne => hanchored.disjoint_runsOf hne
  obtain ⟨scaffold, hcarries, hmarked, hplaced⟩ :=
    exists_carries hanchored.linked hanchored.acyclic hspans hapart
  refine ⟨scaffold, hcarries, hbehaves, ?_, ?_⟩
  · exact fun id hid index hmark => (hindices index).mp (hmarked id hid index hmark)
  · intro index path first last hbinding
    obtain ⟨parent, before, behind, hends⟩ := hanchored.exists_spans hbinding
    exact ⟨hends.head_eq, hends.last_eq, hplaced index ((hindices index).mpr ⟨_, _, _, hbinding⟩)⟩

theorem forall_of_map_bare {holds : Binding σ → Prop}
    (hholds : ∀ binding, holds binding.bare ↔ holds binding)
    (hbare : settled.map Binding.bare = bindings.map Binding.bare)
    (hbindings : ∀ binding ∈ bindings, holds binding) : ∀ binding ∈ settled, holds binding := by
  intro binding hbinding
  have hmem : binding.bare ∈ bindings.map Binding.bare :=
    hbare ▸ List.mem_map_of_mem hbinding
  obtain ⟨old, hold, hsame⟩ := List.mem_map.mp hmem
  exact (hholds binding).mp (hsame ▸ (hholds old).mpr (hbindings old hold))

theorem flatMap_puts_of_map_bare (hbare : settled.map Binding.bare = bindings.map Binding.bare)
    (data : Value) : settled.flatMap (Binding.puts shows data) =
      bindings.flatMap (Binding.puts shows data) := by
  have hmap : ∀ list : Bindings σ, (list.map Binding.bare).flatMap (Binding.puts shows data) =
      list.flatMap (Binding.puts shows data) := by
    intro list
    rw [List.flatMap_map]
    exact List.flatMap_congr fun binding _ => Binding.puts_bare data
  rw [← hmap settled, hbare, hmap bindings]

theorem spots_flatMap_puts (hbehaves : ∀ binding ∈ bindings, binding.Behaves shows limit)
    (data other : Value) : Puts.spots (bindings.flatMap (Binding.puts shows data)) =
      Puts.spots (bindings.flatMap (Binding.puts shows other)) := by
  rw [Puts.spots, Puts.spots, List.map_flatMap, List.map_flatMap]
  exact List.flatMap_congr fun binding hbinding =>
    (hbehaves binding hbinding).spots_eq data other

/-- The nodes below the limit look the same in two documents. -/
def LookAlike (limit : Nat) (heap other : Heap) : Prop :=
  ∀ id < limit, heap.outerHtml id = other.outerHtml id ∧ heap.innerHtml id = other.innerHtml id

/-- Two documents with bindings come to look alike wherever updating all bindings succeeds in both
of them, with the same data. The hosts need not be the same. -/
def EndAlike (limit : Nat) (heap : Heap) (bindings : Bindings σ) (other : Heap)
    (others : Bindings σ) : Prop :=
  ∀ (host otherHost : Host σ) (world otherWorld : World σ) settled otherSettled after otherAfter,
    world.heap = heap → otherWorld.heap = other → world.context = otherWorld.context →
      (Binding.updateAll host bindings).run world = ((settled, .ok ()), after) →
        (Binding.updateAll otherHost others).run otherWorld =
            ((otherSettled, .ok ()), otherAfter) →
          LookAlike limit after.heap otherAfter.heap

/-- Updating the settled bindings in the later document, with success, makes it look as if nothing
had failed before: as it does to update the bindings once in the earlier document, or twice. -/
structure Resumes (heap after : Heap) (bindings settled : Bindings σ) : Prop where
  once : EndAlike heap.size after settled heap bindings
  twice : ∀ (first : Host σ) (start : World σ) firstly middle, start.heap = heap →
    (Binding.updateAll first bindings).run start = ((firstly, .ok ()), middle) →
      EndAlike heap.size after settled middle.heap firstly

namespace Stage

variable {heap : Heap} {stage other next : Stage σ} {runs : Nat → List NodeId}

theorem Sound.congr (hsound : stage.Sound shows scaffold limit)
    (hheap : world.heap = stage.world.heap) :
    Sound shows scaffold limit ⟨world, stage.bindings, stage.runs⟩ :=
  ⟨hheap ▸ hsound.carries, hsound.behaves, hsound.marked, hsound.held⟩

theorem Sound.updateAll (hsound : Sound shows scaffold limit ⟨world, bindings, runs⟩)
    (hrun : (Binding.updateAll host bindings).run world = ((settled, .ok ()), after)) :
    settled.map Binding.bare = bindings.map Binding.bare ∧
      ∃ replaced, Advances shows scaffold limit ⟨world, bindings, runs⟩
        ⟨after, settled, replaced⟩ 0 bindings.length
        (bindings.flatMap (Binding.puts shows world.context)) := by
  rcases updateAll_cases host bindings world with ⟨_, _, hended, hupdates⟩ |
    ⟨_, _, _, _, _, _, _, -, hfailed, -, -⟩
  · cases hrun.symm.trans hended
    have hwhole : Sound shows scaffold limit ⟨world, [] ++ bindings ++ [], runs⟩ := by
      rwa [List.nil_append, List.append_nil]
    obtain ⟨replaced, hadvances⟩ := hwhole.updatesInTurn hupdates
    simp only [List.nil_append, List.append_nil, List.length_nil, Nat.zero_add] at hadvances
    exact ⟨hupdates.map_bare, replaced, hadvances⟩
  · cases hrun.symm.trans hfailed

/-- A stage that the updates of the first of some bindings have led to. -/
structure Follows (shows : Effect σ String Unit → Value → Puts) (scaffold : Scaffold) (limit : Nat)
    (heap : Heap) (bindings : Bindings σ) (stage : Stage σ) : Prop where
  sound : stage.Sound shows scaffold limit
  bare : stage.bindings.map Binding.bare = bindings.map Binding.bare
  kinds : ∃ early : Puts,
    (∀ data, early.spots <+: Puts.spots (bindings.flatMap (Binding.puts shows data))) ∧
      ∀ id < limit, stage.world.heap.kind id = early.write id (heap.kind id)

theorem Sound.follows (hsound : stage.Sound shows scaffold limit) :
    Follows shows scaffold limit stage.world.heap stage.bindings stage :=
  ⟨hsound, rfl, [], fun _ => List.nil_prefix, fun _ _ => rfl⟩

theorem Advances.follows {done rest : Bindings σ} {start stop : Nat}
    (hadvances : Advances shows scaffold limit stage next start stop
      (done.flatMap (Binding.puts shows stage.world.context)))
    (hsplit : stage.bindings = done ++ rest)
    (hbehaves : ∀ binding ∈ stage.bindings, binding.Behaves shows limit)
    (hbare : next.bindings.map Binding.bare = stage.bindings.map Binding.bare) :
    Follows shows scaffold limit stage.world.heap stage.bindings next := by
  refine ⟨hadvances.sound, hbare, _, fun data => ?_, hadvances.kind_eq⟩
  have hdone : ∀ binding ∈ done, binding.Behaves shows limit := fun binding hmem =>
    hbehaves binding (hsplit ▸ List.mem_append_left _ hmem)
  rw [hsplit, spots_flatMap_puts hdone _ data, List.flatMap_append, Puts.spots, Puts.spots,
    List.map_append]
  exact List.prefix_append _ _

/-- On one scaffold, stages with the same data look alike once all bindings show it. -/
theorem Sound.html_eq (hstage : stage.Sound shows scaffold limit)
    (hother : other.Sound shows scaffold limit)
    (hbare : other.bindings.map Binding.bare = stage.bindings.map Binding.bare)
    (hcontext : other.world.context = stage.world.context)
    (hkinds : ∀ id < limit, other.world.heap.kind id = stage.world.heap.kind id)
    (hstageCurrent : ∀ index, stage.Current limit index)
    (hotherCurrent : ∀ index, other.Current limit index) {id : NodeId} (hid : id < limit) :
    other.world.heap.outerHtml id = stage.world.heap.outerHtml id ∧
      other.world.heap.innerHtml id = stage.world.heap.innerHtml id := by
  refine hstage.carries.html_eq hother.carries hkinds (fun owner howner index hmark => ?_) hid
  obtain ⟨path, first, last, hbinding⟩ := hstage.marked owner howner index hmark
  obtain ⟨otherPath, otherFirst, otherLast, hotherBinding⟩ :=
    hother.marked owner howner index hmark
  have hpath : otherPath = path := by
    have hsame := congrArg (·[index]?) hbare
    simpa [hbinding, hotherBinding, Binding.bare] using hsame
  have hshown := hstageCurrent index path first last hbinding
  have hotherShown := hotherCurrent index otherPath otherFirst otherLast hotherBinding
  rw [hpath, World.textAt_congr hcontext] at hotherShown
  exact ⟨_, hshown, hotherShown⟩

theorem Advances.current_all {puts : Puts}
    (hadvances : Advances shows scaffold limit stage next 0 stage.bindings.length puts)
    (hbare : next.bindings.map Binding.bare = stage.bindings.map Binding.bare) (index : Nat) :
    next.Current limit index := by
  have hlength : next.bindings.length = stage.bindings.length := by
    simpa using congrArg List.length hbare
  by_cases hindex : index < stage.bindings.length
  · exact hadvances.current index (.inl ⟨Nat.zero_le _, hindex⟩)
  · intro path first last hbinding
    exact absurd (hlength ▸ (List.getElem?_eq_some_iff.mp hbinding).1) hindex

/-- After updating all bindings with success nothing shows any more of which of them have been
updated before. -/
theorem Follows.updateAll (hfollows : Follows shows scaffold limit heap bindings stage)
    (hheap : world.heap = stage.world.heap)
    (hrun : (Binding.updateAll host stage.bindings).run world = ((settled, .ok ()), after)) :
    settled.map Binding.bare = bindings.map Binding.bare ∧ after.context = world.context ∧
      ∃ runs, Sound shows scaffold limit ⟨after, settled, runs⟩ ∧
        (∀ index, Current limit ⟨after, settled, runs⟩ index) ∧
          ∀ id < limit, after.heap.kind id =
            Puts.write (bindings.flatMap (Binding.puts shows world.context)) id (heap.kind id) := by
  obtain ⟨hbare, runs, hadvances⟩ := (hfollows.sound.congr hheap).updateAll hrun
  obtain ⟨early, hspots, hkinds⟩ := hfollows.kinds
  refine ⟨hbare.trans hfollows.bare, hadvances.context_eq, runs, hadvances.sound,
    hadvances.current_all hbare, fun id hid => ?_⟩
  have hkind := hadvances.kind_eq id hid
  simp only [hheap, hkinds id hid, flatMap_puts_of_map_bare hfollows.bare] at hkind
  exact hkind.trans (Puts.write_write_of_prefix (hspots _) id _)

theorem Follows.endAlike (hone : Follows shows scaffold limit heap bindings stage)
    (hother : Follows shows scaffold limit heap bindings other) :
    EndAlike limit stage.world.heap stage.bindings other.world.heap other.bindings := by
  intro host otherHost world otherWorld settled otherSettled after otherAfter hheap hotherHeap
    hcontext hrun hotherRun id hid
  obtain ⟨hbare, hafter, runs, hsound, hcurrent, hkinds⟩ := hone.updateAll hheap hrun
  obtain ⟨hotherBare, hotherAfter, otherRuns, hotherSound, hotherCurrent, hotherKinds⟩ :=
    hother.updateAll hotherHeap hotherRun
  refine hotherSound.html_eq hsound (hbare.trans hotherBare.symm) ?_ (fun id hid => ?_)
    hotherCurrent hcurrent hid
  · exact hafter.trans (hcontext.trans hotherAfter.symm)
  · exact (hkinds id hid).trans (hcontext ▸ (hotherKinds id hid).symm)

end Stage

/-- Whenever a computation of the bindings is called, it leaves the document in order, and the runs
of the other bindings where they are. -/
def Considerate (host : Host σ) (world : World σ) (bindings : Bindings σ) : Prop :=
  ∀ before later others, Computes host world bindings before later others →
    SparesRuns before.heap later.heap others

section Resuming

variable {done rest updated : Bindings σ}

theorem Displays.spares {effect : Effect σ String Unit} {puts : Value → Puts}
    (hdisplays : Displays effect puts) (hlinked : world.heap.Linked)
    (hacyclic : world.heap.Acyclic) (hrun : effect.runIn world = (.ok (), after))
    (others : Bindings σ) : SparesRuns world.heap after.heap others := by
  rw [(hdisplays.runs world after hrun).1]
  exact .putAll hlinked hacyclic _ others

theorem Computes.spares {before later : World σ} {called : Bindings σ}
    (hcomputes : Computes host world bindings before later called)
    (hanchored : Anchored world.heap bindings)
    (hbehaves : ∀ binding ∈ bindings, binding.Behaves shows limit) (others : Bindings σ) :
    SparesRuns before.heap later.heap others := by
  induction hcomputes with
  | @here world later path effect rest hrun =>
      have hdisplays := (hbehaves _ List.mem_cons_self).displays effect rfl
      exact hdisplays.spares hanchored.linked hanchored.acyclic hrun others
  | @there world middle before later binding updated rest called hupdate _ ih =>
      obtain ⟨hbinding, hrest⟩ := List.forall_mem_cons.mp hbehaves
      refine ih (hanchored.update hupdate fun first second alone hcalled => ?_).1.tail hrest
      cases hcalled with
      | @here _ _ path effect _ hrun =>
          have hdisplays := hbinding.displays effect rfl
          exact hdisplays.spares hanchored.linked hanchored.acyclic hrun _
      | there _ hnone => cases hnone

theorem Anchored.considerate (hanchored : Anchored world.heap bindings)
    (hbehaves : ∀ binding ∈ bindings, binding.Behaves shows limit) :
    Considerate host world bindings := fun _ _ others hcomputes =>
  hcomputes.spares hanchored hbehaves others

theorem Anchored.resumes (hanchored : Anchored world.heap (done ++ rest))
    (hbehaves : ∀ binding ∈ done ++ rest, binding.Behaves shows world.heap.size)
    (hupdates : UpdatesInTurn host world done updated after) :
    Resumes world.heap after.heap (done ++ rest) (updated ++ rest) := by
  obtain ⟨scaffold, hsound⟩ := hanchored.exists_sound hbehaves
  have hwhole : Stage.Sound shows scaffold world.heap.size ⟨world, [] ++ done ++ rest,
      runsOf world.heap (done ++ rest)⟩ := hsound
  obtain ⟨runs, hadvances⟩ := hwhole.updatesInTurn hupdates
  have hfollows := hadvances.follows rfl hbehaves <| by
    simp only [List.nil_append, List.map_append, hupdates.map_bare]
  refine ⟨hfollows.endAlike hsound.follows, fun first start firstly middle hstart hfirst => ?_⟩
  obtain ⟨hbare, replaced, hpass⟩ := (hsound.congr hstart).updateAll hfirst
  have hsecond := hpass.follows (List.append_nil _).symm hbehaves hbare
  simp only [hstart] at hsecond
  exact hfollows.endAlike hsecond

end Resuming

/-- Updating all bindings stops at the first update that fails, and the bindings before it have been
updated one by one. If computations are considerate, then it and the others are as they have been,
and so is what stands for them. Once nothing stands in the way all can be updated; and if
computations show the data, then nothing is to be seen of the failure after that. -/
theorem updateAll_resumes {error : RenderError} (hanchored : Anchored world.heap bindings)
    (hclean : ∀ binding ∈ bindings, ∀ effect, binding.target = .computed effect →
      effect.FailsCleanly)
    (hfails : (Binding.updateAll host bindings).run world = ((settled, .error error), after)) :
    (∃ done binding rest updated middle, bindings = done ++ binding :: rest ∧
      settled = updated ++ binding :: rest ∧ UpdatesInTurn host world done updated middle ∧
      (binding.update host).runIn middle = (.error error, after) ∧
      after.heap = middle.heap ∧ after.context = middle.context ∧
      (Considerate host world bindings →
        Anchored after.heap settled ∧ Spared host world after.heap done (binding :: rest))) ∧
    (∀ (mended : Host σ) (again : World σ),
      (∀ binding ∈ bindings, binding.Unhindered mended again.context) →
        (∃ resettled repaired,
          (Binding.updateAll mended settled).run again = ((resettled, .ok ()), repaired)) ∧
        ∃ plainly plain,
          (Binding.updateAll mended bindings).run again = ((plainly, .ok ()), plain)) ∧
    ∀ shows, (∀ binding ∈ bindings, binding.Behaves shows world.heap.size) →
      Resumes world.heap after.heap bindings settled := by
  rcases updateAll_cases host bindings world with ⟨_, _, hrun, -⟩ |
    ⟨done, binding, rest, updated, middle, _, _, rfl, hrun, hupdates, hbinding⟩
  · cases hfails.symm.trans hrun
  · cases hfails.symm.trans hrun
    obtain ⟨hheap, hcontext⟩ := update_fails_cleanly
      (hclean binding (List.mem_append_right _ List.mem_cons_self)) hbinding
    refine ⟨⟨done, binding, rest, updated, middle, rfl, rfl, hupdates, hbinding, hheap, hcontext,
      fun hconsiderate => ?_⟩, fun mended again hfree => ?_, fun shows hbehaves => ?_⟩
    · obtain ⟨hsettled, hspared⟩ := hanchored.updatesInTurn hupdates
        fun before later called hcalled =>
          hconsiderate before later _ (hcalled.append (binding :: rest))
      exact ⟨hheap ▸ hsettled, hheap ▸ hspared⟩
    · have hbare : (updated ++ binding :: rest).map Binding.bare =
          (done ++ binding :: rest).map Binding.bare := by
        rw [List.map_append, List.map_append, hupdates.map_bare]
      exact ⟨exists_updateAll (forall_of_map_bare (fun _ => Binding.unhindered_bare) hbare hfree),
        exists_updateAll hfree⟩
    · exact hheap ▸ hanchored.resumes hbehaves hupdates

section Panel

/-- Two runs of markup and a text. -/
def panelEdits : List Edit :=
  [.perform (.createElement "div"), .perform (.parseFragment "<b>1</b><i>2</i>"),
    .perform (.appendChild 0 1), .perform (.createText "z"), .perform (.appendChild 0 6)]

def panelData (markup : String) : Value :=
  .map [("a", .string "<u>x</u>"), ("b", .string markup), ("c", .string "on"),
    ("n", .string "T"), ("t", .string "!")]

def panelWorld : World Unit :=
  ⟨Heap.empty.edited panelEdits, panelData "<script>", ()⟩

/-- A host that refuses one text. -/
def strictHost : Host Unit where
  observe := fun _ _ host => host
  refusal? := fun _ markup => if markup = "<script>" then some "no scripts" else none

/-- Shows a value of the data as the class of the element. -/
def showClass : Effect Unit String Unit := do
  let world ← get
  strictHost.setAttribute 0 "class" (world.textAt ["c"])

def panelShows (_ : Effect Unit String Unit) (data : Value) : Puts :=
  [(.value 0 "class", (data.lookup ["c"]).render)]

/-- The binding to the second run fails, behind a run, a text and a computation. -/
def panelBindings : Bindings Unit :=
  [⟨["a"], .fragment 2 2⟩, ⟨["t"], .text 6⟩, ⟨["c"], .computed showClass⟩,
    ⟨["b"], .fragment 4 4⟩, ⟨["n"], .attribute 0 "title"⟩]

theorem linked_panelWorld : panelWorld.heap.Linked ∧ panelWorld.heap.Acyclic := by
  have hnodes : Edit.Follow Edit.OnNodes .empty panelEdits := by decide +kernel
  have hroots : Edit.Follow Edit.IntoRoots .empty panelEdits := by decide +kernel
  exact Edit.linked_and_acyclic_of_intoRoots hnodes hroots

theorem spans_panelWorld : panelWorld.heap.Spans 2 2 0 [] [2] [4, 6] ∧
    panelWorld.heap.Spans 4 4 0 [2] [4] [6] :=
  ⟨⟨by decide +kernel, rfl, rfl⟩, ⟨by decide +kernel, rfl, rfl⟩⟩

theorem displays_showClass : Displays showClass (panelShows showClass) where
  runs := by
    intro world after hrun
    cases hrun
    exact ⟨rfl, rfl⟩
  spots_eq := fun _ _ => rfl

theorem effect_of_panel {binding : Binding Unit} (hbinding : binding ∈ panelBindings)
    {effect : Effect Unit String Unit} (htarget : binding.target = .computed effect) :
    effect = showClass := by
  simp only [panelBindings, List.mem_cons, List.not_mem_nil, or_false] at hbinding
  rcases hbinding with rfl | rfl | rfl | rfl | rfl <;> cases htarget
  rfl

theorem behaves_panel : ∀ binding ∈ panelBindings,
    binding.Behaves panelShows panelWorld.heap.size := by
  have hsize : panelWorld.heap.size = 7 := by decide +kernel
  have hbound : ∀ binding ∈ panelBindings, ∀ data,
      ∀ spot ∈ (binding.puts panelShows data).spots, spot.node < 7 := by
    simp [panelBindings, Binding.puts, panelShows, Puts.spots, Spot.node]
  refine fun binding hbinding => ⟨fun effect htarget => ?_, hsize ▸ hbound binding hbinding⟩
  obtain rfl := effect_of_panel hbinding htarget
  exact displays_showClass

theorem anchored_panel : Anchored panelWorld.heap panelBindings := by
  obtain ⟨hlinked, hacyclic⟩ := linked_panelWorld
  obtain ⟨hfirst, hsecond⟩ := spans_panelWorld
  refine ⟨hlinked, hacyclic, fun path first last hbinding => ?_, ?_⟩
  · simp only [panelBindings, List.mem_cons, List.not_mem_nil, or_false, Binding.mk.injEq,
      Target.fragment.injEq, reduceCtorEq, and_false, false_or] at hbinding
    rcases hbinding with ⟨-, rfl, rfl⟩ | ⟨-, rfl, rfl⟩
    · exact ⟨_, _, _, _, hfirst⟩
    · exact ⟨_, _, _, _, hsecond⟩
  · simp [panelBindings, Binding.run, hfirst.stretch_eq hlinked, hsecond.stretch_eq hlinked]

theorem unhindered_panel : ∀ binding ∈ panelBindings,
    binding.Unhindered strictHost (panelData "<s>y</s>") := by
  intro binding hbinding
  simp only [panelBindings, List.mem_cons, List.not_mem_nil, or_false] at hbinding
  rcases hbinding with rfl | rfl | rfl | rfl | rfl
  · exact fun () => by decide +kernel
  · trivial
  · exact fun world hdata => ⟨_, rfl, hdata⟩
  · exact fun () => by decide +kernel
  · trivial

theorem run_updateAll_eq (bindings : Bindings Unit) (world : World Unit)
    (outcome : Except RenderError Unit)
    (houtcome : ((Binding.updateAll strictHost bindings).run world).1.2 = outcome) :
    (Binding.updateAll strictHost bindings).run world =
      ((((Binding.updateAll strictHost bindings).run world).1.1, outcome),
        ((Binding.updateAll strictHost bindings).run world).2) :=
  houtcome ▸ rfl

theorem updateAll_resumes_panel :
    Anchored panelWorld.heap panelBindings ∧
    (∀ binding ∈ panelBindings, ∀ effect, binding.target = .computed effect →
      effect.FailsCleanly) ∧
    Considerate strictHost panelWorld panelBindings ∧
    (∀ binding ∈ panelBindings, binding.Behaves panelShows panelWorld.heap.size) ∧
    ∃ settled after resettled repaired,
      (Binding.updateAll strictHost panelBindings).run panelWorld =
        ((settled, .error (.markup "no scripts")), after) ∧
      Anchored after.heap settled ∧
      after.heap.outerHtml 0 = "<div class=\"on\"><u>x</u><i>2</i>!</div>" ∧
      (Binding.updateAll strictHost settled).run ⟨after.heap, panelData "<s>y</s>", ()⟩ =
        ((resettled, .ok ()), repaired) ∧
      repaired.heap.outerHtml 0 =
        "<div class=\"on\" title=\"T\"><u>x</u><s>y</s>!</div>" := by
  have hclean : ∀ binding ∈ panelBindings, ∀ effect, binding.target = .computed effect →
      effect.FailsCleanly := by
    intro binding hbinding effect htarget
    obtain rfl := effect_of_panel hbinding htarget
    exact fun world error after hfails => nomatch hfails
  have hfails := run_updateAll_eq panelBindings panelWorld (.error (.markup "no scripts"))
    (by decide +kernel)
  have hconsiderate : Considerate strictHost panelWorld panelBindings :=
    anchored_panel.considerate behaves_panel
  obtain ⟨⟨_, _, _, _, _, -, -, -, -, -, -, hkept⟩, hsucceeds, hresumes⟩ :=
    updateAll_resumes anchored_panel hclean hfails
  let ended := (Binding.updateAll strictHost panelBindings).run panelWorld
  let again : World Unit := ⟨ended.2.heap, panelData "<s>y</s>", ()⟩
  let fresh : World Unit := ⟨panelWorld.heap, panelData "<s>y</s>", ()⟩
  obtain ⟨resettled, repaired, hrepair⟩ := (hsucceeds strictHost again unhindered_panel).1
  obtain ⟨plainly, plain, hplain⟩ := (hsucceeds strictHost fresh unhindered_panel).2
  have hsame := (hresumes panelShows behaves_panel).once strictHost strictHost again fresh _ _ _ _
    rfl rfl rfl hrepair hplain 0 (by decide +kernel)
  obtain rfl : ((Binding.updateAll strictHost panelBindings).run fresh).2 = plain :=
    congrArg Prod.snd hplain
  refine ⟨anchored_panel, hclean, hconsiderate, behaves_panel, _, _, resettled, repaired, hfails,
    (hkept hconsiderate).1, by decide +kernel, hrepair, hsame.1.trans ?_⟩
  decide +kernel

end Panel

section Label

/-- An element with a title, and a run of markup in it. -/
def labelEdits : List Edit :=
  [.perform (.createElement "div"), .perform (.setAttribute 0 "title" "old"),
    .perform (.parseFragment "<b>1</b>"), .perform (.appendChild 0 1)]

def labelData (markup : String) : Value :=
  .map [("a", .string "new"), ("b", .string "old"), ("m", .string markup)]

def labelWorld : World Unit :=
  ⟨Heap.empty.edited labelEdits, labelData "<script>", ()⟩

/-- Appends a text whenever it is called, and never fails. -/
def appendMark : Effect Unit String Unit := do
  let mark ← strictHost.createText "+"
  strictHost.appendChild 0 mark

/-- The computation comes before the run. -/
def markBefore : Bindings Unit := [⟨[], .computed appendMark⟩, ⟨["m"], .fragment 2 2⟩]

/-- The computation comes behind the run. -/
def markBehind : Bindings Unit := [⟨["m"], .fragment 2 2⟩, ⟨[], .computed appendMark⟩]

/-- The last binding is to the attribute that the first one is to. -/
def titleTwice : Bindings Unit :=
  [⟨["a"], .attribute 0 "title"⟩, ⟨["m"], .fragment 2 2⟩, ⟨["b"], .attribute 0 "title"⟩]

/-- How updating all bindings ends, and what the element looks like then. -/
def shown (bindings : Bindings Unit) (world : World Unit) : Except RenderError Unit × String :=
  let ended := (Binding.updateAll strictHost bindings).run world
  (ended.1.2, ended.2.heap.outerHtml 0)

/-- The same of a second time, with other data. The first time may have been on another host. -/
def shownAgain (host : Host Unit) (bindings : Bindings Unit) : Except RenderError Unit × String :=
  let ended := (Binding.updateAll host bindings).run labelWorld
  shown ended.1.1 ⟨ended.2.heap, labelData "<i>2</i>", ()⟩

theorem linked_labelWorld : labelWorld.heap.Linked ∧ labelWorld.heap.Acyclic := by
  have hnodes : Edit.Follow Edit.OnNodes .empty labelEdits := by decide +kernel
  have hroots : Edit.Follow Edit.IntoRoots .empty labelEdits := by decide +kernel
  exact Edit.linked_and_acyclic_of_intoRoots hnodes hroots

theorem anchored_label {bindings : Bindings Unit}
    (hruns : ∀ path first last, ⟨path, .fragment first last⟩ ∈ bindings → first = 2 ∧ last = 2)
    (hapart : bindings.Pairwise fun one other =>
      (one.run labelWorld.heap).Disjoint (other.run labelWorld.heap)) :
    Anchored labelWorld.heap bindings := by
  obtain ⟨hlinked, hacyclic⟩ := linked_labelWorld
  refine ⟨hlinked, hacyclic, fun path first last hmem => ?_, hapart⟩
  obtain ⟨rfl, rfl⟩ := hruns path first last hmem
  exact ⟨0, [], [2], [], by decide +kernel, rfl, rfl⟩

/-- A computation that appends has been called once more when all is updated after a failure behind
it, and once less after a failure before it. And an attribute that a later binding is to has changed
by then if an earlier one is to it as well. -/
theorem failure_shows_of_appending :
    labelWorld.heap.outerHtml 0 = "<div title=\"old\"><b>1</b></div>" ∧
    (∀ world, ∃ after, appendMark.runIn world = (.ok (), after)) ∧
    (Anchored labelWorld.heap markBefore ∧
      shown markBefore labelWorld =
        (.error (.markup "no scripts"), "<div title=\"old\"><b>1</b>+</div>") ∧
      shownAgain strictHost markBefore = (.ok (), "<div title=\"old\"><i>2</i>++</div>") ∧
      shown markBefore ⟨labelWorld.heap, labelData "<i>2</i>", ()⟩ =
        (.ok (), "<div title=\"old\"><i>2</i>+</div>")) ∧
    (Anchored labelWorld.heap markBehind ∧
      shown markBehind labelWorld =
        (.error (.markup "no scripts"), "<div title=\"old\"><b>1</b></div>") ∧
      shownAgain strictHost markBehind = (.ok (), "<div title=\"old\"><i>2</i>+</div>") ∧
      shownAgain strictHost.lenient markBehind =
        (.ok (), "<div title=\"old\"><i>2</i>++</div>")) ∧
    Anchored labelWorld.heap titleTwice ∧
      shown titleTwice labelWorld =
        (.error (.markup "no scripts"), "<div title=\"new\"><b>1</b></div>") := by
  have hbefore : Anchored labelWorld.heap markBefore :=
    anchored_label (by simp +contextual [markBefore]) (by simp [markBefore, Binding.run])
  have hbehind : Anchored labelWorld.heap markBehind :=
    anchored_label (by simp +contextual [markBehind]) (by simp [markBehind, Binding.run])
  have htitle : Anchored labelWorld.heap titleTwice :=
    anchored_label (by simp +contextual [titleTwice]) (by simp [titleTwice, Binding.run])
  refine ⟨by decide +kernel, fun world => ⟨_, rfl⟩, ⟨hbefore, ?_, ?_, ?_⟩, ⟨hbehind, ?_, ?_, ?_⟩,
    htitle, ?_⟩
  all_goals decide +kernel

end Label

end MustacheHtml.Render
