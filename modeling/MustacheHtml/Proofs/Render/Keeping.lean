import MustacheHtml.Proofs.Render.Passes

/-!
What updates leave of the other bindings. A binding to a fragment keeps its run where it is while
others are updated, as long as the computations among them keep to that too; and of the other nodes
only those change that an update is about.
-/

namespace MustacheHtml.Document.Heap

open Piece

variable {heap after : Heap} {first last parent owner : NodeId} {new : List Placed}
  {before run behind front other back : List NodeId}

theorem exists_of_replaced (hlist : before ++ run ++ behind = front ++ other ++ back)
    (hrun : run ≠ []) (hother : other ≠ []) (hapart : run.Disjoint other)
    (replacement : List NodeId) :
    ∃ left right, before ++ replacement ++ behind = left ++ other ++ right := by
  let pieces : List Piece := before.map Piece.node ++ .run 0 :: behind.map Piece.node
  have hspread : ∀ ids, spread (fun _ => ids) pieces = before ++ ids ++ behind := by
    intro ids
    simp [pieces, Piece.ids]
  obtain ⟨left, right, hpieces, -, -⟩ :=
    exists_of_spread_eq ((hspread run).trans hlist) hother fun _ _ => ⟨hrun, hapart⟩
  refine ⟨spread (fun _ => replacement) left, spread (fun _ => replacement) right, ?_⟩
  rw [← hspread, hpieces]
  simp

/-- New trees in the place of one run leave another one where it stands. -/
theorem Spans.splices (hspans : heap.Spans first last owner front other back)
    (hlinked : heap.Linked) (hchildren : heap.children parent = before ++ run ++ behind)
    (hsplices : heap.Splices after parent before run behind new) (hrun : run ≠ [])
    (hapart : run.Disjoint other) :
    ∃ left right, after.Spans first last owner left other right := by
  by_cases howner : owner = parent
  · subst howner
    have hother : other ≠ [] := List.ne_nil_of_mem hspans.first_mem
    obtain ⟨left, right, hsplit⟩ := exists_of_replaced
      (hchildren.symm.trans hspans.children_eq) hrun hother hapart (Placed.roots new)
    exact ⟨left, right, hsplices.children_parent.trans hsplit, hspans.head_eq, hspans.last_eq⟩
  · have hsame := hsplices.children_of_ne (hspans.parent_lt_size hlinked) howner
    exact ⟨front, back, hspans.congr hsame⟩

end MustacheHtml.Document.Heap

namespace MustacheHtml.Render

open MustacheHtml.Document
open MustacheHtml.Document.Heap
open MustacheHtml.Document.Placed

variable {σ : Type} {host : Host σ} {world middle after : World σ} {binding updated : Binding σ}
  {bindings settled rest others : Bindings σ}

/-- The document is in order, and the bindings to fragments are to runs of it that are apart from
each other. -/
structure Anchored (heap : Heap) (bindings : Bindings σ) : Prop where
  linked : heap.Linked
  acyclic : heap.Acyclic
  together : ∀ path first last, ⟨path, .fragment first last⟩ ∈ bindings →
    heap.Together first last
  apart : bindings.Pairwise fun one other => (one.run heap).Disjoint (other.run heap)

/-- The document is in order after a change as well, and the bindings find their runs where they
have been: made of the same nodes, between the same ends and below the same nodes. -/
structure SparesRuns (heap after : Heap) (bindings : Bindings σ) : Prop where
  linked : after.Linked
  acyclic : after.Acyclic
  size_le : heap.size ≤ after.size
  runs : ∀ path first last, ⟨path, .fragment first last⟩ ∈ bindings →
    ∀ parent before run behind, heap.Spans first last parent before run behind →
      ∃ front back, after.Spans first last parent front run back

/-- While bindings are updated in turn, a computation of theirs is called and succeeds. The others
are the other bindings as they are by then. -/
inductive Computes (host : Host σ) : World σ → Bindings σ → World σ → World σ → Bindings σ → Prop
  | here {world after : World σ} {path : List String} {effect : Effect σ String Unit}
      {rest : Bindings σ} (hrun : effect.runIn world = (.ok (), after)) :
      Computes host world (⟨path, .computed effect⟩ :: rest) world after rest
  | there {world middle before after : World σ} {binding updated : Binding σ}
      {rest others : Bindings σ}
      (hupdate : (binding.update host).runIn world = (.ok updated, middle))
      (hcomputes : Computes host middle rest before after others) :
      Computes host world (binding :: rest) before after (updated :: others)

/-- No computation of the bindings changes what is looked at, while they are updated in turn. -/
def Untouched {α : Type} (host : Host σ) (world : World σ) (bindings : Bindings σ)
    (view : Heap → α) : Prop :=
  ∀ before after others, Computes host world bindings before after others →
    view after.heap = view before.heap

/-- The update of the binding puts a string in the node. -/
def Binding.Writes (id : NodeId) (binding : Binding σ) : Prop :=
  match binding.target with
  | .text node => node = id
  | .attribute owner _ => owner = id
  | _ => False

/-- Updates of some bindings have left the others as they were: their runs are where they have been,
and so are all nodes but those where a string has been put, those that were of a run, the parents of
these, and what computations have touched. -/
structure Spared (host : Host σ) (world : World σ) (after : Heap)
    (done others : Bindings σ) : Prop where
  spares : SparesRuns world.heap after others
  kind_eq : ∀ id < world.heap.size, (∀ binding ∈ done, ¬ binding.Writes id) →
    Untouched host world done (·.kind id) → after.kind id = world.heap.kind id
  parent?_eq : ∀ id < world.heap.size, (∀ binding ∈ done, id ∉ binding.run world.heap) →
    Untouched host world done (·.parent? id) → after.parent? id = world.heap.parent? id
  children_eq : ∀ id < world.heap.size,
    (∀ binding ∈ done, (world.heap.children id).Disjoint (binding.run world.heap)) →
      Untouched host world done (·.children id) →
        after.children id = world.heap.children id

section Sparing

variable {heap changed later : Heap}

theorem Anchored.perm (hanchored : Anchored heap bindings) (hperm : bindings.Perm others) :
    Anchored heap others where
  linked := hanchored.linked
  acyclic := hanchored.acyclic
  together := fun path first last hmem =>
    hanchored.together path first last (hperm.mem_iff.mpr hmem)
  apart := (hperm.pairwise_iff fun hapart => hapart.symm).mp hanchored.apart

theorem Anchored.tail (hanchored : Anchored heap (binding :: rest)) : Anchored heap rest where
  linked := hanchored.linked
  acyclic := hanchored.acyclic
  together := fun path first last hmem =>
    hanchored.together path first last (List.mem_cons_of_mem _ hmem)
  apart := hanchored.apart.of_cons

theorem Anchored.cons (hanchored : Anchored heap rest)
    (htogether : ∀ first last, binding.target = .fragment first last → heap.Together first last)
    (hapart : ∀ other ∈ rest, (binding.run heap).Disjoint (other.run heap)) :
    Anchored heap (binding :: rest) where
  linked := hanchored.linked
  acyclic := hanchored.acyclic
  together := by
    intro path first last hmem
    rcases List.mem_cons.mp hmem with rfl | hmem
    · exact htogether first last rfl
    · exact hanchored.together path first last hmem
  apart := List.pairwise_cons.mpr ⟨hapart, hanchored.apart⟩

theorem Anchored.lt_size_of_mem_run (hanchored : Anchored heap bindings) (hmem : binding ∈ bindings)
    {id : NodeId} (hid : id ∈ binding.run heap) : id < heap.size := by
  obtain ⟨path, target⟩ := binding
  cases target with
  | fragment first last =>
      obtain ⟨parent, before, run, behind, hspans⟩ := hanchored.together path first last hmem
      have hrun : id ∈ run := hspans.stretch_eq hanchored.linked ▸ hid
      exact hanchored.linked.child_lt_size (hspans.run_subset hrun)
  | _ => cases hid

theorem SparesRuns.refl (hlinked : heap.Linked) (hacyclic : heap.Acyclic) (bindings : Bindings σ) :
    SparesRuns heap heap bindings where
  linked := hlinked
  acyclic := hacyclic
  size_le := Nat.le_refl _
  runs := fun _ _ _ _ _ before _ behind hspans => ⟨before, behind, hspans⟩

theorem SparesRuns.trans (hfirst : SparesRuns heap changed bindings)
    (hsecond : SparesRuns changed later bindings) : SparesRuns heap later bindings where
  linked := hsecond.linked
  acyclic := hsecond.acyclic
  size_le := Nat.le_trans hfirst.size_le hsecond.size_le
  runs := by
    intro path first last hmem parent before run behind hspans
    obtain ⟨_, _, hkept⟩ := hfirst.runs path first last hmem parent before run behind hspans
    exact hsecond.runs path first last hmem parent _ run _ hkept

theorem SparesRuns.mono (hspares : SparesRuns heap changed bindings) (hsubset : others ⊆ bindings) :
    SparesRuns heap changed others :=
  ⟨hspares.linked, hspares.acyclic, hspares.size_le, fun path first last hmem =>
    hspares.runs path first last (hsubset hmem)⟩

theorem SparesRuns.putAll (hlinked : heap.Linked) (hacyclic : heap.Acyclic) (puts : Puts)
    (bindings : Bindings σ) : SparesRuns heap (heap.putAll puts) bindings where
  linked := hlinked.putAll puts
  acyclic := hacyclic.putAll puts
  size_le := Nat.le_of_eq (size_putAll heap puts).symm
  runs := fun _ _ _ _ _ before _ behind hspans =>
    ⟨before, behind, hspans.congr (children_putAll heap puts)⟩

theorem Anchored.run_eq (hanchored : Anchored heap bindings)
    (hspares : SparesRuns heap changed bindings) (hmem : binding ∈ bindings) :
    binding.run changed = binding.run heap := by
  obtain ⟨path, target⟩ := binding
  cases target with
  | fragment first last =>
      obtain ⟨parent, before, run, behind, hspans⟩ := hanchored.together path first last hmem
      obtain ⟨_, _, hkept⟩ := hspares.runs path first last hmem parent before run behind hspans
      exact (hkept.stretch_eq hspares.linked).trans (hspans.stretch_eq hanchored.linked).symm
  | _ => rfl

theorem Anchored.sparesRuns (hanchored : Anchored heap bindings)
    (hspares : SparesRuns heap changed bindings) : Anchored changed bindings where
  linked := hspares.linked
  acyclic := hspares.acyclic
  together := by
    intro path first last hmem
    obtain ⟨parent, before, run, behind, hspans⟩ := hanchored.together path first last hmem
    obtain ⟨front, back, hkept⟩ := hspares.runs path first last hmem parent before run behind hspans
    exact ⟨parent, front, run, back, hkept⟩
  apart := by
    refine hanchored.apart.imp_of_mem fun hone hother hapart => ?_
    rwa [hanchored.run_eq hspares hone, hanchored.run_eq hspares hother]

end Sparing

section Step

variable {path : List String} {first last : NodeId}

theorem Computes.append (hcomputes : Computes host world bindings middle after others)
    (more : Bindings σ) : Computes host world (bindings ++ more) middle after (others ++ more) := by
  induction hcomputes with
  | here hrun => exact .here hrun
  | there hupdate _ ih => exact .there hupdate ih

theorem Untouched.head {α : Type} {view : Heap → α}
    (huntouched : Untouched host world (binding :: rest) view) :
    Untouched host world [binding] view := fun before after _ hcomputes =>
  huntouched before after _ (hcomputes.append rest)

theorem Untouched.tail {α : Type} {view : Heap → α}
    (huntouched : Untouched host world (binding :: rest) view)
    (hupdate : (binding.update host).runIn world = (.ok updated, middle)) :
    Untouched host middle rest view := fun before after _ hcomputes =>
  huntouched before after _ (.there hupdate hcomputes)

theorem Anchored.update_put (hanchored : Anchored world.heap (binding :: others)) (spot : Spot)
    {text : String} (hwrites : binding.Writes spot.node)
    (hheap : after.heap = world.heap.put spot text) :
    Anchored after.heap (binding :: others) ∧ Spared host world after.heap [binding] others := by
  have hspares : SparesRuns world.heap after.heap (binding :: others) :=
    hheap ▸ .putAll hanchored.linked hanchored.acyclic [(spot, text)] _
  refine ⟨hanchored.sparesRuns hspares, hspares.mono (List.subset_cons_self _ _), ?_, ?_, ?_⟩
  · intro id _ hnone _
    rw [hheap, kind_put, Spot.write_of_ne]
    rintro rfl
    exact hnone binding List.mem_cons_self hwrites
  · exact fun _ _ _ _ => hheap ▸ parent?_put world.heap spot text
  · exact fun _ _ _ _ => hheap ▸ children_put world.heap spot text

theorem Anchored.update_run
    (hanchored : Anchored world.heap (⟨path, .fragment first last⟩ :: others))
    (hupdate : (Binding.update host ⟨path, .fragment first last⟩).runIn world =
      (.ok updated, after)) :
    Anchored after.heap (updated :: others) ∧
      Spared host world after.heap [⟨path, .fragment first last⟩] others := by
  have hlinked := hanchored.linked
  obtain ⟨parent, before, run, behind, hspans⟩ :=
    hanchored.together path first last List.mem_cons_self
  obtain ⟨newFirst, newLast, later, new, hrun, -, hsplices, -, hlinkedAfter, hacyclicAfter,
    hends⟩ := updateSplices_of_ok hupdate hlinked hanchored.acyclic hspans
  cases hupdate.symm.trans hrun
  have hstretch : Binding.run world.heap (⟨path, .fragment first last⟩ : Binding σ) = run :=
    hspans.stretch_eq hlinked
  obtain ⟨hfirst, -⟩ := List.pairwise_cons.mp hanchored.apart
  rw [hstretch] at hfirst
  have hspares : SparesRuns world.heap after.heap others := by
    refine ⟨hlinkedAfter, hacyclicAfter, hsplices.size_le hlinkedAfter hends.first_mem, ?_⟩
    intro otherPath otherFirst otherLast hmem owner front other back hother
    refine hother.splices hlinked hspans.children_eq hsplices
      (List.ne_nil_of_mem hspans.first_mem) ?_
    exact hother.stretch_eq hlinked ▸ hfirst _ hmem
  refine ⟨(hanchored.tail.sparesRuns hspares).cons ?_ ?_, hspares, ?_, ?_, ?_⟩
  · rintro _ _ ⟨⟩
    exact ⟨parent, before, roots new, behind, hends⟩
  · -- The new run is younger than all the others.
    intro other hmem id hid hidOther
    rw [hanchored.tail.run_eq hspares hmem] at hidOther
    have hnew : id ∈ roots new := hends.stretch_eq hlinkedAfter ▸ hid
    exact absurd (hanchored.tail.lt_size_of_mem_run hmem hidOther)
      (Nat.not_lt.mpr (hsplices.fresh id (roots_subset_nodes new hnew)))
  · exact fun id hid _ _ => hsplices.kind_eq hid
  · intro id hid hnone _
    refine hsplices.parent?_eq hid (hstretch ▸ hnone _ List.mem_cons_self)
  · intro id hid hnone _
    have hapart := hnone _ List.mem_cons_self
    rw [hstretch] at hapart
    refine hsplices.children_of_ne hid ?_
    rintro rfl
    exact hapart (hspans.run_subset hspans.first_mem) hspans.first_mem

/-- An update that succeeds spares the other bindings, as long as a computation does. -/
theorem Anchored.update (hanchored : Anchored world.heap (binding :: others))
    (hupdate : (binding.update host).runIn world = (.ok updated, after))
    (hcomputes : ∀ before later called, Computes host world [binding] before later called →
      SparesRuns before.heap later.heap (called ++ others)) :
    Anchored after.heap (updated :: others) ∧ Spared host world after.heap [binding] others := by
  obtain ⟨path, target⟩ := binding
  cases target with
  | text node =>
      obtain ⟨rfl, hheap⟩ : updated = ⟨path, .text node⟩ ∧
          after.heap = world.heap.put (.content node) (world.textAt path) := by
        cases hupdate
        exact ⟨rfl, rfl⟩
      exact hanchored.update_put (.content node) rfl hheap
  | «attribute» element name =>
      obtain ⟨rfl, hheap⟩ : updated = ⟨path, .attribute element name⟩ ∧
          after.heap = world.heap.put (.value element name) (world.textAt path) := by
        cases hupdate
        exact ⟨rfl, rfl⟩
      exact hanchored.update_put (.value element name) rfl hheap
  | fragment first last => exact hanchored.update_run hupdate
  | computed effect =>
      obtain ⟨rfl, hrun⟩ := update_computed_ok hupdate
      have hcalled : Computes host world [⟨path, .computed effect⟩] world after [] := .here hrun
      have hspares : SparesRuns world.heap after.heap others := hcomputes _ _ _ hcalled
      refine ⟨(hanchored.tail.sparesRuns hspares).cons nofun fun _ _ => List.disjoint_nil_left _,
        hspares, ?_, ?_, ?_⟩
      all_goals exact fun _ _ _ huntouched => huntouched _ _ _ hcalled

end Step

section Run

theorem Anchored.spared_cons (hanchored : Anchored world.heap (binding :: (rest ++ others)))
    (hupdate : (binding.update host).runIn world = (.ok updated, middle))
    (hfirst : Spared host world middle.heap [binding] (rest ++ others))
    (hrest : Spared host middle after.heap rest (updated :: others)) :
    Spared host world after.heap (binding :: rest) others := by
  have hsize : ∀ {id}, id < world.heap.size → id < middle.heap.size := fun hid =>
    Nat.lt_of_lt_of_le hid hfirst.spares.size_le
  have hruns : ∀ other ∈ rest, other.run middle.heap = other.run world.heap := fun other hmem =>
    hanchored.tail.run_eq hfirst.spares (List.mem_append_left _ hmem)
  constructor
  case spares =>
    exact (hfirst.spares.mono (List.subset_append_right _ _)).trans
      (hrest.spares.mono (List.subset_cons_self _ _))
  case kind_eq =>
    intro id hid hnone huntouched
    obtain ⟨hone, hmore⟩ := List.forall_mem_cons.mp hnone
    rw [hrest.kind_eq id (hsize hid) hmore (huntouched.tail hupdate)]
    exact hfirst.kind_eq id hid (by simpa using hone) huntouched.head
  case parent?_eq =>
    intro id hid hnone huntouched
    obtain ⟨hone, hmore⟩ := List.forall_mem_cons.mp hnone
    rw [hrest.parent?_eq id (hsize hid) (fun other hmem => hruns other hmem ▸ hmore other hmem)
      (huntouched.tail hupdate)]
    exact hfirst.parent?_eq id hid (by simpa using hone) huntouched.head
  case children_eq =>
    intro id hid hnone huntouched
    obtain ⟨hone, hmore⟩ := List.forall_mem_cons.mp hnone
    have hsame := hfirst.children_eq id hid (by simpa using hone) huntouched.head
    rw [hrest.children_eq id (hsize hid) ?_ (huntouched.tail hupdate), hsame]
    intro other hmem
    rw [hsame, hruns other hmem]
    exact hmore other hmem

/-- Bindings that are updated in turn spare the others, as long as their computations do. -/
theorem Anchored.updatesInTurn (hupdates : UpdatesInTurn host world bindings settled after)
    (hanchored : Anchored world.heap (bindings ++ others))
    (hcomputes : ∀ before later called, Computes host world bindings before later called →
      SparesRuns before.heap later.heap (called ++ others)) :
    Anchored after.heap (settled ++ others) ∧ Spared host world after.heap bindings others := by
  induction hupdates generalizing others with
  | nil world =>
      refine ⟨hanchored, .refl hanchored.linked hanchored.acyclic others, ?_, ?_, ?_⟩
      all_goals exact fun _ _ _ _ => rfl
  | @cons world middle after binding updated rest settled hupdate hrest ih =>
      obtain ⟨hmiddle, hfirst⟩ := hanchored.update hupdate fun before later called hcalled => by
        have hspares := hcomputes before later _ (hcalled.append rest)
        rwa [List.append_assoc] at hspares
      have hmoved : Anchored middle.heap (rest ++ updated :: others) :=
        hmiddle.perm List.perm_middle.symm
      obtain ⟨hanchoredAfter, hothers⟩ := ih hmoved fun before later called hcalled =>
        (hcomputes before later _ (.there hupdate hcalled)).mono <| by simp
      exact ⟨hanchoredAfter.perm List.perm_middle,
        hanchored.spared_cons hupdate hfirst hothers⟩

end Run

end MustacheHtml.Render
