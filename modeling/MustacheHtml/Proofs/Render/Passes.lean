import MustacheHtml.Proofs.Document.Scaffold
import MustacheHtml.Proofs.Document.Spots
import MustacheHtml.Proofs.Render.Stopping

namespace MustacheHtml.Document.Heap

open Placed

variable {heap after : Heap} {scaffold : Scaffold} {limit index : Nat} {runs : Nat → List NodeId}
  {parent : NodeId} {before run behind other : List NodeId} {new : List Placed} {forest : Forest}

theorem Holds.exists_parent {owner : Option NodeId} {placed : List Placed}
    (hholds : heap.Holds owner placed) {id : NodeId} (hid : id ∈ nodes placed)
    (hroot : id ∉ roots placed) : ∃ above ∈ nodes placed, heap.parent? id = some above := by
  induction placed using forest_induction generalizing owner with
  | nil => cases hid
  | text node content rest ih =>
      rw [holds_text_cons] at hholds
      rw [roots_cons, List.mem_cons, not_or] at hroot
      rcases List.mem_append.mp hid with hid | hid
      · exact absurd (List.mem_singleton.mp hid) hroot.1
      · obtain ⟨above, habove, hparent⟩ := ih hholds.2 hid hroot.2
        exact ⟨above, List.mem_append_right _ habove, hparent⟩
  | element node tag attributes children rest ihChildren ih =>
      rw [holds_element_cons] at hholds
      rw [roots_cons, List.mem_cons, not_or] at hroot
      rcases List.mem_append.mp hid with hid | hid
      · have hbelow : id ∈ nodes children := (List.mem_cons.mp hid).resolve_left hroot.1
        by_cases htop : id ∈ roots children
        · exact ⟨node, List.mem_append_left _ List.mem_cons_self,
            hholds.1.2.parent?_eq id htop⟩
        · obtain ⟨above, habove, hparent⟩ := ihChildren hholds.1.2 hbelow htop
          exact ⟨above, List.mem_append_left _ (List.mem_cons_of_mem _ habove), hparent⟩
      · obtain ⟨above, habove, hparent⟩ := ih hholds.2 hid hroot.2
        exact ⟨above, List.mem_append_right _ habove, hparent⟩

namespace Splices

variable (hsplices : heap.Splices after parent before run behind new)

include hsplices

theorem kind_eq {id : NodeId} (hid : id < heap.size) : after.kind id = heap.kind id := by
  rw [kind, kind]
  by_cases hparent : id = parent
  · rw [hparent, hsplices.cell_parent]
  · by_cases hrun : id ∈ run
    · rw [hsplices.cell_run id hrun]
    · rw [hsplices.cell_other id hid hparent hrun]

theorem parent?_eq {id : NodeId} (hid : id < heap.size) (hrun : id ∉ run) :
    after.parent? id = heap.parent? id := by
  rw [parent?, parent?]
  by_cases hparent : id = parent
  · rw [hparent, hsplices.cell_parent]
  · rw [hsplices.cell_other id hid hparent hrun]

theorem children_parent : after.children parent = before ++ roots new ++ behind := by
  rw [Heap.children, hsplices.cell_parent]

theorem children_of_ne {id : NodeId} (hid : id < heap.size) (hparent : id ≠ parent) :
    after.children id = heap.children id := by
  rw [Heap.children, Heap.children]
  by_cases hrun : id ∈ run
  · rw [hsplices.cell_run id hrun]
  · rw [hsplices.cell_other id hid hparent hrun]

theorem size_le (hlinked : after.Linked) {id : NodeId} (hid : id ∈ roots new) :
    heap.size ≤ after.size := by
  have hlink := hsplices.holds.parent?_eq id hid
  have hbound := hlinked.child_lt_size ((hlinked.parent_iff parent id).mp hlink)
  exact Nat.le_trans (hsplices.fresh id (roots_subset_nodes new hid)) (Nat.le_of_lt hbound)

end Splices

theorem ShowsRun.splices (hshows : heap.ShowsRun limit other forest) (hlinked : heap.Linked)
    (hsplices : heap.Splices after parent before run behind new) (hparent : parent < limit)
    (hrun : ∀ id ∈ run, heap.parent? id = some parent) (hapart : other.Disjoint run) :
    after.ShowsRun limit other forest := by
  obtain ⟨owner, placed, howner, hholds, rfl, hfresh, htrees⟩ := hshows
  have hlink : ∀ id ∈ nodes placed, id ∉ run ∧ id < heap.size := by
    intro id hid
    by_cases hroot : id ∈ roots placed
    · have hup := hholds.parent?_eq id hroot
      exact ⟨hapart hroot, hlinked.child_lt_size ((hlinked.parent_iff _ _).mp hup)⟩
    · obtain ⟨above, habove, hup⟩ := hholds.exists_parent hid hroot
      refine ⟨fun hmem => ?_, hlinked.child_lt_size ((hlinked.parent_iff _ _).mp hup)⟩
      -- The parent of the run is older than all nodes of the trees.
      obtain rfl : above = parent := Option.some.inj (hup.symm.trans (hrun id hmem))
      exact absurd hparent (Nat.not_lt.mpr (hfresh above habove))
  refine ⟨owner, placed, howner, hholds.congr fun id hid => ?_, rfl, hfresh, htrees⟩
  have hne : id ≠ parent := Nat.ne_of_gt (Nat.lt_of_lt_of_le hparent (hfresh id hid))
  exact hsplices.cell_other id (hlink id hid).2 hne (hlink id hid).1

theorem ShowsRun.putAll {puts : Puts} (hshows : heap.ShowsRun limit other forest)
    (hputs : ∀ spot ∈ puts.spots, spot.node < limit) :
    (heap.putAll puts).ShowsRun limit other forest := by
  obtain ⟨owner, placed, howner, hholds, hroots, hfresh, htrees⟩ := hshows
  refine ⟨owner, placed, howner, hholds.congr fun id hid => ?_, hroots, hfresh, htrees⟩
  exact cell_putAll_of_not_mem heap fun spot hspot =>
    Nat.ne_of_lt (Nat.lt_of_lt_of_le (hputs spot hspot) (hfresh id hid))

theorem Carries.putAll (hcarries : heap.Carries scaffold limit runs) (puts : Puts) :
    (heap.putAll puts).Carries scaffold limit runs where
  linked := hcarries.linked.putAll puts
  acyclic := hcarries.acyclic.putAll puts
  limit_le := by
    rw [size_putAll]
    exact hcarries.limit_le
  old := hcarries.old
  children_eq := by
    intro id hid
    rw [children_putAll, hcarries.children_eq id hid]

/-- New trees in the place of a run are the run on the scaffold. -/
theorem Carries.splices {front back : List Piece} (hcarries : heap.Carries scaffold limit runs)
    (hparent : parent < limit) (hruns : runs index ≠ [])
    (hsplit : scaffold parent = front ++ .run index :: back)
    (hsplices : heap.Splices after parent (Piece.spread runs front) (runs index)
      (Piece.spread runs back) new)
    (hlinked : after.Linked) (hacyclic : after.Acyclic) (hsize : heap.size ≤ after.size) :
    after.Carries scaffold limit (Function.update runs index (roots new)) where
  linked := hlinked
  acyclic := hacyclic
  limit_le := Nat.le_trans hcarries.limit_le hsize
  old := hcarries.old
  children_eq := by
    intro id hid
    by_cases hsame : id = parent
    · subst hsame
      obtain ⟨hfront, hback⟩ := hcarries.not_mem_of_split hruns hparent hsplit
      rw [hsplices.children_parent, hsplit, Piece.spread_append, Piece.spread_cons, Piece.ids,
        Function.update_self, Piece.spread_update hfront, Piece.spread_update hback,
        List.append_assoc]
    · have hmark : .run index ∉ scaffold id := fun hmem =>
        hsame (hcarries.parent_eq hruns hid hparent hmem (by simp [hsplit]))
      rw [hsplices.children_of_ne (Nat.lt_of_lt_of_le hid hcarries.limit_le) hsame,
        hcarries.children_eq id hid, Piece.spread_update hmark]

end MustacheHtml.Document.Heap

namespace MustacheHtml.Render

open MustacheHtml.Document
open MustacheHtml.Document.Heap
open MustacheHtml.Document.Placed

variable {σ : Type} {host : Host σ} {world after : World σ} {binding updated : Binding σ}
  {bindings settled : Bindings σ}

theorem updateSplices_of_accepted {path : List String} {first last parent : NodeId}
    {before run behind : List NodeId}
    (haccepts : host.objection? world (world.textAt path) = none) (hlinked : world.heap.Linked)
    (hacyclic : world.heap.Acyclic)
    (hspans : world.heap.Spans first last parent before run behind) :
    UpdateSplices host world path first last parent before run behind := by
  obtain ⟨newFirst, newLast, after, new, hrun, hspliced⟩ :=
    updateSplices_of_spans host.lenient_refuses hlinked hacyclic hspans path
  exact ⟨newFirst, newLast, after, new, (runIn_update_lenient haccepts).trans hrun, hspliced⟩

theorem updateSplices_of_ok {path : List String} {first last parent : NodeId}
    {before run behind : List NodeId}
    (hupdate : (Binding.update host ⟨path, .fragment first last⟩).runIn world =
      (.ok updated, after)) (hlinked : world.heap.Linked) (hacyclic : world.heap.Acyclic)
    (hspans : world.heap.Spans first last parent before run behind) :
    UpdateSplices host world path first last parent before run behind := by
  cases hobjects : host.objection? world (world.textAt path) with
  | none => exact updateSplices_of_accepted hobjects hlinked hacyclic hspans
  | some message =>
      have hparent := hspans.parent?_eq hlinked first hspans.first_mem
      cases hupdate.symm.trans
        (runIn_update_run_error (runIn_replaceRun_refused hparent hobjects))

/-- A computation that succeeds puts strings that depend on the data at spots that do not. -/
structure Displays (effect : Effect σ String Unit) (puts : Value → Puts) : Prop where
  runs : ∀ world after, effect.runIn world = (.ok (), after) →
    after.heap = world.heap.putAll (puts world.context) ∧ after.context = world.context
  spots_eq : ∀ data other, (puts data).spots = (puts other).spots

namespace Binding

/-- What a binding puts where, if it does not replace a run; `shows` is what computations put. -/
def puts (shows : Effect σ String Unit → Value → Puts) (data : Value) (binding : Binding σ) :
    Puts :=
  match binding.target with
  | .text node => [(.content node, (data.lookup binding.path).render)]
  | .attribute owner name => [(.value owner name, (data.lookup binding.path).render)]
  | .fragment _ _ => []
  | .computed effect => shows effect data

/-- The nodes that a binding to a fragment stands for. -/
def run (heap : Heap) (binding : Binding σ) : List NodeId :=
  match binding.target with
  | .fragment first last => heap.stretch first last
  | _ => []

/-- The spots of a binding are at nodes below the limit, and a computation shows the data there. -/
structure Behaves (shows : Effect σ String Unit → Value → Puts) (limit : Nat)
    (binding : Binding σ) : Prop where
  displays : ∀ effect, binding.target = .computed effect → Displays effect (shows effect)
  bound : ∀ data, ∀ spot ∈ (binding.puts shows data).spots, spot.node < limit

variable {shows : Effect σ String Unit → Value → Puts} {limit : Nat}

theorem puts_bare (data : Value) : binding.bare.puts shows data = binding.puts shows data := by
  obtain ⟨path, target⟩ := binding
  cases target <;> rfl

theorem Behaves.spots_eq (hbehaves : binding.Behaves shows limit) (data other : Value) :
    (binding.puts shows data).spots = (binding.puts shows other).spots := by
  obtain ⟨path, target⟩ := binding
  cases target with
  | computed effect => exact (hbehaves.displays effect rfl).spots_eq data other
  | _ => rfl

theorem Behaves.update (hbehaves : binding.Behaves shows limit)
    (hrun : ∀ first last, binding.target ≠ .fragment first last)
    (hupdate : (binding.update host).runIn world = (.ok updated, after)) :
    updated = binding ∧ after.heap = world.heap.putAll (binding.puts shows world.context) ∧
      after.context = world.context := by
  obtain ⟨path, target⟩ := binding
  cases target with
  | text node =>
      cases hupdate
      exact ⟨rfl, rfl, rfl⟩
  | «attribute» element name =>
      cases hupdate
      exact ⟨rfl, rfl, rfl⟩
  | fragment first last => exact absurd rfl (hrun first last)
  | computed effect =>
      obtain ⟨rfl, heffect⟩ := update_computed_ok hupdate
      exact ⟨rfl, (hbehaves.displays effect rfl).runs world after heffect⟩

end Binding

/-- A document in the midst of updates: the bindings as they are by then, and the nodes that each
binding to a fragment stands for. -/
structure Stage (σ : Type) where
  world : World σ
  bindings : Bindings σ
  runs : Nat → List NodeId

namespace Stage

variable {shows : Effect σ String Unit → Value → Puts} {scaffold : Scaffold} {limit index : Nat}
  {stage middle next : Stage σ}

/-- The runs of the bindings to fragments are the runs of the scaffold, and the ends of each are
those that the binding holds. -/
structure Sound (shows : Effect σ String Unit → Value → Puts) (scaffold : Scaffold) (limit : Nat)
    (stage : Stage σ) : Prop where
  carries : stage.world.heap.Carries scaffold limit stage.runs
  behaves : ∀ binding ∈ stage.bindings, binding.Behaves shows limit
  marked : ∀ id < limit, ∀ index, .run index ∈ scaffold id → ∃ path first last,
    stage.bindings[index]? = some ⟨path, .fragment first last⟩
  held : ∀ index path first last, stage.bindings[index]? = some ⟨path, .fragment first last⟩ →
    (stage.runs index).head? = some first ∧ (stage.runs index).getLast? = some last ∧
      ∃ parent < limit, .run index ∈ scaffold parent

/-- If a binding is to a fragment, then its run shows the data. -/
def Current (limit : Nat) (stage : Stage σ) (index : Nat) : Prop :=
  ∀ path first last, stage.bindings[index]? = some ⟨path, .fragment first last⟩ →
    stage.world.heap.ShowsRun limit (stage.runs index)
      (boundForest (Markup.parse (stage.world.textAt path)))

/-- What updates from one binding up to another one do. -/
structure Advances (shows : Effect σ String Unit → Value → Puts) (scaffold : Scaffold)
    (limit : Nat) (stage next : Stage σ) (start stop : Nat) (puts : Puts) : Prop where
  sound : next.Sound shows scaffold limit
  context_eq : next.world.context = stage.world.context
  current : ∀ index, start ≤ index ∧ index < stop ∨ stage.Current limit index →
    next.Current limit index
  kind_eq : ∀ id < limit, next.world.heap.kind id = puts.write id (stage.world.heap.kind id)

theorem Advances.refl (hsound : stage.Sound shows scaffold limit) (start : Nat) :
    Advances shows scaffold limit stage stage start start [] where
  sound := hsound
  context_eq := rfl
  current := fun _ hindex => hindex.resolve_left fun hrange => by omega
  kind_eq := fun _ _ => rfl

theorem Advances.trans {start mid stop : Nat} {puts more : Puts}
    (hfirst : Advances shows scaffold limit stage middle start mid puts)
    (hsecond : Advances shows scaffold limit middle next mid stop more) :
    Advances shows scaffold limit stage next start stop (puts ++ more) where
  sound := hsecond.sound
  context_eq := hsecond.context_eq.trans hfirst.context_eq
  current := by
    intro index hindex
    by_cases hlate : mid ≤ index ∧ index < stop
    · exact hsecond.current index (.inl hlate)
    · refine hsecond.current index (.inr (hfirst.current index ?_))
      exact hindex.imp_left fun hrange => ⟨hrange.1, by omega⟩
  kind_eq := by
    intro id hid
    rw [hsecond.kind_eq id hid, hfirst.kind_eq id hid, Puts.write_append]

theorem Sound.putAll (hsound : stage.Sound shows scaffold limit) {puts : Puts}
    (hputs : ∀ spot ∈ puts.spots, spot.node < limit)
    (hheap : after.heap = stage.world.heap.putAll puts)
    (hcontext : after.context = stage.world.context)
    (hindex : ∀ path first last, stage.bindings[index]? ≠ some ⟨path, .fragment first last⟩) :
    Advances shows scaffold limit stage ⟨after, stage.bindings, stage.runs⟩ index (index + 1)
      puts where
  sound := by
    refine ⟨?_, hsound.behaves, hsound.marked, hsound.held⟩
    rw [hheap]
    exact hsound.carries.putAll puts
  context_eq := hcontext
  current := by
    rintro other hother path first last hbinding
    have hold : stage.Current limit other := by
      refine hother.resolve_left fun hrange => ?_
      obtain rfl : other = index := by omega
      exact hindex path first last hbinding
    rw [hheap, World.textAt_congr hcontext]
    exact (hold path first last hbinding).putAll hputs
  kind_eq := by
    intro id _
    rw [hheap, kind_putAll]

section Splice

variable {path : List String} {first last newFirst newLast parent : NodeId}
  {front back : List Piece} {new : List Placed}

theorem Sound.exists_spans (hsound : stage.Sound shows scaffold limit)
    (hbinding : stage.bindings[index]? = some ⟨path, .fragment first last⟩) :
    ∃ parent front back, parent < limit ∧ scaffold parent = front ++ .run index :: back ∧
      stage.world.heap.Spans first last parent (Piece.spread stage.runs front) (stage.runs index)
        (Piece.spread stage.runs back) := by
  obtain ⟨hhead, hlast, parent, hparent, hmark⟩ := hsound.held index path first last hbinding
  obtain ⟨front, back, hsplit⟩ := List.append_of_mem hmark
  refine ⟨parent, front, back, hparent, hsplit, ?_, hhead, hlast⟩
  rw [hsound.carries.children_eq parent hparent, hsplit, Piece.spread_append, Piece.spread_cons,
    Piece.ids, List.append_assoc]

theorem Sound.splice (hsound : stage.Sound shows scaffold limit)
    (hbinding : stage.bindings[index]? = some ⟨path, .fragment first last⟩)
    (hparent : parent < limit) (hsplit : scaffold parent = front ++ .run index :: back)
    (hsplices : stage.world.heap.Splices after.heap parent (Piece.spread stage.runs front)
      (stage.runs index) (Piece.spread stage.runs back) new)
    (hlinked : after.heap.Linked) (hacyclic : after.heap.Acyclic)
    (hhead : (roots new).head? = some newFirst) (hlast : (roots new).getLast? = some newLast) :
    Sound shows scaffold limit ⟨after,
      stage.bindings.set index ⟨path, .fragment newFirst newLast⟩,
      Function.update stage.runs index (roots new)⟩ := by
  have hbound : index < stage.bindings.length := (List.getElem?_eq_some_iff.mp hbinding).1
  have hruns : stage.runs index ≠ [] := by
    have hold := (hsound.held index path first last hbinding).1
    exact List.ne_nil_of_mem (List.mem_of_mem_head? hold)
  constructor
  case carries =>
    exact hsound.carries.splices hparent hruns hsplit hsplices hlinked hacyclic
      (hsplices.size_le hlinked (List.mem_of_mem_head? hhead))
  case behaves =>
    intro binding hmem
    rcases List.mem_or_eq_of_mem_set hmem with hold | rfl
    · exact hsound.behaves binding hold
    · exact ⟨nofun, fun _ _ => nofun⟩
  case marked =>
    intro id hid other hmark
    by_cases hsame : other = index
    · subst hsame
      exact ⟨path, newFirst, newLast, List.getElem?_set_self hbound⟩
    · rw [List.getElem?_set_ne (Ne.symm hsame)]
      exact hsound.marked id hid other hmark
  case held =>
    intro other otherPath otherFirst otherLast hother
    by_cases hsame : other = index
    · subst hsame
      rw [List.getElem?_set_self hbound] at hother
      cases hother
      simp only [Function.update_self]
      exact ⟨hhead, hlast, parent, hparent, by simp [hsplit]⟩
    · rw [List.getElem?_set_ne (Ne.symm hsame)] at hother
      simp only [Function.update_of_ne hsame]
      exact hsound.held other otherPath otherFirst otherLast hother

theorem Sound.update_run (hsound : stage.Sound shows scaffold limit)
    (hbinding : stage.bindings[index]? = some ⟨path, .fragment first last⟩)
    (hupdate : (Binding.update host ⟨path, .fragment first last⟩).runIn stage.world =
      (.ok updated, after)) :
    ∃ runs, Advances shows scaffold limit stage
      ⟨after, stage.bindings.set index updated, runs⟩ index (index + 1) [] := by
  obtain ⟨parent, front, back, hparent, hsplit, hspans⟩ := hsound.exists_spans hbinding
  have hlinked := hsound.carries.linked
  have hparents := hspans.parent?_eq hlinked
  obtain ⟨newFirst, newLast, later, new, hrun, hcontext, hsplices, htrees, hlinkedAfter,
    hacyclicAfter, hends⟩ := updateSplices_of_ok hupdate hlinked hsound.carries.acyclic hspans
  cases hupdate.symm.trans hrun
  refine ⟨Function.update stage.runs index (roots new), ?_⟩
  constructor
  case sound =>
    exact hsound.splice hbinding hparent hsplit hsplices hlinkedAfter hacyclicAfter hends.head_eq
      hends.last_eq
  case context_eq => exact hcontext
  case current =>
    intro other hother otherPath otherFirst otherLast hfound
    rw [World.textAt_congr hcontext]
    by_cases hsame : other = index
    · subst hsame
      rw [List.getElem?_set_self (List.getElem?_eq_some_iff.mp hbinding).1] at hfound
      cases hfound
      simp only [Function.update_self]
      exact ⟨parent, new, hparent, hsplices.holds, rfl, fun id hid =>
        Nat.le_trans hsound.carries.limit_le (hsplices.fresh id hid), htrees⟩
    · rw [List.getElem?_set_ne (Ne.symm hsame)] at hfound
      simp only [Function.update_of_ne hsame]
      have hold := hother.resolve_left (by omega) otherPath otherFirst otherLast hfound
      obtain ⟨-, -, owner, howner, hmark⟩ :=
        hsound.held other otherPath otherFirst otherLast hfound
      exact hold.splices hlinked hsplices hparent hparents
        (hsound.carries.disjoint hsame howner hparent hmark (by simp [hsplit]))
  case kind_eq =>
    exact fun id hid => hsplices.kind_eq (Nat.lt_of_lt_of_le hid hsound.carries.limit_le)

end Splice

theorem Sound.update (hsound : stage.Sound shows scaffold limit)
    (hbinding : stage.bindings[index]? = some binding)
    (hupdate : (binding.update host).runIn stage.world = (.ok updated, after)) :
    ∃ runs, Advances shows scaffold limit stage
      ⟨after, stage.bindings.set index updated, runs⟩ index (index + 1)
        (binding.puts shows stage.world.context) := by
  by_cases hrun : ∃ path first last, binding = ⟨path, .fragment first last⟩
  · obtain ⟨path, first, last, rfl⟩ := hrun
    exact hsound.update_run hbinding hupdate
  · have hmem := List.mem_of_getElem? hbinding
    have hbehaves := hsound.behaves binding hmem
    obtain ⟨rfl, hheap, hcontext⟩ := hbehaves.update
      (fun first last htarget => hrun ⟨binding.path, first, last, by rw [← htarget]⟩) hupdate
    refine ⟨stage.runs, ?_⟩
    obtain ⟨hbound, hget⟩ := List.getElem?_eq_some_iff.mp hbinding
    rw [← hget, List.set_getElem_self, hget]
    refine hsound.putAll (hbehaves.bound _) hheap hcontext ?_
    intro path first last hsame
    exact hrun ⟨path, first, last, Option.some.inj (hbinding.symm.trans hsame)⟩

/-- What updates of bindings in turn do. -/
theorem Sound.updatesInTurn {front back : Bindings σ} {runs : Nat → List NodeId}
    (hupdates : UpdatesInTurn host world bindings settled after)
    (hsound : Sound shows scaffold limit ⟨world, front ++ bindings ++ back, runs⟩) :
    ∃ replaced, Advances shows scaffold limit ⟨world, front ++ bindings ++ back, runs⟩
      ⟨after, front ++ settled ++ back, replaced⟩ front.length (front.length + bindings.length)
        (bindings.flatMap (Binding.puts shows world.context)) := by
  induction hupdates generalizing front runs with
  | nil world => exact ⟨runs, .refl hsound _⟩
  | @cons world middle after binding updated rest others hupdate hrest ih =>
      have hbinding : (front ++ binding :: rest ++ back)[front.length]? = some binding := by simp
      obtain ⟨replaced, hfirst⟩ := hsound.update hbinding hupdate
      have hset : (front ++ binding :: rest ++ back).set front.length updated =
          (front ++ [updated]) ++ rest ++ back := by simp
      have hsettled : (front ++ [updated]) ++ others ++ back =
          front ++ updated :: others ++ back := by simp
      have hlength : (front ++ [updated]).length = front.length + 1 := by simp
      have hstop : front.length + 1 + rest.length = front.length + (binding :: rest).length := by
        rw [List.length_cons, Nat.add_assoc, Nat.add_comm 1]
      rw [show (Stage.mk world (front ++ binding :: rest ++ back) runs).bindings.set front.length
        updated = _ from hset] at hfirst
      obtain ⟨final, hothers⟩ := ih hfirst.sound
      rw [hsettled, hlength, show middle.context = world.context from hfirst.context_eq] at hothers
      rw [← hstop, List.flatMap_cons]
      exact ⟨final, hfirst.trans hothers⟩

end Stage

end MustacheHtml.Render
