import Mathlib.Data.List.Pairwise
import Mathlib.Logic.Function.Basic
import MustacheHtml.Proofs.Document.Depth
import MustacheHtml.Proofs.Document.Stretch

/-!
Scaffolds: what stays of a document when runs of siblings are replaced, with a mark for each run in
the place where it stands. Two documents on one scaffold that show the same in their runs look alike
everywhere else.
-/

namespace MustacheHtml.Document

/-- A piece of a list of children: a node that stays, or the run of that number. -/
inductive Piece where
  | node (id : NodeId)
  | run (index : Nat)

/-- The children of each node in pieces. -/
abbrev Scaffold := NodeId → List Piece

namespace Piece

/-- The nodes that a piece stands for, where the runs are known. -/
def ids (runs : Nat → List NodeId) : Piece → List NodeId
  | node id => [id]
  | run index => runs index

/-- The children that pieces come to, where the runs are known. -/
def spread (runs : Nat → List NodeId) (pieces : List Piece) : List NodeId :=
  pieces.flatMap (ids runs)

variable {runs : Nat → List NodeId} {pieces front back : List Piece} {index : Nat}
  {before run behind : List NodeId}

@[simp] theorem spread_nil : spread runs [] = [] := rfl

@[simp] theorem spread_cons (piece : Piece) (rest : List Piece) :
    spread runs (piece :: rest) = piece.ids runs ++ spread runs rest := rfl

@[simp] theorem spread_append :
    spread runs (front ++ back) = spread runs front ++ spread runs back :=
  List.flatMap_append

@[simp] theorem spread_map_node (ids : List NodeId) : spread runs (ids.map node) = ids := by
  induction ids with
  | nil => rfl
  | cons id rest ih => rw [List.map_cons, spread_cons, ih, Piece.ids, List.singleton_append]

theorem subset_spread (hindex : .run index ∈ pieces) : runs index ⊆ spread runs pieces :=
  fun _ hid => List.mem_flatMap.mpr ⟨_, hindex, hid⟩

theorem spread_update (hindex : .run index ∉ pieces) :
    spread (Function.update runs index run) pieces = spread runs pieces := by
  refine List.flatMap_congr fun piece hpiece => ?_
  cases piece with
  | node id => rfl
  | run other =>
      have hother : other ≠ index := fun hsame => hindex (hsame ▸ hpiece)
      exact Function.update_of_ne hother run runs

theorem exists_of_spread_eq_append (hspread : spread runs pieces = run ++ behind)
    (hapart : ∀ other, .run other ∈ pieces → runs other ≠ [] ∧ (runs other).Disjoint run) :
    ∃ back, pieces = run.map node ++ back ∧ spread runs back = behind := by
  induction run generalizing pieces with
  | nil => exact ⟨pieces, rfl, hspread⟩
  | cons id rest ih =>
      cases pieces with
      | nil => cases hspread
      | cons piece pieces =>
          cases piece with
          | node other =>
              obtain ⟨rfl, hrest⟩ : other = id ∧ spread runs pieces = rest ++ behind := by
                simpa [ids] using hspread
              obtain ⟨back, rfl, hback⟩ := ih hrest fun other hother =>
                have hown := hapart other (List.mem_cons_of_mem _ hother)
                ⟨hown.1, List.disjoint_of_disjoint_cons_right hown.2⟩
              exact ⟨back, rfl, hback⟩
          | run other =>
              obtain ⟨hne, hown⟩ := hapart other List.mem_cons_self
              obtain ⟨first, others, hruns⟩ := List.exists_cons_of_ne_nil hne
              have hfirst : first = id := by
                have hboth : first :: (others ++ spread runs pieces) = id :: (rest ++ behind) := by
                  simpa [ids, hruns] using hspread
                exact (List.cons.inj hboth).1
              rw [hruns] at hown
              exact absurd (hfirst ▸ List.mem_cons_self) (hown List.mem_cons_self)

theorem exists_of_spread_eq (hspread : spread runs pieces = before ++ run ++ behind)
    (hrun : run ≠ [])
    (hapart : ∀ other, .run other ∈ pieces → runs other ≠ [] ∧ (runs other).Disjoint run) :
    ∃ front back, pieces = front ++ run.map node ++ back ∧ spread runs front = before ∧
      spread runs back = behind := by
  rw [List.append_assoc] at hspread
  induction pieces generalizing before with
  | nil =>
      have hnil := List.append_eq_nil_iff.mp (List.append_eq_nil_iff.mp hspread.symm).2
      exact absurd hnil.1 hrun
  | cons piece pieces ih =>
      have hothers : ∀ other, .run other ∈ pieces →
          runs other ≠ [] ∧ (runs other).Disjoint run := fun other hother =>
        hapart other (List.mem_cons_of_mem _ hother)
      rw [spread_cons] at hspread
      -- Either the piece lies before the run, or the run begins within it.
      rcases List.append_eq_append_iff.mp hspread with ⟨more, rfl, hrest⟩ | ⟨more, hpiece, hrest⟩
      · obtain ⟨front, back, rfl, rfl, hback⟩ := ih hrest hothers
        exact ⟨piece :: front, back, rfl, rfl, hback⟩
      · cases more with
        | nil =>
            rw [List.append_nil] at hpiece
            have hnone : spread runs pieces = [] ++ (run ++ behind) := hrest.symm
            obtain ⟨front, back, rfl, hfront, hback⟩ := ih hnone hothers
            exact ⟨piece :: front, back, rfl, by simp [hpiece, hfront], hback⟩
        | cons id more =>
            obtain ⟨others, rfl⟩ : ∃ others, run = id :: others := by
              obtain ⟨first, others, rfl⟩ := List.exists_cons_of_ne_nil hrun
              exact ⟨others, by rw [(List.cons.inj hrest).1]⟩
            cases piece with
            | node other =>
                obtain rfl : before = [] := by
                  cases before with
                  | nil => rfl
                  | cons first rest => simp [ids] at hpiece
                have hwhole : spread runs (.node other :: pieces) = (id :: others) ++ behind :=
                  hspread
                obtain ⟨back, hsplit, hback⟩ := exists_of_spread_eq_append hwhole hapart
                exact ⟨[], back, hsplit, rfl, hback⟩
            | run other =>
                have hmem : id ∈ runs other := by
                  rw [show runs other = before ++ id :: more from hpiece]
                  simp
                exact absurd List.mem_cons_self ((hapart other List.mem_cons_self).2 hmem)

end Piece

namespace Heap

open Piece

/-- The document stands on a scaffold, made for the nodes below the limit. What a run is made of may
be younger. -/
structure Carries (heap : Heap) (scaffold : Scaffold) (limit : Nat) (runs : Nat → List NodeId) :
    Prop where
  linked : heap.Linked
  acyclic : heap.Acyclic
  limit_le : limit ≤ heap.size
  old : ∀ id < limit, ∀ child, .node child ∈ scaffold id → child < limit
  children_eq : ∀ id < limit, heap.children id = spread runs (scaffold id)

namespace Carries

variable {heap after : Heap} {scaffold : Scaffold} {limit index other : Nat}
  {runs : Nat → List NodeId} {parent owner : NodeId} {front back : List Piece}

theorem mem_children (hcarries : heap.Carries scaffold limit runs) (hparent : parent < limit)
    (hindex : .run index ∈ scaffold parent) {id : NodeId} (hid : id ∈ runs index) :
    id ∈ heap.children parent :=
  hcarries.children_eq parent hparent ▸ subset_spread hindex hid

theorem parent_eq (hcarries : heap.Carries scaffold limit runs) (hruns : runs index ≠ [])
    (hparent : parent < limit) (howner : owner < limit) (hindex : .run index ∈ scaffold parent)
    (hagain : .run index ∈ scaffold owner) : parent = owner := by
  obtain ⟨id, hid⟩ := List.exists_mem_of_ne_nil _ hruns
  exact hcarries.linked.eq_of_mem (hcarries.mem_children hparent hindex hid)
    (hcarries.mem_children howner hagain hid)

theorem disjoint (hcarries : heap.Carries scaffold limit runs) (hne : index ≠ other)
    (hparent : parent < limit) (howner : owner < limit) (hindex : .run index ∈ scaffold parent)
    (hother : .run other ∈ scaffold owner) : (runs index).Disjoint (runs other) := by
  intro id hid hidOther
  obtain rfl : parent = owner := hcarries.linked.eq_of_mem
    (hcarries.mem_children hparent hindex hid) (hcarries.mem_children howner hother hidOther)
  have hnodup := hcarries.linked.nodup parent
  rw [hcarries.children_eq parent hparent, spread, List.nodup_flatMap] at hnodup
  have hsymm : Std.Symm (Function.onFun List.Disjoint (Piece.ids runs)) :=
    ⟨fun _ _ hdisjoint => hdisjoint.symm⟩
  exact hnodup.2.forall hindex hother (by simpa using hne) hid hidOther

theorem not_mem_of_split (hcarries : heap.Carries scaffold limit runs) (hruns : runs index ≠ [])
    (hparent : parent < limit) (hsplit : scaffold parent = front ++ .run index :: back) :
    .run index ∉ front ∧ .run index ∉ back := by
  obtain ⟨id, hid⟩ := List.exists_mem_of_ne_nil _ hruns
  have hnodup := hcarries.linked.nodup parent
  rw [hcarries.children_eq parent hparent, hsplit, spread_append, spread_cons] at hnodup
  obtain ⟨-, hrest, hfront⟩ := List.nodup_append'.mp hnodup
  obtain ⟨-, -, hback⟩ := List.nodup_append'.mp hrest
  exact ⟨fun hmem => hfront (subset_spread hmem hid) (List.mem_append_left _ hid),
    fun hmem => hback hid (subset_spread hmem hid)⟩

theorem mark {first last : NodeId} {before behind : List NodeId}
    (hcarries : heap.Carries scaffold heap.size runs)
    (hspans : heap.Spans first last parent before (runs index) behind)
    (hmarked : ∀ id < heap.size, ∀ other, .run other ∈ scaffold id →
      runs other ≠ [] ∧ (runs other).Disjoint (runs index)) :
    ∃ marked : Scaffold, heap.Carries marked heap.size runs ∧ ∀ id other,
      .run other ∈ marked id ↔ .run other ∈ scaffold id ∨ id = parent ∧ other = index := by
  have hparent := hspans.parent_lt_size hcarries.linked
  have hruns : runs index ≠ [] := List.ne_nil_of_mem hspans.first_mem
  obtain ⟨front, back, hsplit, hfront, hback⟩ := exists_of_spread_eq
    ((hcarries.children_eq parent hparent).symm.trans hspans.children_eq) hruns
    (hmarked parent hparent)
  refine ⟨Function.update scaffold parent (front ++ .run index :: back),
    ⟨hcarries.linked, hcarries.acyclic, Nat.le_refl _, ?_, ?_⟩, ?_⟩
  · intro id hid child hchild
    by_cases hsame : id = parent
    · subst hsame
      rw [Function.update_self] at hchild
      refine hcarries.old id hid child (hsplit ▸ ?_)
      rcases List.mem_append.mp hchild with hchild | hchild
      · exact List.mem_append_left _ (List.mem_append_left _ hchild)
      · exact List.mem_append_right _ ((List.mem_cons.mp hchild).resolve_left nofun)
    · rw [Function.update_of_ne hsame] at hchild
      exact hcarries.old id hid child hchild
  · intro id hid
    by_cases hsame : id = parent
    · subst hsame
      rw [Function.update_self, hspans.children_eq, spread_append, spread_cons, hfront, hback,
        Piece.ids, List.append_assoc]
    · rw [Function.update_of_ne hsame, hcarries.children_eq id hid]
  · intro id other
    by_cases hsame : id = parent
    · subst hsame
      rw [Function.update_self, hsplit]
      simp only [List.mem_append, List.mem_cons, List.mem_map, run.injEq, reduceCtorEq, and_false,
        exists_false, or_false, true_and]
      exact (or_congr_right or_comm).trans or_assoc.symm
    · simp [hsame]

end Carries

/-- Runs that are apart from each other stand on a scaffold. -/
theorem exists_carries {heap : Heap} (hlinked : heap.Linked) (hacyclic : heap.Acyclic)
    {runs : Nat → List NodeId} {indices : List Nat}
    (hspans : ∀ index ∈ indices, ∃ first last parent before behind,
      heap.Spans first last parent before (runs index) behind)
    (hapart : indices.Pairwise fun index other => (runs index).Disjoint (runs other)) :
    ∃ scaffold, heap.Carries scaffold heap.size runs ∧
      (∀ id < heap.size, ∀ index, .run index ∈ scaffold id → index ∈ indices) ∧
      ∀ index ∈ indices, ∃ parent < heap.size, .run index ∈ scaffold parent := by
  induction indices with
  | nil =>
      refine ⟨fun id => (heap.children id).map .node, ?_, ?_, fun _ => nofun⟩
      · refine ⟨hlinked, hacyclic, Nat.le_refl _, ?_, fun id _ => (spread_map_node _).symm⟩
        intro id hid child hchild
        exact hlinked.child_lt_size (by simpa using hchild)
      · simp
  | cons index rest ih =>
      obtain ⟨hfirst, hrest⟩ := List.forall_mem_cons.mp hspans
      obtain ⟨hfirstApart, hrestApart⟩ := List.pairwise_cons.mp hapart
      obtain ⟨scaffold, hcarries, hmarked, hplaced⟩ := ih hrest hrestApart
      obtain ⟨first, last, parent, before, behind, hfirst⟩ := hfirst
      have hparent := hfirst.parent_lt_size hlinked
      obtain ⟨marked, hmade, hmem⟩ := hcarries.mark hfirst fun id hid other hother => by
        have hrun := hmarked id hid other hother
        obtain ⟨_, _, _, _, _, hown⟩ := hrest other hrun
        exact ⟨List.ne_nil_of_mem hown.first_mem, (hfirstApart other hrun).symm⟩
      refine ⟨marked, hmade, ?_, ?_⟩
      · intro id hid other hother
        rcases (hmem id other).mp hother with hother | ⟨-, rfl⟩
        · exact List.mem_cons_of_mem _ (hmarked id hid other hother)
        · exact List.mem_cons_self
      · intro other hother
        rcases List.mem_cons.mp hother with rfl | hother
        · exact ⟨parent, hparent, (hmem parent other).mpr (.inr ⟨rfl, rfl⟩)⟩
        · obtain ⟨owner, howner, hold⟩ := hplaced other hother
          exact ⟨owner, howner, (hmem owner other).mpr (.inl hold)⟩

section View

open Placed

variable {heap other : Heap} {scaffold : Scaffold} {limit : Nat} {runs replaced : Nat → List NodeId}

theorem forest_append (heap : Heap) (depth : Nat) (left right : List NodeId) :
    heap.forest depth (left ++ right) = heap.forest depth left ++ heap.forest depth right := by
  cases depth with
  | zero => rfl
  | succ depth => exact List.flatMap_append

theorem forest_cons (heap : Heap) (depth : Nat) (id : NodeId) (rest : List NodeId) :
    heap.forest depth (id :: rest) = heap.forest depth [id] ++ heap.forest depth rest :=
  heap.forest_append depth [id] rest

theorem Holds.forest_eq_of_trees_eq {parent owner : Option NodeId} {placed copied : List Placed}
    (hplaced : heap.Holds parent placed) (hcopied : other.Holds owner copied)
    (htrees : trees copied = trees placed) (depth : Nat) :
    other.forest depth (roots copied) = heap.forest depth (roots placed) := by
  induction placed using forest_induction generalizing parent owner copied depth with
  | nil =>
      cases copied with
      | nil => cases depth <;> rfl
      | cons first rest => cases htrees
  | text node content rest ih =>
      cases copied with
      | nil => cases htrees
      | cons first others =>
          obtain ⟨hfirst, hrest⟩ := List.cons.inj htrees
          rw [roots_cons, roots_cons, forest_cons, forest_cons, ih hplaced.2 hcopied.2 hrest]
          cases first with
          | element => cases hfirst
          | text copy held =>
              cases hfirst
              rw [holds_text_cons] at hplaced hcopied
              cases depth with
              | zero => rfl
              | succ depth => simp [forest, root, kind, hplaced.1, hcopied.1]
  | element node tag attributes children rest ihChildren ih =>
      cases copied with
      | nil => cases htrees
      | cons first others =>
          obtain ⟨hfirst, hrest⟩ := List.cons.inj htrees
          rw [roots_cons, roots_cons, forest_cons, forest_cons, ih hplaced.2 hcopied.2 hrest]
          cases first with
          | text => cases hfirst
          | element copy copiedTag held below =>
              obtain ⟨rfl, rfl, hchildren⟩ : copiedTag = tag ∧ held = attributes ∧
                  trees below = trees children := by
                simpa [tree] using hfirst
              rw [holds_element_cons] at hplaced hcopied
              cases depth with
              | zero => rfl
              | succ depth =>
                  have hbelow := ihChildren hplaced.1.2 hcopied.1.2 hchildren depth
                  simp [forest, root, kind, Heap.children, hplaced.1.1, hcopied.1.1, hbelow]

/-- What stands in the place of a run are trees of nodes that are younger than the scaffold. -/
def ShowsRun (heap : Heap) (limit : Nat) (run : List NodeId) (forest : Forest) : Prop :=
  ∃ parent placed, parent < limit ∧ heap.Holds (some parent) placed ∧ roots placed = run ∧
    (∀ id ∈ nodes placed, limit ≤ id) ∧ trees placed = forest

/-- On one scaffold nodes look alike if they are of the same kinds and the runs show the same. -/
theorem Carries.forest_eq (hheap : heap.Carries scaffold limit runs)
    (hother : other.Carries scaffold limit replaced)
    (hkinds : ∀ id < limit, other.kind id = heap.kind id)
    (hruns : ∀ id < limit, ∀ index, .run index ∈ scaffold id → ∃ forest,
      heap.ShowsRun limit (runs index) forest ∧ other.ShowsRun limit (replaced index) forest)
    (depth : Nat) {pieces : List Piece} (hnodes : ∀ id, .node id ∈ pieces → id < limit)
    (hmarked : ∀ index, .run index ∈ pieces → ∃ id < limit, .run index ∈ scaffold id) :
    other.forest depth (spread replaced pieces) = heap.forest depth (spread runs pieces) := by
  induction depth generalizing pieces with
  | zero => rfl
  | succ depth ih =>
      induction pieces with
      | nil => rfl
      | cons piece rest ihRest =>
          have hrest := ihRest (fun id hid => hnodes id (List.mem_cons_of_mem _ hid))
            fun index hindex => hmarked index (List.mem_cons_of_mem _ hindex)
          rw [spread_cons, spread_cons, forest_append, forest_append, hrest]
          congr 1
          cases piece with
          | node id =>
              have hid := hnodes id List.mem_cons_self
              have hbelow := ih (hheap.old id hid) fun index hindex => ⟨id, hid, hindex⟩
              rw [← hheap.children_eq id hid, ← hother.children_eq id hid] at hbelow
              simp only [Piece.ids, forest, List.flatMap_singleton, hkinds id hid, hbelow]
          | run index =>
              obtain ⟨owner, howner, hindex⟩ := hmarked index List.mem_cons_self
              obtain ⟨_, ⟨_, placed, _, hplaced, hrun, _, htrees⟩,
                ⟨_, copied, _, hcopied, hreplaced, _, hsame⟩⟩ := hruns owner howner index hindex
              rw [Piece.ids, Piece.ids, ← hrun, ← hreplaced]
              exact hplaced.forest_eq_of_trees_eq hcopied (hsame.trans htrees.symm) (depth + 1)

theorem Carries.html_eq (hheap : heap.Carries scaffold limit runs)
    (hother : other.Carries scaffold limit replaced)
    (hkinds : ∀ id < limit, other.kind id = heap.kind id)
    (hruns : ∀ id < limit, ∀ index, .run index ∈ scaffold id → ∃ forest,
      heap.ShowsRun limit (runs index) forest ∧ other.ShowsRun limit (replaced index) forest)
    {id : NodeId} (hid : id < limit) :
    other.outerHtml id = heap.outerHtml id ∧ other.innerHtml id = heap.innerHtml id := by
  let depth := max heap.size other.size
  have hsame {pieces : List Piece} (hnodes : ∀ id, .node id ∈ pieces → id < limit)
      (hmarked : ∀ index, .run index ∈ pieces → ∃ id < limit, .run index ∈ scaffold id)
      (hheapIds : ∀ id ∈ spread runs pieces, id < heap.size)
      (hotherIds : ∀ id ∈ spread replaced pieces, id < other.size) :
      other.forest other.size (spread replaced pieces) =
        heap.forest heap.size (spread runs pieces) := by
    rw [← hother.acyclic.forest_of_size_le hother.linked hotherIds (Nat.le_max_right heap.size _),
      ← hheap.acyclic.forest_of_size_le hheap.linked hheapIds (Nat.le_max_left _ other.size)]
    exact hheap.forest_eq hother hkinds hruns _ hnodes hmarked
  have houter : other.outerForest id = heap.outerForest id := by
    change other.forest other.size (spread replaced [.node id]) =
      heap.forest heap.size (spread runs [.node id])
    refine hsame (by simpa using hid) (by simp) ?_ ?_
    · simpa [Piece.ids] using Nat.lt_of_lt_of_le hid hheap.limit_le
    · simpa [Piece.ids] using Nat.lt_of_lt_of_le hid hother.limit_le
  have hinner : other.innerForest id = heap.innerForest id := by
    rw [innerForest, innerForest, hheap.children_eq id hid, hother.children_eq id hid]
    refine hsame (hheap.old id hid) (fun index hindex => ⟨id, hid, hindex⟩) ?_ ?_
    · rw [← hheap.children_eq id hid]
      exact fun child => hheap.linked.child_lt_size
    · rw [← hother.children_eq id hid]
      exact fun child => hother.linked.child_lt_size
  have htag : other.tag? id = heap.tag? id := by rw [tag?, tag?, hkinds id hid]
  exact ⟨by rw [outerHtml, outerHtml, houter], by rw [innerHtml, innerHtml, hinner, htag]⟩

end View

end Heap

end MustacheHtml.Document
