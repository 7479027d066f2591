import MustacheHtml.Proofs.Document.Growth

/-!
Revision in place: neighbouring children of a node are replaced by others, wherever in the
document they lie, and all that lies elsewhere stays.
-/

namespace MustacheHtml.Document

section Lists

variable {before behind block : List NodeId} {id : NodeId}

theorem dropWhile_ne_append (hid : id ∉ before) :
    (before ++ id :: behind).dropWhile (· != id) = id :: behind := by
  rw [List.dropWhile_append_of_pos, List.dropWhile_cons_of_neg (by simp)]
  intro other hother
  simpa using ne_of_mem_of_not_mem hother hid

theorem takeWhile_ne_append (hid : id ∉ before) :
    (before ++ id :: behind).takeWhile (· != id) = before := by
  rw [List.takeWhile_append_of_pos, List.takeWhile_cons_of_neg (by simp), List.append_nil]
  intro other hother
  simpa using ne_of_mem_of_not_mem hother hid

theorem nextAfter?_append (hid : id ∉ before) :
    nextAfter? id (before ++ id :: behind) = behind.head? := by
  rw [nextAfter?, dropWhile_ne_append hid, List.getElem?_cons_succ, List.head?_eq_getElem?]

theorem insertBlock_head? (hnodup : (before ++ behind).Nodup) :
    insertBlock block behind.head? (before ++ behind) = before ++ block ++ behind := by
  cases behind with
  | nil => simp [insertBlock]
  | cons mark others =>
      have hmark : mark ∉ before := fun hmem =>
        (List.nodup_append'.mp hnodup).2.2 hmem List.mem_cons_self
      simp only [List.head?_cons, insertBlock, takeWhile_ne_append hmark,
        dropWhile_ne_append hmark]

theorem filter_ne_append (hnodup : (before ++ id :: behind).Nodup) :
    (before ++ id :: behind).filter (· != id) = before ++ behind := by
  obtain ⟨-, hbehind, hdisjoint⟩ := List.nodup_append'.mp hnodup
  rw [List.filter_append, List.filter_cons_of_neg (by simp), List.filter_eq_self.mpr,
    List.filter_eq_self.mpr]
  · intro other hother
    simpa using ne_of_mem_of_not_mem hother (List.nodup_cons.mp hbehind).1
  · intro other hother
    have hne : other ≠ id := by
      rintro rfl
      exact hdisjoint hother List.mem_cons_self
    simpa using hne

end Lists

namespace Heap

open Placed

theorem nextSibling?_last {heap : Heap} {parent last : NodeId} {before run behind : List NodeId}
    (hchildren : heap.children parent = before ++ run ++ behind)
    (hnodup : (before ++ run ++ behind).Nodup) (hlink : heap.parent? last = some parent)
    (hlast : run.getLast? = some last) : heap.nextSibling? last = behind.head? := by
  obtain ⟨front, rfl⟩ := List.getLast?_eq_some_iff.mp hlast
  have hsplit : before ++ (front ++ [last]) ++ behind = (before ++ front) ++ last :: behind := by
    simp
  have hapart : last ∉ before ++ front := by
    intro hfound
    rw [hsplit] at hnodup
    exact (List.nodup_append'.mp hnodup).2.2 hfound List.mem_cons_self
  rw [nextSibling?, hlink, Option.bind_some, hchildren, hsplit, nextAfter?_append hapart]

/-- The nodes have been taken out of their parent, which has the given children left. -/
structure Unlinks (heap after : Heap) (parent : NodeId) (run left : List NodeId) : Prop where
  size_eq : after.size = heap.size
  cell_parent : after.cell parent = { heap.cell parent with children := left }
  cell_run : ∀ id ∈ run, after.cell id = { heap.cell id with parent := none }
  cell_old : ∀ id, id ≠ parent → id ∉ run → after.cell id = heap.cell id

section Unlinks

variable {heap middle after : Heap} {parent id : NodeId} {before behind run left : List NodeId}

theorem Unlinks.trans {others kept : List NodeId} (hparent : parent ∉ id :: others)
    (hnot : id ∉ others) (hfirst : Unlinks heap middle parent [id] kept)
    (hrest : Unlinks middle after parent others left) :
    Unlinks heap after parent (id :: others) left where
  size_eq := hrest.size_eq.trans hfirst.size_eq
  cell_parent := by rw [hrest.cell_parent, hfirst.cell_parent]
  cell_run := by
    intro other hother
    have hne : other ≠ parent := ne_of_mem_of_not_mem hother hparent
    rcases List.mem_cons.mp hother with rfl | hmem
    · rw [hrest.cell_old other hne hnot, hfirst.cell_run other List.mem_cons_self]
    · have hother : other ≠ id := ne_of_mem_of_not_mem hmem hnot
      rw [hrest.cell_run other hmem, hfirst.cell_old other hne (by simpa using hother)]
  cell_old := by
    intro other hne hother
    rw [List.mem_cons, not_or] at hother
    rw [hrest.cell_old other hne hother.2,
      hfirst.cell_old other hne (by simpa using hother.1)]

end Unlinks

/-- Siblings stand side by side, with the rest of the children of their parent around them. -/
structure Row (heap : Heap) (parent : NodeId) (before run behind : List NodeId) : Prop where
  parent_bound : parent < heap.size
  children : heap.children parent = before ++ run ++ behind
  siblings : (before ++ run ++ behind).Nodup
  apart : parent ∉ run
  parent?_eq : ∀ id ∈ run, heap.parent? id = some parent
  bound : ∀ id ∈ run, id < heap.size

section Row

variable {heap after : Heap} {parent id : NodeId} {before run behind : List NodeId}

theorem Row.older (hrow : heap.Row parent before run behind) (hsize : heap.size ≤ after.size)
    (hcells : ∀ id < heap.size, after.cell id = heap.cell id) :
    after.Row parent before run behind where
  parent_bound := Nat.lt_of_lt_of_le hrow.parent_bound hsize
  children := by
    rw [Heap.children, hcells parent hrow.parent_bound]
    exact hrow.children
  siblings := hrow.siblings
  apart := hrow.apart
  parent?_eq := by
    intro id hid
    rw [parent?, hcells id (hrow.bound id hid)]
    exact hrow.parent?_eq id hid
  bound := fun id hid => Nat.lt_of_lt_of_le (hrow.bound id hid) hsize

theorem Row.nextSibling?_last {last : NodeId} (hrow : heap.Row parent before run behind)
    (hlast : run.getLast? = some last) : heap.nextSibling? last = behind.head? :=
  Heap.nextSibling?_last hrow.children hrow.siblings
    (hrow.parent?_eq last (List.mem_of_getLast? hlast)) hlast

theorem Row.split (hrow : heap.Row parent before (id :: run) behind) :
    heap.children parent = before ++ id :: (run ++ behind) ∧
      (before ++ id :: (run ++ behind)).Nodup := by
  have hsplit : before ++ id :: run ++ behind = before ++ id :: (run ++ behind) := by simp
  exact ⟨hrow.children.trans hsplit, hsplit ▸ hrow.siblings⟩

theorem Row.not_mem (hrow : heap.Row parent before (id :: run) behind) : id ∉ run := by
  obtain ⟨-, htail, -⟩ := List.nodup_append'.mp hrow.split.2
  exact fun hmem => (List.nodup_cons.mp htail).1 (List.mem_append_left behind hmem)

theorem Row.nextSibling?_first (hrow : heap.Row parent before (id :: run) behind) :
    heap.nextSibling? id = (run ++ behind).head? := by
  obtain ⟨hchildren, hnodup⟩ := hrow.split
  have hbefore : id ∉ before := fun hmem =>
    (List.nodup_append'.mp hnodup).2.2 hmem List.mem_cons_self
  rw [nextSibling?, hrow.parent?_eq id List.mem_cons_self, Option.bind_some, hchildren,
    nextAfter?_append hbefore]

theorem Row.remove_first (hrow : heap.Row parent before (id :: run) behind) :
    Unlinks heap (heap.remove parent id) parent [id] (before ++ (run ++ behind)) := by
  obtain ⟨hchildren, hnodup⟩ := hrow.split
  have hlink := hrow.parent?_eq id List.mem_cons_self
  have hne : id ≠ parent := ne_of_mem_of_not_mem List.mem_cons_self hrow.apart
  have hbound := hrow.bound id List.mem_cons_self
  have hremove : heap.remove parent id =
      (heap.setChildren parent (before ++ (run ++ behind))).setParent id none := by
    rw [remove, if_pos hlink, detach, hlink]
    simp only [hchildren, filter_ne_append hnodup]
  rw [hremove]
  constructor
  case size_eq => simp
  case cell_parent =>
    rw [cell_setParent_of_ne _ hne.symm, cell_setChildren_self _ hrow.parent_bound]
  case cell_run =>
    intro other hother
    rw [List.mem_singleton.mp hother, cell_setParent_self _ (by simpa using hbound),
      cell_setChildren_of_ne _ hne]
  case cell_old =>
    intro other hother hnot
    rw [cell_setParent_of_ne _ (by simpa using hnot), cell_setChildren_of_ne _ hother]

theorem Row.rest (hrow : heap.Row parent before (id :: run) behind)
    (hunlinks : Unlinks heap after parent [id] (before ++ (run ++ behind))) :
    after.Row parent before run behind where
  parent_bound := by
    rw [hunlinks.size_eq]
    exact hrow.parent_bound
  children := by rw [Heap.children, hunlinks.cell_parent, List.append_assoc]
  siblings := by
    refine hrow.siblings.sublist ?_
    exact ((List.Sublist.refl before).append (List.sublist_cons_self id run)).append
      (List.Sublist.refl behind)
  apart := fun hmem => hrow.apart (List.mem_cons_of_mem id hmem)
  parent?_eq := by
    intro other hother
    have hmem := List.mem_cons_of_mem id hother
    have hparent : other ≠ parent := ne_of_mem_of_not_mem hmem hrow.apart
    have hne : other ≠ id := ne_of_mem_of_not_mem hother hrow.not_mem
    rw [parent?, hunlinks.cell_old other hparent (by simpa using hne)]
    exact hrow.parent?_eq other hmem
  bound := by
    intro other hother
    rw [hunlinks.size_eq]
    exact hrow.bound other (List.mem_cons_of_mem id hother)

end Row

/-- Where the trees lie in the document: as neighbouring children of a node, between the siblings
before and behind them. -/
structure Lies (heap : Heap) (parent : NodeId) (before behind : List NodeId)
    (placed : List Placed) : Prop where
  parent_bound : parent < heap.size
  children : heap.children parent = before ++ roots placed ++ behind
  siblings : (before ++ roots placed ++ behind).Nodup
  holds : heap.Holds (some parent) placed
  nodup : (parent :: nodes placed).Nodup
  bound : ∀ id ∈ nodes placed, id < heap.size

/-- The trees have been replaced where they lie. The new ones are kept at nodes of the old ones or
at new nodes, and no other node but the parent has changed. -/
structure Revises (heap after : Heap) (parent : NodeId) (before behind : List NodeId)
    (old new : List Placed) : Prop where
  size_le : heap.size ≤ after.size
  cell_parent : after.cell parent =
    { heap.cell parent with children := before ++ roots new ++ behind }
  cell_old : ∀ id < heap.size, id ≠ parent → id ∉ nodes old → after.cell id = heap.cell id
  holds : after.Holds (some parent) new
  origin : ∀ id ∈ nodes new, id ∈ nodes old ∨ heap.size ≤ id
  bound : ∀ id ∈ nodes new, id < after.size
  nodup : (nodes new).Nodup

section Revision

variable {heap after : Heap} {parent : NodeId} {before behind : List NodeId}
  {old new left right : List Placed}

theorem Lies.cell_parent_eq (hlies : heap.Lies parent before behind old)
    (hroots : roots new = roots old) : heap.cell parent =
      { heap.cell parent with children := before ++ roots new ++ behind } := by
  rw [hroots, ← hlies.children, Heap.children]

theorem Lies.row (hlies : heap.Lies parent before behind old) :
    heap.Row parent before (roots old) behind where
  parent_bound := hlies.parent_bound
  children := hlies.children
  siblings := hlies.siblings
  apart := fun hmem => (List.nodup_cons.mp hlies.nodup).1 (roots_subset_nodes old hmem)
  parent?_eq := hlies.holds.parent?_eq
  bound := fun id hid => hlies.bound id (roots_subset_nodes old hid)

theorem Stands.lies {kind : Kind} {placed : List Placed} (hstands : Stands heap after kind placed) :
    after.Lies heap.size [] [] placed where
  parent_bound := hstands.size_lt
  children := by
    rw [Heap.children, hstands.cell_new, List.nil_append, List.append_nil]
  siblings := by simpa using roots_nodup hstands.nodup
  holds := hstands.holds
  nodup := hstands.nodup_cons
  bound := hstands.bound

theorem Lies.within (hlies : heap.Lies parent before behind (left ++ old ++ right)) :
    heap.Lies parent (before ++ roots left) (roots right ++ behind) old where
  parent_bound := hlies.parent_bound
  children := by
    rw [hlies.children]
    simp
  siblings := by simpa using hlies.siblings
  holds := (holds_append.mp (holds_append.mp hlies.holds).1).2
  nodup := by
    obtain ⟨hparent, hnodup⟩ := List.nodup_cons.mp hlies.nodup
    rw [nodes_append, nodes_append] at hparent hnodup
    obtain ⟨-, hold, -⟩ := List.nodup_append'.mp (List.nodup_append'.mp hnodup).1
    exact List.nodup_cons.mpr ⟨fun hmem => hparent (by simp [hmem]), hold⟩
  bound := fun id hid => hlies.bound id (by simp [hid])

theorem Lies.beside {id : NodeId} (hlies : heap.Lies parent before behind (left ++ old ++ right))
    (hid : id ∈ nodes (left ++ right)) : id < heap.size ∧ id ≠ parent ∧ id ∉ nodes old := by
  obtain ⟨hparent, hnodup⟩ := List.nodup_cons.mp hlies.nodup
  rw [nodes_append, nodes_append] at hnodup
  obtain ⟨hfront, -, hapartRight⟩ := List.nodup_append'.mp hnodup
  obtain ⟨-, -, hapart⟩ := List.nodup_append'.mp hfront
  rw [nodes_append, List.mem_append] at hid
  have hmem : id ∈ nodes (left ++ old ++ right) := by rcases hid with hid | hid <;> simp [hid]
  refine ⟨hlies.bound id hmem, ne_of_mem_of_not_mem hmem hparent, fun hold => ?_⟩
  rcases hid with hid | hid
  · exact hapart hid hold
  · exact hapartRight (List.mem_append_right _ hold) hid

/-- A revision leaves the trees beside it as they are. -/
theorem Revises.beside {id : NodeId} (hlies : heap.Lies parent before behind (left ++ old ++ right))
    (hrevises : heap.Revises after parent (before ++ roots left) (roots right ++ behind) old new)
    (hid : id ∈ nodes (left ++ right)) :
    after.cell id = heap.cell id ∧ id < after.size ∧ id ∉ nodes new := by
  obtain ⟨hbound, hne, hnot⟩ := hlies.beside hid
  refine ⟨hrevises.cell_old id hbound hne hnot, Nat.lt_of_lt_of_le hbound hrevises.size_le,
    fun hnew => ?_⟩
  rcases hrevises.origin id hnew with hold | hlate
  · exact hnot hold
  · exact absurd hbound (Nat.not_lt.mpr hlate)

theorem Lies.revises_within (hlies : heap.Lies parent before behind (left ++ old ++ right))
    (hrevises : heap.Revises after parent (before ++ roots left) (roots right ++ behind) old new) :
    heap.Revises after parent before behind (left ++ old ++ right) (left ++ new ++ right) := by
  have hbeside : ∀ id, id ∈ nodes left ∨ id ∈ nodes right →
      after.cell id = heap.cell id ∧ id < after.size ∧ id ∉ nodes new := by
    intro id hid
    rw [← List.mem_append, ← nodes_append] at hid
    exact hrevises.beside hlies hid
  obtain ⟨⟨hholdsLeft, -⟩, hholdsRight⟩ :
      (heap.Holds (some parent) left ∧ heap.Holds (some parent) old) ∧
        heap.Holds (some parent) right := by
    simpa only [holds_append] using hlies.holds
  constructor
  case size_le => exact hrevises.size_le
  case cell_parent =>
    rw [hrevises.cell_parent]
    simp
  case cell_old =>
    intro id hid hne hnot
    refine hrevises.cell_old id hid hne fun hmem => hnot ?_
    simp [hmem]
  case holds =>
    refine holds_append.mpr ⟨holds_append.mpr ⟨?_, hrevises.holds⟩, ?_⟩
    · exact hholdsLeft.congr fun id hid => (hbeside id (.inl hid)).1
    · exact hholdsRight.congr fun id hid => (hbeside id (.inr hid)).1
  case origin =>
    intro id hid
    simp only [nodes_append, List.mem_append] at hid ⊢
    rcases hid with (hid | hid) | hid
    · exact .inl (.inl (.inl hid))
    · exact (hrevises.origin id hid).imp_left fun hold => .inl (.inr hold)
    · exact .inl (.inr hid)
  case bound =>
    intro id hid
    simp only [nodes_append, List.mem_append] at hid
    rcases hid with (hid | hid) | hid
    · exact (hbeside id (.inl hid)).2.1
    · exact hrevises.bound id hid
    · exact (hbeside id (.inr hid)).2.1
  case nodup =>
    have hnodup := (List.nodup_cons.mp hlies.nodup).2
    rw [nodes_append, nodes_append] at hnodup ⊢
    obtain ⟨hfront, hnodupRight, hapart⟩ := List.nodup_append'.mp hnodup
    have hnodupLeft := (List.nodup_append'.mp hfront).1
    refine List.nodup_append'.mpr ⟨List.nodup_append'.mpr ⟨hnodupLeft, hrevises.nodup, ?_⟩,
      hnodupRight, ?_⟩
    · exact fun id hid => (hbeside id (.inl hid)).2.2
    · intro id hid hmem
      rcases List.mem_append.mp hid with hid | hid
      · exact hapart (List.mem_append_left _ hid) hmem
      · exact (hbeside id (.inr hmem)).2.2 hid

theorem Lies.front (hlies : heap.Lies parent before behind (old ++ right)) :
    heap.Lies parent before (roots right ++ behind) old := by
  have hall : heap.Lies parent before behind ([] ++ old ++ right) := hlies
  simpa using hall.within

theorem Lies.rest (hlies : heap.Lies parent before behind (left ++ old)) :
    heap.Lies parent (before ++ roots left) behind old := by
  have hall : heap.Lies parent before behind (left ++ old ++ []) := by simpa using hlies
  simpa using hall.within

theorem Revises.front (hlies : heap.Lies parent before behind (old ++ right))
    (hrevises : heap.Revises after parent before (roots right ++ behind) old new) :
    heap.Revises after parent before behind (old ++ right) (new ++ right) := by
  have hall : heap.Lies parent before behind ([] ++ old ++ right) := hlies
  exact hall.revises_within (by simpa using hrevises)

theorem Revises.rest (hlies : heap.Lies parent before behind (left ++ old))
    (hrevises : heap.Revises after parent (before ++ roots left) behind old new) :
    heap.Revises after parent before behind (left ++ old) (left ++ new) := by
  have hall : heap.Lies parent before behind (left ++ old ++ []) := by simpa using hlies
  simpa using hall.revises_within (by simpa using hrevises)

theorem Revises.lies (hlies : heap.Lies parent [] [] old)
    (hrevises : heap.Revises after parent [] [] old new) : after.Lies parent [] [] new where
  parent_bound := Nat.lt_of_lt_of_le hlies.parent_bound hrevises.size_le
  children := by rw [Heap.children, hrevises.cell_parent]
  siblings := by simpa using roots_nodup hrevises.nodup
  holds := hrevises.holds
  nodup := by
    refine List.nodup_cons.mpr ⟨?_, hrevises.nodup⟩
    intro hmem
    rcases hrevises.origin parent hmem with hold | hnew
    · exact (List.nodup_cons.mp hlies.nodup).1 hold
    · exact absurd hlies.parent_bound (Nat.not_lt.mpr hnew)
  bound := hrevises.bound

theorem Lies.revises_cell {node : NodeId} (hlies : heap.Lies parent before behind old)
    (hsize : after.size = heap.size) (hframe : ∀ id, id ≠ node → after.cell id = heap.cell id)
    (hnode : node ∈ nodes old) (hroots : roots new = roots old) (hnodes : nodes new = nodes old)
    (hholds : after.Holds (some parent) new) :
    heap.Revises after parent before behind old new := by
  obtain ⟨hparent, hnodup⟩ := List.nodup_cons.mp hlies.nodup
  constructor
  case size_le => exact hsize.ge
  case cell_parent =>
    rw [hframe parent (ne_of_mem_of_not_mem hnode hparent).symm]
    exact hlies.cell_parent_eq hroots
  case cell_old =>
    intro id _ _ hnot
    exact hframe id (ne_of_mem_of_not_mem hnode hnot).symm
  case holds => exact hholds
  case origin => exact fun id hid => .inl (hnodes ▸ hid)
  case bound =>
    intro id hid
    rw [hsize]
    exact hlies.bound id (hnodes ▸ hid)
  case nodup => exact hnodes ▸ hnodup

section Element

variable {node : NodeId} {tag : String} {attributes : Attributes} {children : List Placed}

theorem Lies.element
    (hlies : heap.Lies parent before behind [.element node tag attributes children]) :
    heap.cell node = ⟨.element tag attributes, some parent, roots children⟩ ∧
      heap.Lies node [] [] children := by
  obtain ⟨⟨hcell, hholds⟩, -⟩ := holds_element_cons.mp hlies.holds
  have hnodup := (List.nodup_cons.mp hlies.nodup).2
  rw [nodes_element] at hnodup
  refine ⟨hcell, ?_⟩
  constructor
  case parent_bound => exact hlies.bound node (by simp)
  case children => rw [Heap.children, hcell, List.nil_append, List.append_nil]
  case siblings =>
    rw [List.nil_append, List.append_nil]
    exact roots_nodup (List.nodup_cons.mp hnodup).2
  case holds => exact hholds
  case nodup => exact hnodup
  case bound => exact fun id hid => hlies.bound id (by simp [hid])

theorem Revises.below
    (hlies : heap.Lies parent before behind [.element node tag attributes old])
    (hrevises : heap.Revises after node [] [] old new) :
    heap.Revises after parent before behind [.element node tag attributes old]
      [.element node tag attributes new] := by
  obtain ⟨hcell, hbelow⟩ := hlies.element
  obtain ⟨hparent, -⟩ := List.nodup_cons.mp hlies.nodup
  rw [nodes_element, List.mem_cons, not_or] at hparent
  constructor
  case size_le => exact hrevises.size_le
  case cell_parent =>
    rw [hrevises.cell_old parent hlies.parent_bound hparent.1 hparent.2]
    exact hlies.cell_parent_eq rfl
  case cell_old =>
    intro id hid hne hnot
    rw [nodes_element, List.mem_cons, not_or] at hnot
    exact hrevises.cell_old id hid hnot.1 hnot.2
  case holds =>
    refine holds_element_cons.mpr ⟨⟨?_, hrevises.holds⟩, trivial⟩
    rw [hrevises.cell_parent, hcell, List.nil_append, List.append_nil]
  case origin =>
    intro id hid
    rw [nodes_element, List.mem_cons] at hid ⊢
    rcases hid with rfl | hid
    · exact .inl (.inl rfl)
    · exact (hrevises.origin id hid).imp_left .inr
  case bound =>
    intro id hid
    rw [nodes_element, List.mem_cons] at hid
    rcases hid with rfl | hid
    · exact Nat.lt_of_lt_of_le hbelow.parent_bound hrevises.size_le
    · exact hrevises.bound id hid
  case nodup =>
    rw [nodes_element]
    refine List.nodup_cons.mpr ⟨?_, hrevises.nodup⟩
    intro hmem
    rcases hrevises.origin node hmem with hold | hnew
    · exact (List.nodup_cons.mp hbelow.nodup).1 hold
    · exact absurd hbelow.parent_bound (Nat.not_lt.mpr hnew)

theorem Lies.setAttribute
    (hlies : heap.Lies parent before behind [.element node tag attributes children])
    (name value : String) : heap.Revises (heap.setAttribute node name value) parent before behind
      [.element node tag attributes children]
      [.element node tag (attributes.set name value) children] := by
  obtain ⟨hcell, hbelow⟩ := hlies.element
  have hframe : ∀ id, id ≠ node → (heap.setAttribute node name value).cell id = heap.cell id :=
    fun id hne => cell_setAttribute_of_ne name value hne
  refine hlies.revises_cell (size_setAttribute heap node name value) hframe (by simp) rfl rfl ?_
  refine holds_element_cons.mpr ⟨⟨?_, ?_⟩, trivial⟩
  · exact cell_setAttribute_self _ _ hbelow.parent_bound hcell
  · refine hbelow.holds.congr fun id hid => hframe id ?_
    exact ne_of_mem_of_not_mem hid (List.nodup_cons.mp hbelow.nodup).1

end Element

theorem Lies.setText {node : NodeId} {content : String}
    (hlies : heap.Lies parent before behind [.text node content]) (value : String) :
    heap.Revises (heap.setText node value) parent before behind [.text node content]
      [.text node value] := by
  refine hlies.revises_cell (size_setText heap node value)
    (fun id hne => cell_setText_of_ne value hne) (by simp) rfl rfl ?_
  refine holds_text_cons.mpr ⟨?_, trivial⟩
  exact cell_setText_self _ (hlies.bound node (by simp)) (holds_text_cons.mp hlies.holds).1

/-- New trees take the place of old ones: they are made in a fragment of their own, the old ones
are taken out, and the fragment is inserted where those were. -/
theorem Lies.splice {made unlinked : Heap} (hlies : heap.Lies parent before behind old)
    (hstands : Stands heap made .fragment new)
    (hunlinks : Unlinks made unlinked parent (roots old) (before ++ behind)) :
    heap.Revises (unlinked.insert parent heap.size behind.head?) parent before behind old new := by
  have hroots : ∀ id ∈ roots old, id ≠ parent ∧ id < heap.size := fun id hid =>
    have hmem := roots_subset_nodes old hid
    ⟨ne_of_mem_of_not_mem hmem (List.nodup_cons.mp hlies.nodup).1, hlies.bound id hmem⟩
  have hnew : ∀ id, heap.size ≤ id → unlinked.cell id = made.cell id := fun id hid =>
    hunlinks.cell_old id (Nat.ne_of_gt (Nat.lt_of_lt_of_le hlies.parent_bound hid)) fun hmem =>
      absurd (hroots id hmem).2 (Nat.not_lt.mpr hid)
  have hsiblings : (before ++ behind).Nodup := by
    refine hlies.siblings.sublist ?_
    exact (List.sublist_append_left before (roots old)).append (List.Sublist.refl behind)
  have hparent : unlinked.children parent = before ++ behind := by
    rw [Heap.children, hunlinks.cell_parent]
  have hadopts : Adopts unlinked (unlinked.insert parent heap.size behind.head?) parent heap.size
      new (before ++ roots new ++ behind) := by
    rw [← insertBlock_head? hsiblings, ← hparent]
    exact hstands.insert_adopts hlies.parent_bound hunlinks.size_eq hnew _
  constructor
  case size_le =>
    rw [hadopts.size_eq, hunlinks.size_eq]
    exact Nat.le_of_lt hstands.size_lt
  case cell_parent =>
    rw [hadopts.cell_parent, hunlinks.cell_parent, hstands.cell_old parent hlies.parent_bound]
  case cell_old =>
    intro id hid hne hnot
    rw [hadopts.cell_old id hne (Nat.ne_of_lt hid) (hstands.not_mem_nodes hid),
      hunlinks.cell_old id hne fun hmem => hnot (roots_subset_nodes old hmem),
      hstands.cell_old id hid]
  case holds => exact hadopts.holds
  case origin => exact fun id hid => .inr (Nat.le_of_lt (hstands.fresh id hid))
  case bound =>
    intro id hid
    rw [hadopts.size_eq, hunlinks.size_eq]
    exact hstands.bound id hid
  case nodup => exact hstands.nodup

end Revision

end Heap

end MustacheHtml.Document
