import MustacheHtml.Proofs.Document.Names

namespace MustacheHtml.Document

theorem insertBlock_perm (block : List NodeId) (before : Option NodeId) (list : List NodeId) :
    (insertBlock block before list).Perm (block ++ list) := by
  cases before with
  | none => exact List.perm_append_comm
  | some mark =>
      have hsplit : block ++ list =
          block ++ list.takeWhile (· != mark) ++ list.dropWhile (· != mark) := by
        rw [List.append_assoc, List.takeWhile_append_dropWhile]
      rw [hsplit]
      exact List.perm_append_comm.append_right _

namespace Heap

section Fields

variable {heap : Heap} {id other : NodeId}

theorem parent?_of_size_le (hid : heap.size ≤ id) : heap.parent? id = none := by
  rw [parent?, cell_of_size_le hid]
  rfl

theorem children_of_size_le (hid : heap.size ≤ id) : heap.children id = [] := by
  rw [children, cell_of_size_le hid]
  rfl

@[simp] theorem parent?_create (kind : Kind) :
    (heap.create kind).2.parent? id = heap.parent? id :=
  field_create Cell.parent rfl

@[simp] theorem children_create (kind : Kind) :
    (heap.create kind).2.children id = heap.children id :=
  field_create Cell.children rfl

@[simp] theorem parent?_setChildren (children : List NodeId) :
    (heap.setChildren id children).parent? other = heap.parent? other :=
  field_modify Cell.parent fun _ => rfl

theorem parent?_setParent_of_ne (parent : Option NodeId) (hne : other ≠ id) :
    (heap.setParent id parent).parent? other = heap.parent? other := by
  rw [parent?, cell_setParent_of_ne _ hne, parent?]

theorem parent?_setParent_none : (heap.setParent id none).parent? id = none := by
  by_cases hbound : id < heap.size
  · rw [parent?, cell_setParent_self _ hbound]
  · exact parent?_of_size_le (by simpa using hbound)

theorem children_setChildren_self (children : List NodeId) (hid : id < heap.size) :
    (heap.setChildren id children).children id = children := by
  rw [Heap.children, cell_setChildren_self _ hid]

theorem children_setChildren_of_ne (children : List NodeId) (hne : other ≠ id) :
    (heap.setChildren id children).children other = heap.children other := by
  rw [Heap.children, cell_setChildren_of_ne _ hne, Heap.children]

theorem parent?_adopt (parent : NodeId) {moved : List NodeId}
    (hmoved : ∀ child ∈ moved, child < heap.size) :
    (heap.adopt parent moved).parent? id =
      if id ∈ moved then some parent else heap.parent? id := by
  split
  · next hid => rw [parent?, cell_adopt_of_mem hid (hmoved id hid)]
  · next hid => rw [parent?, cell_adopt_of_not_mem hid, parent?]

theorem parent?_detach :
    (heap.detach id).parent? other = if other = id then none else heap.parent? other := by
  unfold detach
  split
  · next hlink =>
      split
      · next hsame => rw [hsame, hlink]
      · rfl
  · split
    · next hsame => rw [hsame, parent?_setParent_none]
    · next hne => rw [parent?_setParent_of_ne _ hne, parent?_setChildren]

@[simp] theorem parent?_setAttribute (name value : String) :
    (heap.setAttribute id name value).parent? other = heap.parent? other := by
  unfold setAttribute
  split
  · exact field_modify Cell.parent fun _ => rfl
  · rfl

@[simp] theorem children_setAttribute (name value : String) :
    (heap.setAttribute id name value).children other = heap.children other := by
  unfold setAttribute
  split
  · exact field_modify Cell.children fun _ => rfl
  · rfl

@[simp] theorem parent?_setText (content : String) :
    (heap.setText id content).parent? other = heap.parent? other := by
  unfold setText
  split
  · exact field_modify Cell.parent fun _ => rfl
  · rfl

@[simp] theorem children_setText (content : String) :
    (heap.setText id content).children other = heap.children other := by
  unfold setText
  split
  · exact field_modify Cell.children fun _ => rfl
  · rfl

theorem kind_modify_eq_fragment {change : Cell → Cell} (hid : heap.kind id ≠ .fragment)
    (hchange : ∀ cell, (change cell).kind ≠ .fragment) :
    (heap.modify id change).kind other = .fragment ↔ heap.kind other = .fragment := by
  by_cases hother : other = id
  · subst hother
    have hbound : other < heap.size := by
      by_contra hge
      exact hid (by rw [kind, cell_of_size_le (Nat.not_lt.mp hge), Cell.fresh])
    rw [kind, cell_modify_self _ hbound]
    exact iff_of_false (hchange _) hid
  · rw [kind, cell_modify_of_ne _ hother, kind]

theorem kind_setAttribute_eq_fragment (name value : String) :
    (heap.setAttribute id name value).kind other = .fragment ↔ heap.kind other = .fragment := by
  unfold setAttribute
  split
  · next tag attributes hkind =>
      exact kind_modify_eq_fragment (by simp [hkind]) fun _ => Kind.noConfusion
  · rfl

theorem kind_setText_eq_fragment (content : String) :
    (heap.setText id content).kind other = .fragment ↔ heap.kind other = .fragment := by
  unfold setText
  split
  · next old hkind =>
      exact kind_modify_eq_fragment (by simp [hkind]) fun _ => Kind.noConfusion
  · rfl

end Fields

/-- What moves when a node is inserted: the children of a fragment, any other node itself. -/
def moved (heap : Heap) (child : NodeId) : List NodeId :=
  if heap.isFragment child then heap.children child else [child]

@[simp] theorem size_detach (heap : Heap) (id : NodeId) : (heap.detach id).size = heap.size := by
  unfold detach
  split <;> simp

@[simp] theorem size_remove (heap : Heap) (parent child : NodeId) :
    (heap.remove parent child).size = heap.size := by
  unfold remove
  split <;> simp

@[simp] theorem size_takeOut (heap : Heap) (child : NodeId) :
    (heap.takeOut child).2.size = heap.size := by
  unfold takeOut
  split <;> simp

theorem parent?_takeOut {heap : Heap} {child id : NodeId} (hid : id ∉ heap.moved child) :
    (heap.takeOut child).2.parent? id = heap.parent? id := by
  unfold moved at hid
  unfold takeOut
  split
  · exact parent?_setChildren _
  · next hkind =>
      rw [if_neg hkind] at hid
      rw [parent?_detach, if_neg (by simpa using hid)]

theorem insert_eq {heap : Heap} {parent child : NodeId} (before : Option NodeId)
    (hne : parent ≠ child) :
    heap.insert parent child before =
      let adopted := (heap.takeOut child).2.adopt parent (heap.moved child)
      adopted.setChildren parent
        (insertBlock (heap.moved child) before (adopted.children parent)) := by
  have hmoved : (heap.takeOut child).1 = heap.moved child := by
    unfold takeOut moved
    split <;> rfl
  rw [← hmoved, insert, if_neg hne]
  rfl

@[simp] theorem size_insert (heap : Heap) (parent child : NodeId) (before : Option NodeId) :
    (heap.insert parent child before).size = heap.size := by
  by_cases hne : parent = child
  · rw [insert, if_pos hne]
  · simp [insert_eq before hne]

/-- All lists of children, one after the other. -/
def placements (heap : Heap) : List NodeId :=
  (List.range heap.size).flatMap heap.children

/-- A node is among the children of its parent and nowhere else, once; and fragments have no
parent. -/
structure Linked (heap : Heap) : Prop where
  parent_iff : ∀ parent child, heap.parent? child = some parent ↔ child ∈ heap.children parent
  nodup : ∀ id, (heap.children id).Nodup
  parentless : ∀ id, heap.kind id = .fragment → heap.parent? id = none

namespace Linked

variable {heap : Heap} {parent child id : NodeId}

theorem empty : Heap.empty.Linked where
  parent_iff := by
    intro parent child
    rw [parent?_of_size_le (Nat.zero_le child), children_of_size_le (Nat.zero_le parent)]
    simp
  nodup := by
    intro id
    rw [children_of_size_le (Nat.zero_le id)]
    exact List.nodup_nil
  parentless := fun id _ => parent?_of_size_le (Nat.zero_le id)

theorem child_lt_size (hlinked : heap.Linked) (hchild : child ∈ heap.children parent) :
    child < heap.size := by
  by_contra hge
  have hlink := (hlinked.parent_iff parent child).mpr hchild
  rw [parent?_of_size_le (Nat.not_lt.mp hge)] at hlink
  cases hlink

theorem parent_lt_size (hlinked : heap.Linked) (hlink : heap.parent? child = some parent) :
    parent < heap.size := by
  by_contra hge
  have hchild := (hlinked.parent_iff parent child).mp hlink
  rw [children_of_size_le (Nat.not_lt.mp hge)] at hchild
  exact List.not_mem_nil hchild

theorem kind_ne_fragment (hlinked : heap.Linked) (hchild : child ∈ heap.children parent) :
    heap.kind child ≠ .fragment := by
  intro hkind
  have hlink := (hlinked.parent_iff parent child).mpr hchild
  rw [hlinked.parentless child hkind] at hlink
  cases hlink

/-- The child lists of a document have no node in common. -/
theorem eq_of_mem (hlinked : heap.Linked) {left right : NodeId} (hleft : id ∈ heap.children left)
    (hright : id ∈ heap.children right) : left = right := by
  rw [← hlinked.parent_iff] at hleft hright
  exact Option.some.inj (hleft.symm.trans hright)

theorem placements_nodup (hlinked : heap.Linked) : heap.placements.Nodup := by
  refine List.nodup_flatMap.mpr ⟨fun id _ => hlinked.nodup id, ?_⟩
  refine List.Pairwise.imp ?_ (List.nodup_range (n := heap.size))
  intro left right hne id hleft hright
  exact hne (hlinked.eq_of_mem hleft hright)

theorem mem_placements (hlinked : heap.Linked) :
    id ∈ heap.placements ↔ ∃ parent, heap.parent? id = some parent := by
  rw [placements, List.mem_flatMap]
  constructor
  · rintro ⟨parent, -, hchild⟩
    exact ⟨parent, (hlinked.parent_iff parent id).mpr hchild⟩
  · rintro ⟨parent, hlink⟩
    exact ⟨parent, List.mem_range.mpr (hlinked.parent_lt_size hlink),
      (hlinked.parent_iff parent id).mp hlink⟩

theorem moved_nodup (hlinked : heap.Linked) : (heap.moved child).Nodup := by
  unfold moved
  split
  · exact hlinked.nodup child
  · exact List.nodup_singleton child

theorem moved_lt_size (hlinked : heap.Linked) (hchild : child < heap.size) :
    ∀ id ∈ heap.moved child, id < heap.size := by
  intro id hid
  unfold moved at hid
  split at hid
  · exact hlinked.child_lt_size hid
  · exact List.mem_singleton.mp hid ▸ hchild

theorem moved_ne_fragment (hlinked : heap.Linked) :
    ∀ id ∈ heap.moved child, heap.kind id ≠ .fragment := by
  intro id hid
  unfold moved at hid
  split at hid
  · exact hlinked.kind_ne_fragment hid
  · next hkind =>
      rw [List.mem_singleton.mp hid]
      simpa [isFragment] using hkind

section Detach

theorem children_detach (hlinked : heap.Linked) (other : NodeId) :
    (heap.detach id).children other = (heap.children other).filter (· ≠ id) := by
  have hkept : heap.parent? id ≠ some other →
      heap.children other = (heap.children other).filter (· ≠ id) := by
    intro hlink
    rw [ne_eq, hlinked.parent_iff] at hlink
    refine (List.filter_eq_self.mpr fun child hchild => ?_).symm
    simpa using ne_of_mem_of_not_mem hchild hlink
  unfold detach
  split
  · next hlink => exact hkept (by simp [hlink])
  · next parent hlink =>
      rw [children_setParent]
      by_cases hother : other = parent
      · subst hother
        rw [children_setChildren_self _ (hlinked.parent_lt_size hlink)]
        exact List.filter_congr fun child _ => by simp [bne, Bool.beq_eq_decide_eq]
      · rw [children_setChildren_of_ne _ hother]
        exact hkept (by simpa [hlink] using Ne.symm hother)

theorem detach (hlinked : heap.Linked) (id : NodeId) : (heap.detach id).Linked where
  parent_iff := by
    intro parent child
    rw [parent?_detach, hlinked.children_detach, List.mem_filter]
    by_cases hchild : child = id
    · simp [hchild]
    · simp [hchild, hlinked.parent_iff]
  nodup := by
    intro other
    rw [hlinked.children_detach]
    exact (hlinked.nodup other).filter _
  parentless := by
    intro other hkind
    rw [kind_detach] at hkind
    rw [parent?_detach, hlinked.parentless other hkind, ite_self]

theorem remove (hlinked : heap.Linked) (parent child : NodeId) :
    (heap.remove parent child).Linked := by
  unfold Heap.remove
  split
  · exact hlinked.detach child
  · exact hlinked

end Detach

section Insert

theorem children_takeOut (hlinked : heap.Linked) (hchild : child < heap.size) (id : NodeId) :
    (heap.takeOut child).2.children id =
      (heap.children id).filter (· ∉ heap.moved child) := by
  unfold takeOut moved
  split
  · by_cases hid : id = child
    · subst hid
      rw [children_setChildren_self _ hchild, List.filter_eq_nil_iff.mpr]
      intro other hother
      simpa using hother
    · rw [children_setChildren_of_ne _ hid]
      refine (List.filter_eq_self.mpr fun other hother => ?_).symm
      simpa using fun hmem => hid (hlinked.eq_of_mem hother hmem)
  · rw [hlinked.children_detach]
    exact List.filter_congr fun other _ => by simp

theorem parent?_insert (hlinked : heap.Linked) (before : Option NodeId) (hne : parent ≠ child)
    (hchild : child < heap.size) (id : NodeId) :
    (heap.insert parent child before).parent? id =
      if id ∈ heap.moved child then some parent else heap.parent? id := by
  have hbound : ∀ id ∈ heap.moved child, id < (heap.takeOut child).2.size := by
    rw [size_takeOut]
    exact hlinked.moved_lt_size hchild
  rw [insert_eq before hne, parent?_setChildren, parent?_adopt parent hbound]
  split
  · rfl
  · next hid => exact parent?_takeOut hid

/-- What is inserted is taken out of all lists of children, and stands as one block in that of the
new parent. -/
theorem children_insert (hlinked : heap.Linked) (before : Option NodeId) (hne : parent ≠ child)
    (hparent : parent < heap.size) (hchild : child < heap.size) (id : NodeId) :
    (heap.insert parent child before).children id =
      let left := (heap.children id).filter (· ∉ heap.moved child)
      if id = parent then insertBlock (heap.moved child) before left else left := by
  rw [insert_eq before hne]
  dsimp only
  rw [children_adopt, hlinked.children_takeOut hchild]
  split
  · next hid =>
      rw [hid, children_setChildren_self]
      simpa using hparent
  · next hid =>
      rw [children_setChildren_of_ne _ hid, children_adopt, hlinked.children_takeOut hchild]

theorem insert (hlinked : heap.Linked) (before : Option NodeId) (hparent : parent < heap.size)
    (hchild : child < heap.size) : (heap.insert parent child before).Linked := by
  by_cases hne : parent = child
  · rw [Heap.insert, if_pos hne]
    exact hlinked
  · constructor
    case parent_iff =>
      intro other id
      rw [hlinked.parent?_insert before hne hchild,
        hlinked.children_insert before hne hparent hchild]
      by_cases hid : id ∈ heap.moved child
      · by_cases hother : other = parent
        · simp [hid, hother, (insertBlock_perm _ before _).mem_iff]
        · simp [hid, hother, Ne.symm hother]
      · by_cases hother : other = parent
        · simp [hid, hother, (insertBlock_perm _ before _).mem_iff, hlinked.parent_iff]
        · simp [hid, hother, hlinked.parent_iff]
    case nodup =>
      intro id
      have hleft : ((heap.children id).filter (· ∉ heap.moved child)).Nodup :=
        (hlinked.nodup id).filter _
      rw [hlinked.children_insert before hne hparent hchild]
      dsimp only
      split
      · rw [(insertBlock_perm _ before _).nodup_iff]
        refine List.nodup_append'.mpr ⟨hlinked.moved_nodup, hleft, ?_⟩
        intro other hmoved hother
        simpa [hmoved] using (List.mem_filter.mp hother).2
      · exact hleft
    case parentless =>
      intro id hkind
      rw [kind_insert] at hkind
      rw [hlinked.parent?_insert before hne hchild, if_neg, hlinked.parentless id hkind]
      exact fun hmoved => hlinked.moved_ne_fragment id hmoved hkind

end Insert

theorem create (hlinked : heap.Linked) (kind : Kind) : (heap.create kind).2.Linked := by
  constructor
  case parent_iff =>
    intro parent child
    rw [parent?_create, children_create, hlinked.parent_iff]
  case nodup =>
    intro id
    rw [children_create]
    exact hlinked.nodup id
  case parentless =>
    intro id hkind
    rw [parent?_create]
    by_cases hid : id < heap.size
    · rw [Heap.kind, cell_create_of_lt _ _ hid] at hkind
      exact hlinked.parentless id hkind
    · exact parent?_of_size_le (Nat.not_lt.mp hid)

theorem setAttribute (hlinked : heap.Linked) (id : NodeId) (name value : String) :
    (heap.setAttribute id name value).Linked where
  parent_iff := by simpa using hlinked.parent_iff
  nodup := by simpa using hlinked.nodup
  parentless := by
    intro other hkind
    rw [parent?_setAttribute]
    exact hlinked.parentless other ((kind_setAttribute_eq_fragment name value).mp hkind)

theorem setText (hlinked : heap.Linked) (id : NodeId) (content : String) :
    (heap.setText id content).Linked where
  parent_iff := by simpa using hlinked.parent_iff
  nodup := by simpa using hlinked.nodup
  parentless := by
    intro other hkind
    rw [parent?_setText]
    exact hlinked.parentless other ((kind_setText_eq_fragment content).mp hkind)

end Linked

end Heap

end MustacheHtml.Document
