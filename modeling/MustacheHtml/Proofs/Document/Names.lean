import MustacheHtml.Document.View
import MustacheHtml.Proofs.Document.Cells
import MustacheHtml.Proofs.Tree
import MustacheHtml.Document.Copy

namespace MustacheHtml.Document.Heap

/-- No element has two attributes of one name. -/
def NamesDistinct (heap : Heap) : Prop :=
  ∀ id tag attributes, heap.kind id = .element tag attributes → attributes.Distinct

section Kinds

variable {heap : Heap} {id other : NodeId}

@[simp] theorem kind_setChildren (children : List NodeId) :
    (heap.setChildren id children).kind other = heap.kind other :=
  field_modify Cell.kind fun _ => rfl

@[simp] theorem kind_setParent (parent : Option NodeId) :
    (heap.setParent id parent).kind other = heap.kind other :=
  field_modify Cell.kind fun _ => rfl

@[simp] theorem kind_adopt (parent : NodeId) (moved : List NodeId) :
    (heap.adopt parent moved).kind other = heap.kind other := by
  induction moved generalizing heap with
  | nil => rfl
  | cons first rest ih => exact ih.trans (kind_setParent _)

@[simp] theorem kind_detach : (heap.detach id).kind other = heap.kind other := by
  unfold detach
  split <;> simp

@[simp] theorem kind_takeOut : (heap.takeOut id).2.kind other = heap.kind other := by
  unfold takeOut
  split <;> simp

@[simp] theorem kind_insert (parent child : NodeId) (before : Option NodeId) :
    (heap.insert parent child before).kind other = heap.kind other := by
  unfold insert
  split
  · rfl
  · exact (kind_setChildren _).trans ((kind_adopt _ _).trans kind_takeOut)

@[simp] theorem kind_remove (parent child : NodeId) :
    (heap.remove parent child).kind other = heap.kind other := by
  unfold remove
  split
  · exact kind_detach
  · rfl

end Kinds

namespace NamesDistinct

variable {heap after : Heap}

theorem of_kind_eq (hnames : heap.NamesDistinct) (hkind : ∀ id, after.kind id = heap.kind id) :
    after.NamesDistinct := by
  intro id tag attributes hid
  exact hnames id tag attributes ((hkind id).symm.trans hid)

theorem empty : Heap.empty.NamesDistinct := by
  intro id tag attributes hid
  rw [kind, cell_of_size_le (Nat.zero_le id)] at hid
  cases hid

theorem create (hnames : heap.NamesDistinct) {made : Kind}
    (hmade : ∀ tag attributes, made = .element tag attributes → attributes.Distinct) :
    (heap.create made).2.NamesDistinct := by
  intro id tag attributes hid
  rcases Nat.lt_trichotomy id heap.size with hlt | rfl | hgt
  · rw [kind, cell_create_of_lt _ _ hlt] at hid
    exact hnames id tag attributes hid
  · rw [kind, cell_create_self] at hid
    exact hmade tag attributes hid
  · rw [kind, cell_of_size_le (by rw [size_create]; exact hgt)] at hid
    cases hid

theorem setAttribute (hnames : heap.NamesDistinct) (id : NodeId) (name value : String) :
    (heap.setAttribute id name value).NamesDistinct := by
  unfold Heap.setAttribute
  split
  · next held old hold =>
      intro other tag attributes hother
      by_cases hsame : other = id
      · subst hsame
        have hbound : other < heap.size := by
          by_contra hge
          rw [kind, cell_of_size_le (Nat.not_lt.mp hge)] at hold
          cases hold
        rw [kind, cell_modify_self _ hbound] at hother
        cases hother
        exact (hnames other held old hold).set name value
      · rw [kind, cell_modify_of_ne _ hsame] at hother
        exact hnames other tag attributes hother
  · exact hnames

theorem setText (hnames : heap.NamesDistinct) (id : NodeId) (content : String) :
    (heap.setText id content).NamesDistinct := by
  unfold Heap.setText
  split
  · next old hold =>
      intro other tag attributes hother
      by_cases hsame : other = id
      · subst hsame
        by_cases hbound : other < heap.size
        · rw [kind, cell_modify_self _ hbound] at hother
          cases hother
        · rw [kind, cell_of_size_le (by simpa using hbound)] at hother
          cases hother
      · rw [kind, cell_modify_of_ne _ hsame] at hother
        exact hnames other tag attributes hother
  · exact hnames

theorem insert (hnames : heap.NamesDistinct) (parent child : NodeId) (before : Option NodeId) :
    (heap.insert parent child before).NamesDistinct :=
  hnames.of_kind_eq fun _ => kind_insert parent child before

theorem remove (hnames : heap.NamesDistinct) (parent child : NodeId) :
    (heap.remove parent child).NamesDistinct :=
  hnames.of_kind_eq fun _ => kind_remove parent child

theorem plantAll (hnames : heap.NamesDistinct) (parent : NodeId) (forest : Forest) :
    (heap.plantAll parent forest).NamesDistinct := by
  induction forest using Tree.forest_induction generalizing heap parent with
  | nil => exact hnames
  | text content rest ih =>
      exact ih ((hnames.create fun _ _ htext => Kind.noConfusion htext).insert _ _ _) parent
  | element tag attributes children rest ihChildren ih =>
      have hnamed : ∀ (attributes : Attributes) {heap : Heap} (id : NodeId), heap.NamesDistinct →
          (attributes.foldl (fun heap attr => heap.setAttribute id attr.1 attr.2)
            heap).NamesDistinct := by
        intro attributes
        induction attributes with
        | nil => exact fun _ hheap => hheap
        | cons attr others ih => exact fun id hheap => ih id (hheap.setAttribute id attr.1 attr.2)
      have hmade : (heap.create (.element tag [])).2.NamesDistinct := by
        apply hnames.create
        intro _ _ hkind
        cases hkind
        exact List.nodup_nil
      exact ih ((ihChildren (hnamed attributes _ hmade) _).insert _ _ _) parent

theorem parseFragment (hnames : heap.NamesDistinct) (markup : String) :
    (heap.parseFragment markup).2.NamesDistinct :=
  (hnames.create fun _ _ hkind => Kind.noConfusion hkind).plantAll _ _

theorem copy (hnames : heap.NamesDistinct) (depth : Nat) (id : NodeId) :
    (Heap.copy depth heap id).2.NamesDistinct := by
  induction depth generalizing heap id with
  | zero => exact hnames.create fun tag attributes => hnames id tag attributes
  | succ depth ih =>
      have hfold : ∀ (ids : List NodeId) {made : Heap} (root : NodeId), made.NamesDistinct →
          (ids.foldl (fun heap child => (Heap.copy depth heap child).2.append root
            (Heap.copy depth heap child).1) made).NamesDistinct := by
        intro ids
        induction ids with
        | nil => exact fun _ hmade => hmade
        | cons child others ihOthers =>
            exact fun root hmade => ihOthers root ((ih hmade child).insert _ _ _)
      exact hfold _ _ (hnames.create fun tag attributes => hnames id tag attributes)

theorem allDistinct_forest (hnames : heap.NamesDistinct) (depth : Nat) (ids : List NodeId) :
    Tree.AllDistinct (heap.forest depth ids) := by
  induction depth generalizing ids with
  | zero => trivial
  | succ depth ih =>
      rw [Tree.allDistinct_iff]
      intro tree htree
      obtain ⟨id, -, hid⟩ := List.mem_flatMap.mp htree
      cases hkind : heap.kind id with
      | text content =>
          simp only [hkind, List.mem_singleton] at hid
          rw [hid]
          trivial
      | element tag attributes =>
          simp only [hkind, List.mem_singleton] at hid
          rw [hid]
          exact ⟨hnames id tag attributes hkind, ih _⟩
      | fragment =>
          simp only [hkind] at hid
          exact Tree.allDistinct_iff.mp (ih _) tree hid

end NamesDistinct

end MustacheHtml.Document.Heap
