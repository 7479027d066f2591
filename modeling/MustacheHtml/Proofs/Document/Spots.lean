import MustacheHtml.Proofs.Document.Ancestry

/-!
Spots of a document: the contents of its texts and the attributes of its elements, where strings are
put. Strings that have been put in part, and are then put in full, leave no trace of the first time.
-/

namespace MustacheHtml.Document

/-- Where a string can be put. -/
inductive Spot where
  | content (node : NodeId)
  | value (element : NodeId) (name : String)
deriving DecidableEq, Repr

namespace Spot

/-- The node that a spot is at. -/
def node : Spot → NodeId
  | content node => node
  | value element _ => element

/-- What a string at a spot makes of the kind of the node that the spot is at. -/
def change : Spot → String → Kind → Kind
  | content _, text, .text _ => .text text
  | value _ name, text, .element tag attributes => .element tag (attributes.set name text)
  | _, _, kind => kind

/-- What a string at a spot makes of the kind of any node. -/
def write (spot : Spot) (text : String) (id : NodeId) (kind : Kind) : Kind :=
  if spot.node = id then spot.change text kind else kind

variable {spot other : Spot} {id : NodeId} {kind : Kind}

theorem write_of_ne (text : String) (hid : spot.node ≠ id) : spot.write text id kind = kind :=
  if_neg hid

theorem change_change (spot : Spot) (text replacement : String) (kind : Kind) :
    spot.change replacement (spot.change text kind) = spot.change replacement kind := by
  cases spot <;> cases kind <;> simp [change, Attributes.set_set]

theorem change_change_of_ne (hnode : spot.node = other.node) (hne : spot ≠ other)
    (text more replacement : String) (kind : Kind) :
    spot.change replacement (other.change more (spot.change text kind)) =
      other.change more (spot.change replacement kind) := by
  cases spot with
  | content owner =>
      cases other with
      | content node => exact absurd (congrArg content hnode) hne
      | value element name => cases kind <;> rfl
  | value owner key =>
      cases other with
      | content node => cases kind <;> simp [change, Attributes.set_set]
      | value element name =>
          obtain rfl : owner = element := hnode
          have hkey : key ≠ name := fun hsame => hne (congrArg (value owner) hsame)
          cases kind <;> simp [change, Attributes.set_set_of_ne _ hkey]

theorem write_write (spot : Spot) (text replacement : String) (id : NodeId) (kind : Kind) :
    spot.write replacement id (spot.write text id kind) = spot.write replacement id kind := by
  by_cases hid : spot.node = id
  · simp only [write, if_pos hid, change_change]
  · rw [write_of_ne text hid]

theorem write_write_of_ne (hne : spot ≠ other) (text more replacement : String) (id : NodeId)
    (kind : Kind) : spot.write replacement id (other.write more id (spot.write text id kind)) =
      other.write more id (spot.write replacement id kind) := by
  by_cases hid : spot.node = id
  · by_cases hother : other.node = id
    · simp only [write, if_pos hid, if_pos hother]
      exact change_change_of_ne (hid.trans hother.symm) hne text more replacement kind
    · rw [write_of_ne more hother, write_of_ne more hother, write_write]
  · rw [write_of_ne _ hid, write_of_ne _ hid, write_of_ne _ hid]

end Spot

/-- Strings with the spots where they are put one after the other. -/
abbrev Puts := List (Spot × String)

namespace Puts

def spots (puts : Puts) : List Spot :=
  puts.map (·.1)

/-- What strings make of the kind of a node, one after the other. -/
def write (puts : Puts) (id : NodeId) (kind : Kind) : Kind :=
  puts.foldl (fun kind put => put.1.write put.2 id kind) kind

/-- Another string for one of the spots. -/
def revise (puts : Puts) (spot : Spot) (text : String) : Puts :=
  puts.map fun put => if put.1 = spot then (spot, text) else put

variable {id : NodeId} {kind : Kind}

@[simp] theorem write_cons (spot : Spot) (text : String) (rest : Puts) :
    write ((spot, text) :: rest) id kind = rest.write id (spot.write text id kind) := rfl

theorem write_append (first rest : Puts) :
    write (first ++ rest) id kind = rest.write id (first.write id kind) :=
  List.foldl_append

theorem write_of_not_mem {puts : Puts} (hid : ∀ spot ∈ puts.spots, spot.node ≠ id) :
    puts.write id kind = kind := by
  induction puts with
  | nil => rfl
  | cons first rest ih =>
      obtain ⟨hfirst, hrest⟩ := List.forall_mem_cons.mp hid
      rw [write_cons, Spot.write_of_ne _ hfirst, ih hrest]

@[simp] theorem spots_revise (puts : Puts) (spot : Spot) (text : String) :
    (puts.revise spot text).spots = puts.spots := by
  rw [spots, revise, List.map_map]
  refine List.map_congr_left fun put _ => ?_
  rw [Function.comp_apply]
  split
  · next hsame => exact hsame.symm
  · rfl

/-- A string that is put at a spot again may as well have been put there in the first place, and
wherever it was put in between. -/
theorem write_again (spot : Spot) (text replacement : String) (puts : Puts) (id : NodeId)
    (kind : Kind) : spot.write replacement id (puts.write id (spot.write text id kind)) =
      (puts.revise spot replacement).write id (spot.write replacement id kind) := by
  induction puts generalizing text kind with
  | nil => exact Spot.write_write spot text replacement id kind
  | cons first rest ih =>
      obtain ⟨other, more⟩ := first
      rw [revise, List.map_cons, write_cons]
      by_cases hsame : other = spot
      · subst hsame
        simp only [if_true, write_cons, Spot.write_write]
        exact ih more kind
      · simp only [if_neg hsame, write_cons]
        have hkept := Spot.write_write_of_ne (Ne.symm hsame) text more text id kind
        have hmoved := Spot.write_write_of_ne (Ne.symm hsame) text more replacement id kind
        rw [← hkept, ih, hmoved]
        rfl

/-- Strings at the first of some spots do not show any more once strings have been put at all of
them. -/
theorem write_write_of_prefix {early late : Puts} (hspots : early.spots <+: late.spots)
    (id : NodeId) (kind : Kind) : late.write id (early.write id kind) = late.write id kind := by
  induction late generalizing early kind with
  | nil =>
      obtain rfl : early = [] := by simpa [spots] using hspots
      rfl
  | cons first rest ih =>
      obtain ⟨spot, text⟩ := first
      cases early with
      | nil => rfl
      | cons earliest others =>
          obtain ⟨other, old⟩ := earliest
          obtain ⟨rfl, hothers⟩ : other = spot ∧ spots others <+: spots rest := by
            simpa [spots, List.cons_prefix_cons] using hspots
          rw [write_cons, write_cons, write_cons, write_again, ih]
          rwa [spots_revise]

end Puts

namespace Heap

/-- Puts a string at a spot. -/
def put (heap : Heap) : Spot → String → Heap
  | .content node, text => heap.setText node text
  | .value element name, text => heap.setAttribute element name text

/-- Puts strings at their spots, one after the other. -/
def putAll (heap : Heap) (puts : Puts) : Heap :=
  puts.foldl (fun heap put => heap.put put.1 put.2) heap

variable {heap : Heap} {id : NodeId}

theorem kind_modify_self {change : Cell → Cell} (hid : heap.kind id ≠ .fragment) :
    (heap.modify id change).kind id = (change (heap.cell id)).kind := by
  have hbound : id < heap.size := by
    by_contra hge
    exact hid (by rw [kind, cell_of_size_le (Nat.not_lt.mp hge), Cell.fresh])
  rw [kind, cell_modify_self _ hbound]

section Put

variable (heap : Heap) (spot : Spot) (text : String)

theorem size_put : (heap.put spot text).size = heap.size := by
  cases spot <;> simp [put]

theorem parent?_put : (heap.put spot text).parent? id = heap.parent? id := by
  cases spot <;> simp [put]

theorem children_put : (heap.put spot text).children id = heap.children id := by
  cases spot <;> simp [put]

theorem cell_put_of_ne {spot : Spot} (hid : id ≠ spot.node) :
    (heap.put spot text).cell id = heap.cell id := by
  cases spot with
  | content node => exact cell_setText_of_ne text hid
  | value element name => exact cell_setAttribute_of_ne name text hid

theorem kind_put_self :
    (heap.put spot text).kind spot.node = spot.change text (heap.kind spot.node) := by
  cases spot with
  | content node =>
      change (heap.setText node text).kind node = Spot.change _ _ (heap.kind node)
      cases hkind : heap.kind node with
      | text held =>
          simp only [setText, hkind]
          exact kind_modify_self (by simp [hkind])
      | fragment => simp [setText, hkind, Spot.change]
      | element tag attributes => simp [setText, hkind, Spot.change]
  | value element name =>
      change (heap.setAttribute element name text).kind element =
        Spot.change _ _ (heap.kind element)
      cases hkind : heap.kind element with
      | element tag attributes =>
          simp only [setAttribute, hkind]
          exact kind_modify_self (by simp [hkind])
      | fragment => simp [setAttribute, hkind, Spot.change]
      | text held => simp [setAttribute, hkind, Spot.change]

theorem kind_put : (heap.put spot text).kind id = spot.write text id (heap.kind id) := by
  by_cases hid : spot.node = id
  · subst hid
    rw [kind_put_self, Spot.write, if_pos rfl]
  · rw [Spot.write_of_ne text hid, kind, cell_put_of_ne heap text (Ne.symm hid), kind]

end Put

theorem Linked.put (hlinked : heap.Linked) (spot : Spot) (text : String) :
    (heap.put spot text).Linked := by
  cases spot with
  | content node => exact hlinked.setText node text
  | value element name => exact hlinked.setAttribute element name text

section PutAll

variable (heap : Heap) (puts : Puts)

theorem size_putAll : (heap.putAll puts).size = heap.size := by
  induction puts generalizing heap with
  | nil => rfl
  | cons first rest ih => exact (ih _).trans (size_put heap first.1 first.2)

theorem parent?_putAll : (heap.putAll puts).parent? id = heap.parent? id := by
  induction puts generalizing heap with
  | nil => rfl
  | cons first rest ih => exact (ih _).trans (parent?_put heap first.1 first.2)

theorem children_putAll : (heap.putAll puts).children id = heap.children id := by
  induction puts generalizing heap with
  | nil => rfl
  | cons first rest ih => exact (ih _).trans (children_put heap first.1 first.2)

theorem kind_putAll : (heap.putAll puts).kind id = puts.write id (heap.kind id) := by
  induction puts generalizing heap with
  | nil => rfl
  | cons first rest ih =>
      rw [Puts.write_cons, ← kind_put]
      exact ih _

theorem cell_putAll_of_not_mem {puts : Puts} (hid : ∀ spot ∈ puts.spots, spot.node ≠ id) :
    (heap.putAll puts).cell id = heap.cell id := by
  refine Cell.ext ?_ (parent?_putAll heap puts) (children_putAll heap puts)
  exact (kind_putAll heap puts).trans (Puts.write_of_not_mem hid)

end PutAll

theorem Linked.putAll (hlinked : heap.Linked) (puts : Puts) : (heap.putAll puts).Linked := by
  induction puts generalizing heap with
  | nil => exact hlinked
  | cons first rest ih => exact ih (hlinked.put first.1 first.2)

theorem Acyclic.putAll (hacyclic : heap.Acyclic) (puts : Puts) : (heap.putAll puts).Acyclic := by
  have hedge : (heap.putAll puts).ChildOf = heap.ChildOf := by
    funext low high
    rw [ChildOf, ChildOf, parent?_putAll]
  rwa [Acyclic, hedge]

end Heap

end MustacheHtml.Document
