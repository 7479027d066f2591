import MustacheHtml.Proofs.Render.Calls
import MustacheHtml.Proofs.Render.Watching

/-!
The output cut at a mustache: what comes before it, in each of the elements around it. The calls of
a template are told with their cuts from its nodes alone, and a cut says what a callee finds.
-/

namespace MustacheHtml.Render

open MustacheHtml.Document
open MustacheHtml.Document.Heap
open MustacheHtml.Template

/-- The last branch of a forest: it ends at one level, or goes on within the last element there. -/
inductive Spine where
  | here (before : Forest)
  | within (before : Forest) (tag : String) (attributes : Attributes) (inner : Spine)

namespace Spine

/-- The same after more trees on its outermost level. -/
def behind (own : Forest) : Spine → Spine
  | here before => here (own ++ before)
  | within before tag attributes inner => within (own ++ before) tag attributes inner

/-- The trees below the parent are those of the spine, and its innermost element is the owner; if
the spine has none, the owner is the parent. -/
def Leads : Spine → List Placed → NodeId → NodeId → Prop
  | here before, placed, parent, owner => Placed.trees placed = before ∧ owner = parent
  | within before tag attributes inner, placed, _, owner =>
      ∃ front node children, placed = front ++ [.element node tag attributes children] ∧
        Placed.trees front = before ∧ inner.Leads children node owner

theorem Leads.behind {spine : Spine} {placed : List Placed} {parent owner : NodeId}
    (added : List Placed) (hleads : spine.Leads placed parent owner) :
    (spine.behind (Placed.trees added)).Leads (added ++ placed) parent owner := by
  cases spine with
  | here before =>
      obtain ⟨htrees, howner⟩ := hleads
      exact ⟨by rw [Placed.trees_append, htrees], howner⟩
  | within before tag attributes inner =>
      obtain ⟨front, node, children, rfl, htrees, hinner⟩ := hleads
      refine ⟨added ++ front, node, children, ?_, ?_, hinner⟩
      · rw [List.append_assoc]
      · rw [Placed.trees_append, htrees]

end Spine

/-- Where the output is cut, and the element that is still being made, if the mustache stands in
one of its attribute values, with the attributes that come before. -/
structure Cut where
  spine : Spine
  making : Option (String × Attributes) := none

namespace Cut

/-- The cut behind a forest of older siblings. -/
def behind (own : Forest) (cut : Cut) : Cut :=
  { cut with spine := cut.spine.behind own }

/-- The cut within an element. -/
def within (tag : String) (attributes : Attributes) (cut : Cut) : Cut :=
  { cut with spine := .within [] tag attributes cut.spine }

end Cut

/-- A call, the output before it, and the cause of its failure if it fails. -/
structure Visit where
  call : Call
  cut : Cut
  failure : Option String

/-- The visit with its cut changed. -/
def Visit.recut (change : Cut → Cut) (visit : Visit) : Visit :=
  { visit with cut := change visit.cut }

/-- What is visited with a value, if there is one. -/
def proceed {α : Type} (result : Except RenderError α) (next : α → List Visit) : List Visit :=
  match result with
  | .ok value => next value
  | .error _ => []

/-- What a callee has failed with, if one has. -/
def calleeFailure? {α : Type} : Except RenderError α → Option String
  | .error (.resolution _ cause) => some cause
  | _ => none

namespace Registry

variable {σ : Type} (registry : Registry σ) (answers : Answers) (data : Value)

/-- The visit of the callee of an expression, if it has one. -/
def expressionVisits (place : Place) (cut : Cut) (expression : Expression) : List Visit :=
  (registry.expressionCalls place expression).map fun call =>
    ⟨call, cut, calleeFailure? (answers.string data place expression)⟩

def partVisits (place : Place) (cut : Cut) : Part → List Visit
  | .text _ => []
  | .mustache mustache => registry.expressionVisits answers data place cut mustache.expression

/-- The visits in the parts of a value, up to the first that fails. -/
def partsVisits (place : Place) (cut : Cut) : List Part → List Visit
  | [] => []
  | part :: rest =>
      registry.partVisits answers data place cut part ++
        proceed (answers.partString data place part) fun _ => partsVisits place cut rest

/-- The visits in the attributes of an element, which has by then those before. -/
def attributesVisits (tag : String) (held : Attributes) : List Attribute → List Visit
  | [] => []
  | attr :: rest =>
      registry.partsVisits answers data (.inValue attr) ⟨.here [], some (tag, held)⟩ attr.value ++
        proceed (answers.partsString data (.inValue attr) attr.value) fun value =>
          attributesVisits tag (held.set attr.name value) rest

variable (refusal? : String → Option String)

mutual

/-- The visits in a node. -/
def nodeVisits : Node → List Visit
  | .text _ => []
  | .mustache mustache =>
      registry.expressionVisits answers data (.content mustache.escaped) ⟨.here [], none⟩
        mustache.expression
  | .element tag attributes children =>
      registry.attributesVisits answers data tag [] attributes ++
        proceed (answers.setAttributes data [] attributes) fun settled =>
          (visits children).map (Visit.recut (Cut.within tag settled))

/-- The calls that rendering the nodes makes, up to the first failure, each with the output before
it: the forest of the nodes before, and so in each element around it. -/
def visits : List Node → List Visit
  | [] => []
  | node :: rest =>
      nodeVisits node ++
        proceed (answers.nodeForest data refusal? node) fun own =>
          (visits rest).map (Visit.recut (Cut.behind own))

end

end Registry

/-- The visits are the first ones of the calls, and all of them if there is a value. -/
structure Covers {α : Type} (visits : List Visit) (calls : List Call)
    (result : Except RenderError α) : Prop where
  isPrefix : visits.map Visit.call <+: calls
  all : ∀ value, result = .ok value → visits.map Visit.call = calls

section Covers

variable {α β : Type} {visits : List Visit} {calls others : List Call}
  {outcome : Except RenderError α}

theorem Covers.nil (result : Except RenderError α) : Covers [] [] result :=
  ⟨List.prefix_refl [], fun _ _ => rfl⟩

theorem Covers.bind {more : α → List Visit} {rest : α → Except RenderError β}
    (hfirst : Covers visits calls outcome)
    (hmore : ∀ value, Covers (more value) others (rest value)) :
    Covers (visits ++ proceed outcome more) (calls ++ others) (outcome >>= rest) := by
  cases outcome with
  | error error =>
      rw [proceed, List.append_nil]
      exact ⟨hfirst.isPrefix.trans (List.prefix_append calls others),
        fun _ herror => nomatch herror⟩
  | ok value =>
      rw [← hfirst.all value rfl]
      constructor
      · rw [proceed, List.map_append]
        exact List.prefix_append_right_inj _ |>.mpr (hmore value).isPrefix
      · intro last hlast
        rw [proceed, List.map_append, (hmore value).all last hlast]

theorem Covers.recut {change : Cut → Cut} (hcovers : Covers visits calls outcome) :
    Covers (visits.map (Visit.recut change)) calls outcome := by
  have hcalls : (visits.map (Visit.recut change)).map Visit.call = visits.map Visit.call := by
    rw [List.map_map]
    rfl
  exact ⟨hcalls ▸ hcovers.isPrefix, fun value hvalue => hcalls.trans (hcovers.all value hvalue)⟩

theorem Covers.followed {rest : α → Except RenderError β} (hfirst : Covers visits calls outcome) :
    Covers visits calls (outcome >>= rest) := by
  refine ⟨hfirst.isPrefix, fun last hlast => ?_⟩
  cases outcome with
  | error error => cases hlast
  | ok value => exact hfirst.all value rfl

end Covers

section Visits

variable {σ : Type} {registry : Registry σ} {answers : Answers} {data : Value}
  {refusal? : String → Option String}

theorem covers_expressionVisits (place : Place) (cut : Cut) (expression : Expression) :
    Covers (registry.expressionVisits answers data place cut expression)
      (registry.expressionCalls place expression) (answers.string data place expression) := by
  have hcalls : (registry.expressionVisits answers data place cut expression).map Visit.call =
      registry.expressionCalls place expression := by
    rw [Registry.expressionVisits, List.map_map]
    exact List.map_id _
  exact ⟨hcalls ▸ List.prefix_refl _, fun _ _ => hcalls⟩

theorem covers_partsVisits (place : Place) (cut : Cut) (parts : List Part) :
    Covers (registry.partsVisits answers data place cut parts)
      (parts.flatMap (registry.partCalls place)) (answers.partsString data place parts) := by
  induction parts with
  | nil => exact Covers.nil _
  | cons part rest ih =>
      rw [List.flatMap_cons]
      have hpart : Covers (registry.partVisits answers data place cut part)
          (registry.partCalls place part) (answers.partString data place part) := by
        cases part with
        | text literal => exact Covers.nil _
        | mustache mustache => exact covers_expressionVisits place cut mustache.expression
      exact hpart.bind fun own => ih.followed

theorem covers_attributesVisits (tag : String) (held : Attributes) (attributes : List Attribute) :
    Covers (registry.attributesVisits answers data tag held attributes)
      (attributes.flatMap registry.attributeCalls)
      (answers.setAttributes data held attributes) := by
  induction attributes generalizing held with
  | nil => exact Covers.nil _
  | cons attr rest ih =>
      rw [List.flatMap_cons]
      exact (covers_partsVisits (.inValue attr) ⟨.here [], some (tag, held)⟩ attr.value).bind
        fun value => ih (held.set attr.name value)

theorem covers_visits (nodes : List Node) :
    Covers (registry.visits answers data refusal? nodes) (registry.calls nodes)
      (answers.forest data refusal? nodes) := by
  induction nodes using Node.forest_induction with
  | nil => exact Covers.nil _
  | text content rest ih =>
      have hnode : Covers [] [] (answers.nodeForest data refusal? (.text content)) := Covers.nil _
      exact hnode.bind fun own => ih.recut.followed
  | mustache mustache rest ih =>
      have hnode : Covers (registry.nodeVisits answers data refusal? (.mustache mustache))
          (registry.nodeCalls (.mustache mustache))
          (answers.nodeForest data refusal? (.mustache mustache)) :=
        (covers_expressionVisits (.content mustache.escaped) ⟨.here [], none⟩
          mustache.expression).followed
      exact hnode.bind fun own => ih.recut.followed
  | element tag attributes children rest ihChildren ih =>
      have hnode : Covers
          (registry.nodeVisits answers data refusal? (.element tag attributes children))
          (registry.nodeCalls (.element tag attributes children))
          (answers.nodeForest data refusal? (.element tag attributes children)) :=
        (covers_attributesVisits tag [] attributes).bind fun settled => ihChildren.recut.followed
      exact hnode.bind fun own => ih.recut.followed

end Visits

namespace Cut

variable {base middle heap : Heap} {target element : NodeId} {cut : Cut}

/-- The element that a callee is called on: the innermost one of the cut, or the one that is being
made, which stands alone and has its earlier attributes only. -/
def Calls (cut : Cut) (base heap : Heap) (added : List Placed) (owner element : NodeId) : Prop :=
  match cut.making with
  | none => element = owner
  | some (tag, earlier) => heap.cell element = ⟨.element tag earlier, none, []⟩ ∧
      base.size ≤ element ∧ element ∉ Placed.nodes added

/-- Below the target the document has grown by the cut, and no other node of it has changed. -/
def Found (cut : Cut) (base : Heap) (target : NodeId) (heap : Heap) (element : NodeId) : Prop :=
  ∃ added owner, Grows base heap target added ∧ cut.spine.Leads added target owner ∧
    cut.Calls base heap added owner element

theorem found_here (heap : Heap) (target : NodeId) :
    Found ⟨.here [], none⟩ heap target heap target :=
  ⟨[], target, Grows.refl heap target, ⟨rfl, rfl⟩, rfl⟩

theorem found_making {tag : String} {held : Attributes} (htarget : target < base.size)
    (hstands : Stands base heap (.element tag held) []) :
    Found ⟨.here [], some (tag, held)⟩ base target heap base.size :=
  ⟨[], target, hstands.grows htarget, ⟨rfl, rfl⟩, hstands.cell_new, Nat.le_refl _, by
    simp [Placed.nodes]⟩

theorem Found.behind {added : List Placed} (htarget : target < base.size)
    (hgrows : Grows base middle target added) (hfound : cut.Found middle target heap element) :
    (cut.behind (Placed.trees added)).Found base target heap element := by
  obtain ⟨more, owner, hmore, hleads, hcalls⟩ := hfound
  refine ⟨added ++ more, owner, hgrows.trans htarget hmore, hleads.behind added, ?_⟩
  obtain ⟨spine, making⟩ := cut
  cases making with
  | none => exact hcalls
  | some made =>
      obtain ⟨hcell, hsize, hnot⟩ := hcalls
      refine ⟨hcell, Nat.le_trans hgrows.size_le hsize, ?_⟩
      rw [Placed.nodes_append, List.mem_append, not_or]
      exact ⟨fun hmem => absurd (hgrows.bound element hmem) (Nat.not_lt.mpr hsize), hnot⟩

theorem Found.within {parent : NodeId} {tag : String} {attributes : Attributes}
    (hparent : parent < base.size) (hstands : Stands base middle (.element tag attributes) [])
    (hfound : cut.Found (middle.append parent base.size) base.size heap element) :
    (cut.within tag attributes).Found base parent heap element := by
  obtain ⟨inner, owner, hinner, hleads, hcalls⟩ := hfound
  have hsize := hstands.size_append (by simp) hparent
  have hlt := hstands.size_lt
  refine ⟨[.element base.size tag attributes inner], owner,
    hstands.append_element hparent hinner, ⟨[], base.size, inner, rfl, rfl, hleads⟩, ?_⟩
  obtain ⟨spine, making⟩ := cut
  cases making with
  | none => exact hcalls
  | some made =>
      obtain ⟨hcell, hnew, hnot⟩ := hcalls
      rw [hsize] at hnew
      have hlater : base.size < element := Nat.lt_of_lt_of_le hlt hnew
      refine ⟨hcell, Nat.le_of_lt hlater, ?_⟩
      rw [Placed.nodes_element, List.mem_cons, not_or]
      exact ⟨Nat.ne_of_gt hlater, hnot⟩

end Cut

theorem Cut.Found.not_below {base heap : Heap} {target element : NodeId} {cut : Cut}
    (hlinked : base.Linked) (htarget : target < base.size)
    (hfound : cut.Found base target heap element) (hmaking : cut.making.isSome) :
    ¬ heap.Reaches target element := by
  obtain ⟨added, owner, hgrows, -, hcalls⟩ := hfound
  obtain ⟨spine, making⟩ := cut
  cases making with
  | none => simp at hmaking
  | some made =>
      obtain ⟨-, hnew, hnot⟩ := hcalls
      intro hbelow
      rcases hgrows.old_or_added hlinked htarget hbelow with hold | hadded
      · exact absurd hold (Nat.not_lt.mpr hnew)
      · exact hnot hadded

end MustacheHtml.Render
