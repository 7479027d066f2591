import MustacheHtml.Proofs.Render.Splice

/-!
The output of a rendering, cut up into what is bound to a path of the data and what is not. What it
shows once all that is bound is up to date can be told from its shape and the data alone.
-/

namespace MustacheHtml.Render

open MustacheHtml.Document
open MustacheHtml.Document.Placed

/-- The text that each path has in the data. -/
abbrev Texts := List String → String

/-- A part of the output that one binding keeps up to date. -/
inductive Slot where
  | text (path : List String) (node : NodeId) (content : String)
  | run (path : List String) (first : Placed) (others : List Placed)
  | attribute (path : List String) (owner : NodeId) (name value : String)

namespace Slot

variable {σ : Type}

/-- The binding to a slot. -/
def binding : Slot → Binding σ
  | text path node _ => ⟨path, .text node⟩
  | run path first others => ⟨path, .fragment first.root (lastRoot first others)⟩
  | .attribute path owner name _ => ⟨path, .attribute owner name⟩

/-- The part shows the text at its path. -/
def Current (texts : Texts) : Slot → Prop
  | text path _ content => content = texts path
  | run path first others => trees (first :: others) = boundForest (Markup.parse (texts path))
  | .attribute path _ _ value => value = texts path

end Slot

/-- An attribute of the output, with the path it is bound to if there is one. -/
structure LiveAttribute where
  name : String
  value : String
  path? : Option (List String)

namespace LiveAttribute

def pair (attr : LiveAttribute) : String × String :=
  (attr.name, attr.value)

def slot? (node : NodeId) (attr : LiveAttribute) : Option Slot :=
  attr.path?.map fun path => .attribute path node attr.name attr.value

/-- The attribute with the text that its path has now. -/
def refreshed (texts : Texts) (attr : LiveAttribute) : String × String :=
  (attr.name, attr.path?.elim attr.value texts)

/-- The slots among the attributes of a node. -/
def slots (node : NodeId) (attributes : List LiveAttribute) : List Slot :=
  attributes.filterMap (slot? node)

theorem pairs_eq_refreshed {texts : Texts} {node : NodeId} {attributes : List LiveAttribute}
    (hcurrent : ∀ slot ∈ slots node attributes, slot.Current texts) :
    attributes.map pair = attributes.map (refreshed texts) := by
  apply List.map_congr_left
  intro attr hattr
  cases hpath : attr.path? with
  | none => simp [pair, refreshed, hpath]
  | some path =>
      have hslot : Slot.attribute path node attr.name attr.value ∈ slots node attributes :=
        List.mem_filterMap.mpr ⟨attr, hattr, by rw [slot?, hpath]; rfl⟩
      have hvalue : attr.value = texts path := hcurrent _ hslot
      simp [pair, refreshed, hpath, hvalue]

end LiveAttribute

/-- The children of a node that a rendering has put there, from the first to the last. -/
inductive Output where
  | nil
  /-- Trees that nothing is bound to. -/
  | still (placed : List Placed) (rest : Output)
  | text (path : List String) (node : NodeId) (content : String) (rest : Output)
  | run (path : List String) (first : Placed) (others : List Placed) (rest : Output)
  | element (node : NodeId) (tag : String) (attributes : List LiveAttribute)
      (children rest : Output)

namespace Output

/-- The trees of the output with their nodes. -/
def placed : Output → List Placed
  | nil => []
  | still trees rest => trees ++ rest.placed
  | text _ node content rest => .text node content :: rest.placed
  | run _ first others rest => first :: (others ++ rest.placed)
  | element node tag attributes children rest =>
      .element node tag (attributes.map LiveAttribute.pair) children.placed :: rest.placed

/-- The parts that are bound, in document order. -/
def slots : Output → List Slot
  | nil => []
  | still _ rest => rest.slots
  | text path node content rest => .text path node content :: rest.slots
  | run path first others rest => .run path first others :: rest.slots
  | element node _ attributes children rest =>
      LiveAttribute.slots node attributes ++ (children.slots ++ rest.slots)

/-- The bindings of the output in document order. -/
def bindings {σ : Type} (output : Output) : Bindings σ :=
  output.slots.map Slot.binding

/-- What the output shows when every part that is bound shows the text at its path. -/
def refreshed (texts : Texts) : Output → Forest
  | nil => []
  | still placed rest => trees placed ++ rest.refreshed texts
  | text path _ _ rest => .text (texts path) :: rest.refreshed texts
  | run path _ _ rest => boundForest (Markup.parse (texts path)) ++ rest.refreshed texts
  | element _ tag attributes children rest =>
      .element tag (attributes.map (LiveAttribute.refreshed texts)) (children.refreshed texts) ::
        rest.refreshed texts

/-- No element of the output has two attributes of one name. -/
def Distinct : Output → Prop
  | nil => True
  | still _ rest => rest.Distinct
  | text _ _ _ rest => rest.Distinct
  | run _ _ _ rest => rest.Distinct
  | element _ _ attributes children rest =>
      (attributes.map LiveAttribute.name).Nodup ∧ children.Distinct ∧ rest.Distinct

theorem trees_placed {texts : Texts} {output : Output}
    (hcurrent : ∀ slot ∈ output.slots, slot.Current texts) :
    trees output.placed = output.refreshed texts := by
  induction output with
  | nil => rfl
  | still placed rest ih =>
      rw [Output.placed, refreshed, trees_append, ih hcurrent]
  | text path node content rest ih =>
      have hcontent : content = texts path := hcurrent _ List.mem_cons_self
      rw [Output.placed, refreshed, trees, tree, hcontent,
        ih fun slot hslot => hcurrent slot (List.mem_cons_of_mem _ hslot)]
  | run path first others rest ih =>
      have hrun : trees (first :: others) = boundForest (Markup.parse (texts path)) :=
        hcurrent _ List.mem_cons_self
      rw [Output.placed, refreshed, ← List.cons_append, trees_append, hrun,
        ih fun slot hslot => hcurrent slot (List.mem_cons_of_mem _ hslot)]
  | element node tag attributes children rest ihChildren ih =>
      simp only [slots, List.forall_mem_append] at hcurrent
      obtain ⟨hown, hchildren, hrest⟩ := hcurrent
      rw [Output.placed, refreshed, trees, tree, LiveAttribute.pairs_eq_refreshed hown,
        ihChildren hchildren, ih hrest]

/-- One output behind another one. -/
def append : Output → Output → Output
  | nil, more => more
  | still placed rest, more => still placed (rest.append more)
  | text path node content rest, more => text path node content (rest.append more)
  | run path first others rest, more => run path first others (rest.append more)
  | element node tag attributes children rest, more =>
      element node tag attributes children (rest.append more)

section Append

variable (output more : Output)

@[simp] theorem placed_append : (output.append more).placed = output.placed ++ more.placed := by
  induction output with
  | nil => rfl
  | still placed rest ih => simp [append, Output.placed, ih]
  | text path node content rest ih => simp [append, Output.placed, ih]
  | run path first others rest ih => simp [append, Output.placed, ih]
  | element node tag attributes children rest _ ih => simp [append, Output.placed, ih]

@[simp] theorem slots_append : (output.append more).slots = output.slots ++ more.slots := by
  induction output with
  | nil => rfl
  | still placed rest ih => simpa only [append, slots] using ih
  | text path node content rest ih => simp [append, slots, ih]
  | run path first others rest ih => simp [append, slots, ih]
  | element node tag attributes children rest _ ih => simp [append, slots, ih]

theorem bindings_append {σ : Type} :
    (output.append more).bindings (σ := σ) = output.bindings ++ more.bindings := by
  rw [bindings, slots_append, List.map_append, bindings, bindings]

@[simp] theorem refreshed_append (texts : Texts) : (output.append more).refreshed texts =
    output.refreshed texts ++ more.refreshed texts := by
  induction output with
  | nil => rfl
  | still placed rest ih => simp [append, refreshed, ih]
  | text path node content rest ih => simp [append, refreshed, ih]
  | run path first others rest ih => simp [append, refreshed, ih]
  | element node tag attributes children rest _ ih => simp [append, refreshed, ih]

@[simp] theorem distinct_append :
    (output.append more).Distinct ↔ output.Distinct ∧ more.Distinct := by
  induction output with
  | nil => simp [append, Distinct]
  | still placed rest ih => simpa only [append, Distinct] using ih
  | text path node content rest ih => simpa only [append, Distinct] using ih
  | run path first others rest ih => simpa only [append, Distinct] using ih
  | element node tag attributes children rest _ ih =>
      simp only [append, Distinct, ih, and_assoc]

end Append

end Output

end MustacheHtml.Render
