import MustacheHtml.Proofs.Render.Output
import MustacheHtml.Proofs.Render.Refinement

namespace MustacheHtml.Render

open MustacheHtml.Document
open MustacheHtml.Document.Heap
open MustacheHtml.Document.Placed
open MustacheHtml.Template

variable {σ : Type} {host : Host σ} {registry : Registry σ} {world : World σ}
  {effect first others : Effect σ RenderError (Bindings σ)} {parent : NodeId}
  {good own rest inner : Output → Prop}

/-- The computation appends good output to the node, with a binding for each part that is bound. -/
def Leaves (effect : Effect σ RenderError (Bindings σ)) (parent : NodeId) (world : World σ)
    (good : Output → Prop) : Prop :=
  ∃ (after : Heap) (state : σ) (output : Output),
    effect.runIn world = (.ok output.bindings, ⟨after, world.context, state⟩) ∧
      Grows world.heap after parent output.placed ∧ good output

theorem Leaves.append (hparent : parent < world.heap.size) (hfirst : Leaves first parent world own)
    (hrest : ∀ middle : World σ, middle.context = world.context → parent < middle.heap.size →
      Leaves others parent middle rest)
    (hgood : ∀ output more, own output → rest more → good (output.append more)) :
    Leaves (do return (← first) ++ (← others)) parent world good := by
  obtain ⟨made, state, output, hrun, hgrows, hown⟩ := hfirst
  obtain ⟨after, later, more, hafter, hmore, hrest⟩ := hrest ⟨made, world.context, state⟩ rfl
    (Nat.lt_of_lt_of_le hparent hgrows.size_le)
  refine ⟨after, later, output.append more, ?_, ?_, hgood output more hown hrest⟩
  · rw [Output.bindings_append]
    exact (Effect.runIn_bind_ok hrun).trans (Effect.runIn_bind_ok hafter)
  · rw [Output.placed_append]
    exact hgrows.trans hparent hmore

theorem Draws.leaves {forest : Forest} (hdraws : Draws effect parent world (.ok forest))
    (hgood : ∀ added, trees added = forest → good (.still added .nil)) :
    Leaves effect parent world good := by
  obtain ⟨after, added, hrun, hcontext, htrees, hgrows⟩ := hdraws
  refine ⟨after.heap, after.host, .still added .nil, ?_, ?_, hgood added htrees⟩
  · rw [hrun, ← hcontext]
    rfl
  · simpa [Output.placed] using hgrows

section Attributes

variable {attributes : List Attribute} {children : List Node} {tag : String}
  {keeps : LiveAttribute → Attribute → Prop}

theorem LiveAttribute.slots_cons (node : NodeId) (first : LiveAttribute)
    (rest : List LiveAttribute) :
    slots node (first :: rest) = slots node [first] ++ slots node rest := by
  rw [slots, slots, slots, ← List.filterMap_append, List.singleton_append]

/-- The attribute is set under its name, and its value is bound or not. -/
def LeavesAttribute (host : Host σ) (registry : Registry σ) (node : NodeId) (world : World σ)
    (keeps : LiveAttribute → Attribute → Prop) (attr : Attribute) : Prop :=
  ∃ (state : σ) (live : LiveAttribute),
    (renderAttribute host registry node attr).runIn world =
        (.ok ((LiveAttribute.slots node [live]).map Slot.binding),
          ⟨world.heap.setAttribute node live.name live.value, world.context, state⟩) ∧
      live.name = attr.name ∧ keeps live attr

/-- The attributes are the same ones, and each is kept as it should be. -/
def LiveAttribute.Keep (keeps : LiveAttribute → Attribute → Prop) :
    List LiveAttribute → List Attribute → Prop :=
  List.Forall₂ fun live attr => live.name = attr.name ∧ keeps live attr

theorem LiveAttribute.Keep.names {live : List LiveAttribute}
    (hkeep : LiveAttribute.Keep keeps live attributes) :
    live.map name = attributes.map Attribute.name := by
  induction hkeep with
  | nil => rfl
  | cons hfirst _ ih => rw [List.map_cons, List.map_cons, hfirst.1, ih]

theorem leaves_renderAttributes {heap : Heap} {held : Attributes} {data : Value}
    (hattributes : ∀ attr ∈ attributes, ∀ middle : World σ, middle.context = data →
      LeavesAttribute host registry heap.size middle keeps attr)
    (hdata : world.context = data)
    (hnames : (held.map (·.1) ++ attributes.map Attribute.name).Nodup)
    (hstands : Stands heap world.heap (.element tag held) []) :
    ∃ (after : Heap) (state : σ) (live : List LiveAttribute),
      (renderAttributes host registry heap.size attributes).runIn world =
          (.ok ((LiveAttribute.slots heap.size live).map Slot.binding),
            ⟨after, world.context, state⟩) ∧
        Stands heap after (.element tag (held ++ live.map LiveAttribute.pair)) [] ∧
          LiveAttribute.Keep keeps live attributes := by
  induction attributes generalizing held world with
  | nil =>
      refine ⟨world.heap, world.host, [], rfl, ?_, .nil⟩
      rw [List.map_nil, List.append_nil]
      exact hstands
  | cons attr rest ih =>
      obtain ⟨hfirst, hothers⟩ := List.forall_mem_cons.mp hattributes
      obtain ⟨state, live, hrun, hname, hkeeps⟩ := hfirst world hdata
      have hfresh : live.name ∉ held.map (·.1) := by
        rw [hname]
        rw [List.map_cons] at hnames
        exact fun hmem => (List.nodup_append'.mp hnames).2.2 hmem List.mem_cons_self
      let middle : World σ := ⟨world.heap.setAttribute heap.size live.name live.value,
        world.context, state⟩
      have hset : Stands heap middle.heap (.element tag (held ++ [live.pair])) [] := by
        have hset := hstands.setAttribute live.name live.value
        rwa [Attributes.set_of_not_mem _ hfresh] at hset
      have hnamesRest :
          ((held ++ [live.pair]).map (·.1) ++ rest.map Attribute.name).Nodup := by
        simpa [LiveAttribute.pair, hname] using hnames
      have hmiddle : middle.context = data := hdata
      obtain ⟨after, later, more, hmore, hafter, hlater⟩ := ih hothers hmiddle hnamesRest hset
      refine ⟨after, later, live :: more, ?_, ?_, .cons ⟨hname, hkeeps⟩ hlater⟩
      · rw [LiveAttribute.slots_cons, List.map_append]
        exact (Effect.runIn_bind_ok hrun).trans (Effect.runIn_bind_ok hmore)
      · simpa using hafter

theorem leaves_element (hparent : parent < world.heap.size)
    (hnames : (attributes.map Attribute.name).Nodup)
    (hattributes : ∀ attr ∈ attributes, ∀ middle : World σ, middle.context = world.context →
      LeavesAttribute host registry world.heap.size middle keeps attr)
    (hchildren : ∀ middle : World σ, middle.context = world.context →
      world.heap.size < middle.heap.size →
        Leaves (renderNodes host registry world.heap.size children) world.heap.size middle inner)
    (hgood : ∀ live output, LiveAttribute.Keep keeps live attributes → inner output →
      good (.element world.heap.size tag live output .nil)) :
    Leaves (renderNode host registry parent (.element tag attributes children)) parent world
      good := by
  let created : World σ := ⟨(world.heap.create (.element tag [])).2, world.context,
    host.observe (.createElement tag) world.heap world.host⟩
  have hcreate := Effect.runIn_lift (ε := RenderError) (host.createElement tag) world
  have hcreated : Stands world.heap created.heap (.element tag []) [] :=
    Stands.create world.heap (.element tag [])
  have hcontext : created.context = world.context := rfl
  obtain ⟨named, state, live, hrun, hstands, hlive⟩ :=
    leaves_renderAttributes hattributes hcontext (by simpa using hnames) hcreated
  rw [List.nil_append] at hstands
  let appended : World σ := ⟨named.append parent world.heap.size, world.context,
    host.observe (.appendChild parent world.heap.size) named state⟩
  have happend := Effect.runIn_lift (ε := RenderError)
    (host.appendChild parent world.heap.size) ⟨named, world.context, state⟩
  have hsize := hstands.size_append (by simp) hparent
  obtain ⟨after, later, output, hinner, hgrows, houtput⟩ :=
    hchildren appended rfl (hsize ▸ hstands.size_lt)
  refine ⟨after, later, .element world.heap.size tag live output .nil, ?_,
    hstands.append_element hparent hgrows, hgood live output hlive houtput⟩
  have hslots : (Output.element world.heap.size tag live output .nil).slots =
      LiveAttribute.slots world.heap.size live ++ output.slots := by simp [Output.slots]
  rw [Output.bindings, hslots, List.map_append]
  exact (Effect.runIn_bind_ok hcreate).trans ((Effect.runIn_bind_ok hrun).trans
    ((Effect.runIn_bind_ok happend).trans (Effect.runIn_bind_ok hinner)))

end Attributes

end MustacheHtml.Render
