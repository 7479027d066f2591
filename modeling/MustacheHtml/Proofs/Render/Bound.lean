import MustacheHtml.Proofs.Render.Leaving

namespace MustacheHtml.Render

open MustacheHtml.Document
open MustacheHtml.Document.Heap
open MustacheHtml.Document.Placed
open MustacheHtml.Template

section Shown

variable (texts : Texts)

/-- The text of an expression: the one at its path, or that of a literal. -/
def shownText (expression : Expression) : String :=
  (fallbackPath? expression).elim (literalText expression) texts

/-- Markup from the data is kept in its place even if it is empty, that of a literal is not. -/
def shownMustache (mustache : Mustache) : Forest :=
  match mustache.escaped, fallbackPath? mustache.expression with
  | true, _ => [.text (shownText texts mustache.expression)]
  | false, some path => boundForest (Markup.parse (texts path))
  | false, none => Markup.parse (literalText mustache.expression)

/-- An attribute as it is shown where paths have these texts. -/
def shownAttribute (attr : Attribute) : String × String :=
  (attr.name,
    match attr.soleMustache? with
    | some mustache => shownText texts mustache.expression
    | none => attr.staticValue?.getD "")

mutual

/-- What a node shows where paths have these texts. -/
def shownNode : Node → Forest
  | .text content => [.text content]
  | .mustache mustache => shownMustache texts mustache
  | .element tag attributes children =>
      [.element tag (attributes.map (shownAttribute texts)) (shownForest children)]

/-- The forest of the nodes of a template, with the texts of the data in their places. -/
def shownForest : List Node → Forest
  | [] => []
  | node :: rest => shownNode node ++ shownForest rest

end

end Shown

/-- The value is text without mustaches, or one mustache. -/
def IsWhole (attr : Attribute) : Prop :=
  attr.staticValue?.isSome ∨ attr.soleMustache?.isSome

mutual

/-- No element sets an attribute twice, and no value mixes a mustache with anything. -/
def NodeBindable : Node → Prop
  | .text _ => True
  | .mustache _ => True
  | .element _ attributes children =>
      (attributes.map Attribute.name).Nodup ∧ (∀ attr ∈ attributes, IsWhole attr) ∧
        Bindable children

/-- No attribute value mixes a mustache with other parts, and no element has two attributes of one
name. -/
def Bindable : List Node → Prop
  | [] => True
  | node :: rest => NodeBindable node ∧ Bindable rest

end

/-- The output is up to date, and has the shape of a forest that depends on the data. -/
structure Output.Shows (output : Output) (texts : Texts) (forest : Texts → Forest) : Prop where
  distinct : output.Distinct
  current : ∀ slot ∈ output.slots, slot.Current texts
  refreshed_eq : ∀ texts, output.refreshed texts = forest texts

variable {σ : Type} {host : Host σ} {world : World σ}

/-- The computation appends output of that shape to the node, with a binding for each part. -/
def Binds (effect : Effect σ RenderError (Bindings σ)) (parent : NodeId) (world : World σ)
    (forest : Texts → Forest) : Prop :=
  ∃ (after : Heap) (state : σ) (output : Output),
    effect.runIn world = (.ok output.bindings, ⟨after, world.context, state⟩) ∧
      Grows world.heap after parent output.placed ∧ output.Shows world.textAt forest

section Callees

variable {expression : Expression} {path : List String}

theorem helperCall?_bindingRegistry (host : Host σ) (expression : Expression) :
    (bindingRegistry host).helperCall? expression = none := by
  cases expression with
  | path segments =>
      match segments with
      | [] => rfl
      | [_] => rfl
      | _ :: _ :: _ => rfl
  | call name params hash => rfl
  | stringLiteral value => rfl
  | numberLiteral value => rfl
  | booleanLiteral value => rfl

theorem evaluate_path (hpath : fallbackPath? expression = some path) (kind : HookKind)
    (element : NodeId) (position : Position) :
    evaluate (bindingRegistry host) (some kind) element position expression =
      ExceptT.adapt (RenderError.resolution kind.name)
        (bindingHook host ⟨.path path, element, position⟩) := by
  unfold evaluate Registry.dispatch
  rw [helperCall?_bindingRegistry, hpath]
  cases kind <;> rfl

theorem runIn_hook (hpath : fallbackPath? expression = some path) (kind : HookKind)
    (position : Position) {element : NodeId} {binding : Binding σ} {after : World σ}
    (hbind : (bindTo host position element path (world.textAt path)).runIn world =
      (.ok (.bound binding), after)) :
    (evaluate (bindingRegistry host) (some kind) element position expression).runIn world =
      (.ok (.bound binding), after) := by
  have hhook : (bindingHook host ⟨.path path, element, position⟩).runIn world =
      (.ok (.bound binding), after) := (Effect.runIn_bind_ok (Effect.runIn_get world)).trans hbind
  rw [evaluate_path hpath, Effect.runIn_adapt, hhook]
  rfl

theorem runIn_literal (host : Host σ) (hpath : fallbackPath? expression = none) (kind : HookKind)
    (element : NodeId) (position : Position) (world : World σ) :
    (evaluate (bindingRegistry host) (some kind) element position expression).runIn world =
      (.ok (.value (literalText expression)), world) :=
  runIn_evaluate_literal (helperCall?_bindingRegistry host expression) hpath _ _ _ _

theorem runIn_bindFragmentTo (hhost : host.Refuses fun _ => none) {parent : NodeId}
    (hparent : parent < world.heap.size) (path : List String) (markup : String) :
    ∃ after state first others,
      (bindFragmentTo host parent path markup).runIn world =
          (.ok (.bound (Slot.run path first others).binding), ⟨after, world.context, state⟩) ∧
        Grows world.heap after parent (first :: others) ∧
          trees (first :: others) = boundForest (Markup.parse markup) := by
  obtain ⟨grown, seen, placed, hparse, hmade, htrees⟩ := runIn_parseFragment hhost world markup
  let parsed : World σ := ⟨grown, world.context, seen⟩
  have hmake : (makeFragment host markup).runIn world = (.ok world.heap.size, parsed) := by
    rw [makeFragment, Effect.runIn_adapt, hparse]
    rfl
  obtain ⟨after, state, first, others, hbounds, hstands, hbound⟩ :=
    run_fragmentBounds host parsed hmade
  have hbind : Effect.runIn (ε := String) (liftM (Binding.ofFragment host world.heap.size path))
      parsed = (.ok (Slot.run path first others).binding, ⟨after, world.context, state⟩) := by
    rw [Effect.runIn_lift, Binding.ofFragment, StateT.run_bind, hbounds]
    rfl
  refine ⟨after.append parent world.heap.size,
    host.observe (.appendChild parent world.heap.size) after state, first, others, ?_,
    hstands.append_fragment hparent, by rw [hbound, htrees]⟩
  unfold bindFragmentTo
  refine (Effect.runIn_bind_ok hmake).trans ?_
  exact (Effect.runIn_bind_ok hbind).trans rfl

end Callees

section Content

variable {parent : NodeId}

theorem Output.Shows.append {output more : Output} {texts : Texts} {own rest : Texts → Forest}
    (hown : output.Shows texts own) (hrest : more.Shows texts rest) :
    (output.append more).Shows texts fun texts => own texts ++ rest texts where
  distinct := (Output.distinct_append output more).mpr ⟨hown.distinct, hrest.distinct⟩
  current := by
    rw [Output.slots_append]
    exact List.forall_mem_append.mpr ⟨hown.current, hrest.current⟩
  refreshed_eq := fun texts => by
    rw [Output.refreshed_append, hown.refreshed_eq, hrest.refreshed_eq]

theorem Binds.append {first others : Effect σ RenderError (Bindings σ)}
    {own rest : Texts → Forest} (hparent : parent < world.heap.size)
    (hfirst : Binds first parent world own)
    (hrest : ∀ middle : World σ, middle.context = world.context → parent < middle.heap.size →
      Binds others parent middle rest) :
    Binds (do return (← first) ++ (← others)) parent world
      (fun texts => own texts ++ rest texts) := by
  have hothers : ∀ middle : World σ, middle.context = world.context →
      parent < middle.heap.size →
        Leaves others parent middle fun output => output.Shows world.textAt rest := by
    intro middle hcontext hbound
    rw [← World.textAt_congr hcontext]
    exact hrest middle hcontext hbound
  exact Leaves.append hparent hfirst hothers fun _ _ hown hmore => hown.append hmore

theorem Draws.binds {effect : Effect σ RenderError (Bindings σ)} {forest : Forest}
    (hdraws : Draws effect parent world (.ok forest)) :
    Binds effect parent world fun _ => forest :=
  hdraws.leaves fun added htrees => ⟨trivial, by simp [Output.slots],
    fun _ => by simp [Output.refreshed, htrees]⟩

theorem binds_literal (hhost : host.Refuses fun _ => none) {expression : Expression}
    (hpath : fallbackPath? expression = none) (escaped : Bool)
    (hparent : parent < world.heap.size) :
    Binds (renderContent host (bindingRegistry host) parent ⟨expression, escaped⟩) parent world
      (shownMustache · ⟨expression, escaped⟩) := by
  have hinserted : Answers.inserted (fun _ => none) escaped (literalText expression) =
      .ok (shownMustache (fun _ => "") ⟨expression, escaped⟩) := by
    cases escaped <;> simp [Answers.inserted, shownMustache, shownText, hpath]
  have hdraws := draws_insertValue hhost escaped (literalText expression) world hparent
  rw [hinserted] at hdraws
  obtain ⟨after, added, hinsert, hfacts⟩ := hdraws
  have hrun := runIn_literal host hpath .resolve parent (.content escaped) world
  have hbinds : Binds (renderContent host (bindingRegistry host) parent ⟨expression, escaped⟩)
      parent world fun _ => shownMustache (fun _ => "") ⟨expression, escaped⟩ :=
    Draws.binds ⟨after, added, (Effect.runIn_bind_ok hrun).trans hinsert, hfacts⟩
  have hshown : (shownMustache · ⟨expression, escaped⟩) =
      fun _ => shownMustache (fun _ => "") ⟨expression, escaped⟩ := by
    funext texts
    cases escaped <;> simp [shownMustache, shownText, hpath]
  rwa [hshown]

theorem binds_text {expression : Expression} {path : List String}
    (hpath : fallbackPath? expression = some path) (hparent : parent < world.heap.size) :
    Binds (renderContent host (bindingRegistry host) parent ⟨expression, true⟩) parent world
      (shownMustache · ⟨expression, true⟩) := by
  let made : Heap := (world.heap.create (.text (world.textAt path))).2
  let state := host.observe (.createText (world.textAt path)) world.heap world.host
  have hbind : (bindTo host (.content true) parent path (world.textAt path)).runIn world =
      (.ok (.bound ⟨path, .text world.heap.size⟩), ⟨made.append parent world.heap.size,
        world.context, host.observe (.appendChild parent world.heap.size) made state⟩) := rfl
  refine ⟨_, _, .text path world.heap.size (world.textAt path) .nil,
    (Effect.runIn_bind_ok (runIn_hook hpath .resolve _ hbind)).trans rfl,
    (Stands.create world.heap (.text (world.textAt path))).append_text hparent, ?_⟩
  constructor
  case distinct => trivial
  case current => simp [Output.slots, Slot.Current]
  case refreshed_eq => simp [Output.refreshed, shownMustache, shownText, hpath]

theorem binds_run (hhost : host.Refuses fun _ => none) {expression : Expression}
    {path : List String} (hpath : fallbackPath? expression = some path)
    (hparent : parent < world.heap.size) :
    Binds (renderContent host (bindingRegistry host) parent ⟨expression, false⟩) parent world
      (shownMustache · ⟨expression, false⟩) := by
  obtain ⟨after, state, first, others, hbind, hgrows, htrees⟩ :=
    runIn_bindFragmentTo hhost hparent path (world.textAt path)
  have hhook := runIn_hook hpath .resolve (.content false) hbind
  refine ⟨after, state, .run path first others .nil,
    (Effect.runIn_bind_ok hhook).trans rfl, by simpa [Output.placed] using hgrows, ?_⟩
  constructor
  case distinct => trivial
  case current => simpa [Output.slots, Slot.Current] using htrees
  case refreshed_eq => simp [Output.refreshed, shownMustache, hpath]

theorem binds_renderContent (hhost : host.Refuses fun _ => none) (mustache : Mustache)
    (hparent : parent < world.heap.size) :
    Binds (renderContent host (bindingRegistry host) parent mustache) parent world
      (shownMustache · mustache) := by
  obtain ⟨expression, escaped⟩ := mustache
  cases hpath : fallbackPath? expression with
  | none => exact binds_literal hhost hpath escaped hparent
  | some path =>
      cases escaped with
      | true => exact binds_text hpath hparent
      | false => exact binds_run hhost hpath hparent

end Content

section Attributes

variable {node : NodeId} {texts : Texts}

/-- The attributes in the output are those of the template, and up to date. -/
structure LiveAttribute.Shows (live : List LiveAttribute) (node : NodeId) (texts : Texts)
    (attributes : List Attribute) : Prop where
  names : live.map name = attributes.map Attribute.name
  current : ∀ slot ∈ slots node live, slot.Current texts
  refreshed_eq : ∀ texts, live.map (refreshed texts) = attributes.map (shownAttribute texts)

theorem LiveAttribute.Shows.cons {first : LiveAttribute} {rest : List LiveAttribute}
    {attr : Attribute} {others : List Attribute} (hfirst : Shows [first] node texts [attr])
    (hrest : Shows rest node texts others) :
    Shows (first :: rest) node texts (attr :: others) where
  names := congrArg₂ (· ++ ·) hfirst.names hrest.names
  current := by
    rw [slots_cons]
    exact List.forall_mem_append.mpr ⟨hfirst.current, hrest.current⟩
  refreshed_eq := fun texts =>
    congrArg₂ (· ++ ·) (hfirst.refreshed_eq texts) (hrest.refreshed_eq texts)

theorem LiveAttribute.Keep.shows {live : List LiveAttribute} {attributes : List Attribute}
    (hkeep : Keep (fun live attr => Shows [live] node texts [attr]) live attributes) :
    Shows live node texts attributes := by
  induction hkeep with
  | nil => exact ⟨rfl, List.forall_mem_nil _, fun _ => rfl⟩
  | cons hfirst _ ih => exact hfirst.2.cons ih

theorem leavesAttribute_of_whole {attr : Attribute} (hwhole : IsWhole attr) (host : Host σ)
    (world : World σ) (node : NodeId) :
    LeavesAttribute host (bindingRegistry host) node world
      (fun live attr => LiveAttribute.Shows [live] node world.textAt [attr]) attr := by
  unfold LeavesAttribute renderAttribute
  cases hstatic : attr.staticValue? with
  | some value =>
      have hsole := Attribute.soleMustache?_of_static hstatic
      refine ⟨_, ⟨attr.name, value, none⟩, rfl, rfl, rfl, ?_, ?_⟩
      · simp [LiveAttribute.slots, LiveAttribute.slot?]
      · simp [LiveAttribute.refreshed, shownAttribute, hstatic, hsole]
  | none =>
      have hsome : attr.soleMustache?.isSome := by simpa [IsWhole, hstatic] using hwhole
      obtain ⟨mustache, hsole⟩ := Option.isSome_iff_exists.mp hsome
      rw [hsole]
      cases hpath : fallbackPath? mustache.expression with
      | none =>
          have hrun := runIn_literal host hpath .resolveAttribute node (.attr attr.name) world
          refine ⟨_, ⟨attr.name, literalText mustache.expression, none⟩,
            (Effect.runIn_bind_ok hrun).trans rfl, rfl, rfl, ?_, ?_⟩
          · simp [LiveAttribute.slots, LiveAttribute.slot?]
          · simp [LiveAttribute.refreshed, shownAttribute, hsole, shownText, hpath]
      | some path =>
          let made := world.heap.setAttribute node attr.name (world.textAt path)
          let state := host.observe (.setAttribute node attr.name (world.textAt path)) world.heap
            world.host
          have hbind : (bindTo host (.attr attr.name) node path (world.textAt path)).runIn world =
              (.ok (.bound ⟨path, .attribute node attr.name⟩), ⟨made, world.context, state⟩) := rfl
          have hrun := runIn_hook hpath .resolveAttribute (.attr attr.name) hbind
          refine ⟨_, ⟨attr.name, world.textAt path, some path⟩,
            (Effect.runIn_bind_ok hrun).trans rfl, rfl, rfl, ?_, ?_⟩
          · simp [LiveAttribute.slots, LiveAttribute.slot?, Slot.Current]
          · simp [LiveAttribute.refreshed, shownAttribute, hsole, shownText, hpath]

end Attributes

section Nodes

variable {parent : NodeId}

theorem binds_element {tag : String} {attributes : List Attribute} {children : List Node}
    {inner : Texts → Forest} (hnames : (attributes.map Attribute.name).Nodup)
    (hwhole : ∀ attr ∈ attributes, IsWhole attr) (hparent : parent < world.heap.size)
    (hchildren : ∀ middle : World σ, middle.context = world.context →
      world.heap.size < middle.heap.size →
        Binds (renderNodes host (bindingRegistry host) world.heap.size children)
          world.heap.size middle inner) :
    Binds (renderNode host (bindingRegistry host) parent (.element tag attributes children))
      parent world fun texts =>
        [.element tag (attributes.map (shownAttribute texts)) (inner texts)] := by
  let keeps := fun (live : LiveAttribute) (attr : Attribute) =>
    LiveAttribute.Shows [live] world.heap.size world.textAt [attr]
  have hattributes : ∀ attr ∈ attributes, ∀ middle : World σ, middle.context = world.context →
      LeavesAttribute host (bindingRegistry host) world.heap.size middle keeps attr := by
    intro attr hattr middle hcontext
    have hleaves := leavesAttribute_of_whole (hwhole attr hattr) host middle world.heap.size
    rwa [World.textAt_congr hcontext] at hleaves
  have hinner : ∀ middle : World σ, middle.context = world.context →
      world.heap.size < middle.heap.size →
        Leaves (renderNodes host (bindingRegistry host) world.heap.size children) world.heap.size
          middle fun output => output.Shows world.textAt inner := by
    intro middle hcontext hbound
    rw [← World.textAt_congr hcontext]
    exact hchildren middle hcontext hbound
  refine leaves_element hparent hnames hattributes hinner fun live output hkeep hshows => ?_
  have hlive : LiveAttribute.Shows live world.heap.size world.textAt attributes := hkeep.shows
  constructor
  case distinct =>
    refine ⟨?_, hshows.distinct, trivial⟩
    rw [hlive.names]
    exact hnames
  case current =>
    simp only [Output.slots, List.append_nil, List.forall_mem_append]
    exact ⟨hlive.current, hshows.current⟩
  case refreshed_eq =>
    intro texts
    rw [Output.refreshed, hlive.refreshed_eq, hshows.refreshed_eq, Output.refreshed]

/-- Rendering nodes appends the forest that they show, every part of it bound and up to date. -/
theorem binds_renderNodes (hhost : host.Refuses fun _ => none) {nodes : List Node}
    (hnodes : Bindable nodes) (hparent : parent < world.heap.size) :
    Binds (renderNodes host (bindingRegistry host) parent nodes) parent world
      (shownForest · nodes) := by
  induction nodes using Node.forest_induction generalizing parent world with
  | nil =>
      exact ⟨world.heap, world.host, .nil, rfl, Grows.refl _ _, trivial, List.forall_mem_nil _,
        fun _ => rfl⟩
  | text content rest ih =>
      apply Binds.append hparent (Draws.binds (draws_text content hparent))
      exact fun middle _ hbound => ih hnodes.2 hbound
  | mustache mustache rest ih =>
      apply Binds.append hparent (binds_renderContent hhost mustache hparent)
      exact fun middle _ hbound => ih hnodes.2 hbound
  | element tag attributes children rest ihChildren ih =>
      obtain ⟨⟨hnames, hwhole, hchildren⟩, hrest⟩ := hnodes
      refine Binds.append hparent (binds_element hnames hwhole hparent ?_) ?_
      · exact fun middle _ hbound => ihChildren hchildren hbound
      · exact fun middle _ hbound => ih hrest hbound

end Nodes

end MustacheHtml.Render
