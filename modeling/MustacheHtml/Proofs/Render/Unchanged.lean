import MustacheHtml.Proofs.Render.Calls
import MustacheHtml.Proofs.Render.Rerendering
import MustacheHtml.Proofs.Results
import MustacheHtml.Session.Act
import MustacheHtml.Template.Building

/-!
Updating while the data is as it was when it was rendered. With callees that bind what they show,
as helpers and as hooks, the output is up to date from the first, so that updating all of it
changes nothing; only a helper in the midst of an attribute value is not up to date.
-/

namespace MustacheHtml.Render

open MustacheHtml.Document
open MustacheHtml.Document.Heap
open MustacheHtml.Document.Placed
open MustacheHtml.Template

variable {σ : Type}

/-- The callee binds; the host may have kept something before. -/
def IsBinding (host : Host σ) (callee : Callee σ) : Prop :=
  ∃ pathOf asText, ∀ invocation (world : World σ), ∃ state,
    (callee invocation).runIn world =
      (bindingCallee host pathOf asText invocation).runIn { world with host := state }

theorem runIn_actCallee (act : Session.Act) (name : String) (invocation : Invocation)
    (world : World Session.Recorder) :
    ∃ state, (act.callee name invocation).runIn world =
      (act.perform invocation).runIn { world with host := state } := by
  unfold Session.Act.callee
  obtain ⟨request, element, position⟩ := invocation
  cases request <;>
    exact ⟨_, (Effect.runIn_bind_ok (Effect.runIn_get _)).trans
      (Effect.runIn_bind_ok (Effect.runIn_lift _ _))⟩

/-- The act that binds as the position asks for is a callee that binds. -/
theorem isBinding_bindAuto (name : String) :
    IsBinding Session.host ((Session.Act.bindAuto none).callee name) := by
  refine ⟨Session.subjectOf, fun _ escaped => escaped, fun invocation world => ?_⟩
  obtain ⟨state, hcallee⟩ := runIn_actCallee (.bindAuto none) name invocation world
  refine ⟨state, ?_⟩
  rw [hcallee, Session.Act.perform, bindingCallee, Effect.runIn_bind_ok (Effect.runIn_get _),
    Effect.runIn_bind_ok (Effect.runIn_get _)]
  cases invocation.position <;> rfl

/-- Every helper binds, and every hook that there is. -/
structure Registry.AllBind (registry : Registry σ) (host : Host σ) : Prop where
  helper : ∀ name callee, registry.helpers.get? name = some callee → IsBinding host callee
  hook : ∀ kind callee, registry.hook? kind = some callee → IsBinding host callee

mutual

/-- The attributes of all elements in a node. -/
def nodeAttributeLists : Node → List (List Attribute)
  | .text _ => []
  | .mustache _ => []
  | .element _ attributes children => attributes :: attributeLists children

/-- The attributes of each element, in document order. -/
def attributeLists : List Node → List (List Attribute)
  | [] => []
  | node :: rest => nodeAttributeLists node ++ attributeLists rest

end

/-- No element names an attribute twice. -/
def NamesOnce (nodes : List Node) : Prop :=
  ∀ attributes ∈ attributeLists nodes, (attributes.map Attribute.name).Nodup

/-- No attribute value calls anybody but where it is one mustache. -/
def Registry.CallsWhole (registry : Registry σ) (nodes : List Node) : Prop :=
  ∀ attributes ∈ attributeLists nodes, ∀ attr ∈ attributes,
    attr.soleMustache? = none → registry.attributeCalls attr = []

/-- Output that is up to date in all its parts, and can be kept so. -/
structure Output.UpToDate (output : Output) (texts : Texts) : Prop where
  distinct : output.Distinct
  current : ∀ slot ∈ output.slots, slot.Current texts

theorem Output.UpToDate.append {output more : Output} {texts : Texts}
    (houtput : output.UpToDate texts) (hmore : more.UpToDate texts) :
    (output.append more).UpToDate texts where
  distinct := (Output.distinct_append output more).mpr ⟨houtput.distinct, hmore.distinct⟩
  current := by
    rw [Output.slots_append]
    exact List.forall_mem_append.mpr ⟨houtput.current, hmore.current⟩

theorem Output.upToDate_still (added : List Placed) (texts : Texts) :
    (Output.still added .nil).UpToDate texts :=
  ⟨trivial, List.forall_mem_nil _⟩

section Evaluate

variable {host : Host σ} {registry : Registry σ} {world : World σ} {expression : Expression}
  {element parent : NodeId} {hook : Option HookKind} {position : Position}

theorem Registry.get?_of_helperCall? {name : String} {callee : Callee σ} {request : Request}
    (hcall : registry.helperCall? expression = some (.callee name callee request)) :
    registry.helpers.get? name = some callee := by
  unfold Registry.helperCall? at hcall
  split at hcall
  · obtain ⟨helper, hget, hsame⟩ := Option.map_eq_some_iff.mp hcall
    cases hsame
    exact hget
  · obtain ⟨helper, hget, hsame⟩ := Option.map_eq_some_iff.mp hcall
    cases hsame
    exact hget
  · cases hcall

theorem Registry.AllBind.dispatch (hregistry : registry.AllBind host) {name : String}
    {callee : Callee σ} {request : Request}
    (hdispatch : registry.dispatch hook expression = .callee name callee request) :
    IsBinding host callee := by
  unfold Registry.dispatch at hdispatch
  cases hhelper : registry.helperCall? expression with
  | some call =>
      rw [hhelper] at hdispatch
      obtain rfl : call = .callee name callee request := hdispatch
      exact hregistry.helper name callee (Registry.get?_of_helperCall? hhelper)
  | none =>
      rw [hhelper] at hdispatch
      cases hpath : fallbackPath? expression with
      | none => simp [hpath] at hdispatch
      | some path =>
          cases hook with
          | none => simp [hpath] at hdispatch
          | some kind =>
              cases hfound : registry.hook? kind with
              | none => simp [hpath, hfound] at hdispatch
              | some found =>
                  simp only [hpath, hfound, Option.bind_some, Option.map_some] at hdispatch
                  cases hdispatch
                  exact hregistry.hook kind _ hfound

theorem runIn_evaluate_binding (hregistry : registry.AllBind host) (hook : Option HookKind)
    (element : NodeId) (position : Position) (expression : Expression) (world : World σ) :
    (∃ text, (evaluate registry hook element position expression).runIn world =
        (.ok (.value text), world)) ∨
      ∃ state path asText, ∀ binding after,
        (bindTo host (position.shownAs asText) element path (world.textAt path)).runIn
            { world with host := state } = (.ok (.bound binding), after) →
          (evaluate registry hook element position expression).runIn world =
            (.ok (.bound binding), after) := by
  unfold evaluate
  cases hdispatch : registry.dispatch hook expression with
  | literal text => exact .inl ⟨text, rfl⟩
  | lookup path => exact .inl ⟨world.textAt path, rfl⟩
  | callee name callee request =>
      obtain ⟨pathOf, asText, hbinds⟩ := hregistry.dispatch hdispatch
      obtain ⟨state, hrun⟩ := hbinds ⟨request, element, position⟩ world
      refine .inr ⟨state, pathOf request, asText request, fun binding after hbind => ?_⟩
      have hcallee : (callee ⟨request, element, position⟩).runIn world =
          (.ok (.bound binding), after) :=
        hrun.trans ((Effect.runIn_bind_ok (Effect.runIn_get _)).trans hbind)
      simp only [Effect.runIn_adapt, hcallee]
      rfl

theorem Registry.helperCall?_of_uncalled {place : Place}
    (hcalls : registry.expressionCalls place expression = []) :
    registry.helperCall? expression = none := by
  have hnone : ∀ {name : String} {call : Call} {others : List Call},
      (if registry.helpers.contains name then [call] else others) = [] →
        registry.helpers.get? name = none := by
    intro name call others hempty
    split at hempty
    · cases hempty
    · next hcontains => simpa [Dict.contains] using hcontains
  cases expression with
  | call name params hash => simp [Registry.helperCall?, hnone hcalls]
  | path segments =>
      rcases segments with _ | ⟨name, _ | ⟨second, others⟩⟩
      · rfl
      · simp [Registry.helperCall?, hnone hcalls]
      · rfl
  | stringLiteral value => rfl
  | numberLiteral value => rfl
  | booleanLiteral value => rfl

theorem runIn_evaluate_uncalled {place : Place}
    (hcalls : registry.expressionCalls place expression = []) (element : NodeId)
    (position : Position) (world : World σ) :
    ∃ text, (evaluate registry none element position expression).runIn world =
      (.ok (.value text), world) := by
  unfold evaluate Registry.dispatch
  rw [Registry.helperCall?_of_uncalled hcalls]
  cases fallbackPath? expression with
  | none => exact ⟨literalText expression, rfl⟩
  | some path => exact ⟨world.textAt path, rfl⟩

end Evaluate

section Leaving

variable {host : Host σ} {registry : Registry σ} {world : World σ} {parent : NodeId}

theorem Leaves.congr {effect other : Effect σ RenderError (Bindings σ)} {good : Output → Prop}
    (hsame : effect.runIn world = other.runIn world) (hleaves : Leaves other parent world good) :
    Leaves effect parent world good := by
  obtain ⟨after, state, output, hrun, hfacts⟩ := hleaves
  exact ⟨after, state, output, hsame.trans hrun, hfacts⟩

theorem runIn_bindTo_content (hhost : host.Refuses fun _ => none) (world : World σ)
    (hparent : parent < world.heap.size) (asText : Bool) (path : List String) :
    ∃ (after : Heap) (state : σ) (binding : Binding σ) (output : Output),
      (bindTo host (.content asText) parent path (world.textAt path)).runIn world =
          (.ok (.bound binding), ⟨after, world.context, state⟩) ∧
        output.bindings = [binding] ∧ Grows world.heap after parent output.placed ∧
          output.UpToDate world.textAt := by
  cases asText with
  | true =>
      exact ⟨_, _, ⟨path, .text world.heap.size⟩,
        .text path world.heap.size (world.textAt path) .nil, rfl, rfl,
        (Stands.create world.heap (.text (world.textAt path))).append_text hparent, trivial,
        by simp [Output.slots, Slot.Current]⟩
  | false =>
      obtain ⟨after, state, first, others, hbind, hgrows, htrees⟩ :=
        runIn_bindFragmentTo hhost hparent path (world.textAt path)
      exact ⟨after, state, _, .run path first others .nil, hbind, rfl,
        by simpa [Output.placed] using hgrows, trivial,
        by simpa [Output.slots, Slot.Current] using htrees⟩

theorem leaves_renderContent (hhost : host.Refuses fun _ => none)
    (hregistry : registry.AllBind host) (mustache : Mustache)
    (hparent : parent < world.heap.size) :
    Leaves (renderContent host registry parent mustache) parent world
      fun output => output.UpToDate world.textAt := by
  rcases runIn_evaluate_binding hregistry (some .resolve) parent (.content mustache.escaped)
    mustache.expression world with ⟨text, hrun⟩ | ⟨state, path, asText, hrun⟩
  · have hinserted : ∃ forest,
        Answers.inserted (fun _ => none) mustache.escaped text = .ok forest := by
      unfold Answers.inserted
      split <;> exact ⟨_, rfl⟩
    obtain ⟨forest, hforest⟩ := hinserted
    have hdraws := draws_insertValue hhost mustache.escaped text world hparent
    rw [hforest] at hdraws
    exact Leaves.congr (Effect.runIn_bind_ok hrun)
      (hdraws.leaves fun added _ => Output.upToDate_still added _)
  · obtain ⟨after, later, binding, output, hbind, hbindings, hgrows, houtput⟩ :=
      runIn_bindTo_content hhost { world with host := state } hparent (asText mustache.escaped)
        path
    refine ⟨after, later, output, ?_, hgrows, houtput⟩
    rw [hbindings]
    exact (Effect.runIn_bind_ok (hrun _ _ hbind)).trans rfl

theorem runIn_renderParts_uncalled {place : Place} {parts : List Part}
    (hcalls : parts.flatMap (registry.partCalls place) = []) (element : NodeId) (name : String)
    (world : World σ) :
    ∃ text, (renderParts registry element name parts).runIn world = (.ok (text, []), world) := by
  induction parts with
  | nil => exact ⟨"", rfl⟩
  | cons part rest ih =>
      obtain ⟨hown, hothers⟩ := List.append_eq_nil_iff.mp (List.flatMap_cons ▸ hcalls)
      obtain ⟨others, hrest⟩ := ih hothers
      cases part with
      | text literal => exact ⟨literal ++ others, (Effect.runIn_bind_ok hrest).trans rfl⟩
      | mustache mustache =>
          obtain ⟨text, hrun⟩ := runIn_evaluate_uncalled hown element (.attr name) world
          exact ⟨text ++ others, (Effect.runIn_bind_ok hrun).trans
            ((Effect.runIn_bind_ok hrest).trans rfl)⟩

/-- An attribute is set, and is bound only if it shows the text at its path. -/
theorem leavesAttribute_of_callsWhole (hregistry : registry.AllBind host) {attr : Attribute}
    (hcalls : attr.soleMustache? = none → registry.attributeCalls attr = []) (world : World σ)
    (node : NodeId) :
    LeavesAttribute host registry node world
      (fun live _ => ∀ slot ∈ LiveAttribute.slots node [live], slot.Current world.textAt) attr := by
  unfold LeavesAttribute renderAttribute
  cases hstatic : attr.staticValue? with
  | some value =>
      refine ⟨_, ⟨attr.name, value, none⟩, rfl, rfl, ?_⟩
      simp [LiveAttribute.slots, LiveAttribute.slot?]
  | none =>
      cases hsole : attr.soleMustache? with
      | some mustache =>
          rcases runIn_evaluate_binding hregistry (some .resolveAttribute) node (.attr attr.name)
            mustache.expression world with ⟨text, hrun⟩ | ⟨state, path, asText, hrun⟩
          · refine ⟨_, ⟨attr.name, text, none⟩, (Effect.runIn_bind_ok hrun).trans rfl, rfl, ?_⟩
            simp [LiveAttribute.slots, LiveAttribute.slot?]
          · refine ⟨_, ⟨attr.name, world.textAt path, some path⟩,
              (Effect.runIn_bind_ok (hrun _ _ rfl)).trans rfl, rfl, ?_⟩
            simp [LiveAttribute.slots, LiveAttribute.slot?, Slot.Current]
      | none =>
          obtain ⟨text, hrun⟩ :=
            runIn_renderParts_uncalled (hcalls hsole) node attr.name world
          refine ⟨_, ⟨attr.name, text, none⟩, (Effect.runIn_bind_ok hrun).trans rfl, rfl, ?_⟩
          simp [LiveAttribute.slots, LiveAttribute.slot?]

theorem Leaves.append_upToDate {first others : Effect σ RenderError (Bindings σ)}
    (hparent : parent < world.heap.size)
    (hfirst : Leaves first parent world fun output => output.UpToDate world.textAt)
    (hrest : ∀ {middle : World σ}, parent < middle.heap.size →
      Leaves others parent middle fun output => output.UpToDate middle.textAt) :
    Leaves (do return (← first) ++ (← others)) parent world
      fun output => output.UpToDate world.textAt := by
  refine Leaves.append hparent hfirst (fun middle hcontext hbound => ?_)
    fun _ _ houtput hmore => houtput.append hmore
  rw [← World.textAt_congr hcontext]
  exact hrest hbound

theorem LiveAttribute.Keep.current {live : List LiveAttribute} {attributes : List Attribute}
    {node : NodeId} {texts : Texts}
    (hkeep : Keep (fun live _ => ∀ slot ∈ slots node [live], slot.Current texts) live attributes) :
    ∀ slot ∈ slots node live, slot.Current texts := by
  induction hkeep with
  | nil => exact List.forall_mem_nil _
  | cons hfirst _ ih =>
      rw [LiveAttribute.slots_cons]
      exact List.forall_mem_append.mpr ⟨hfirst.2, ih⟩

theorem leaves_renderNodes (hhost : host.Refuses fun _ => none)
    (hregistry : registry.AllBind host) {nodes : List Node} (hnames : NamesOnce nodes)
    (hcalls : registry.CallsWhole nodes) (hparent : parent < world.heap.size) :
    Leaves (renderNodes host registry parent nodes) parent world
      fun output => output.UpToDate world.textAt := by
  induction nodes using Node.forest_induction generalizing parent world with
  | nil =>
      exact ⟨world.heap, world.host, .nil, rfl, Grows.refl _ _, trivial, List.forall_mem_nil _⟩
  | text content rest ih =>
      have hfirst : Leaves (renderNode host registry parent (.text content)) parent world
          fun output => output.UpToDate world.textAt :=
        (draws_text content hparent).leaves fun added _ => Output.upToDate_still added _
      exact hfirst.append_upToDate hparent fun hbound => ih hnames hcalls hbound
  | mustache mustache rest ih =>
      have hfirst := leaves_renderContent hhost hregistry mustache hparent
      exact hfirst.append_upToDate hparent fun hbound => ih hnames hcalls hbound
  | element tag attributes children rest ihChildren ih =>
      obtain ⟨hnamesNode, hnamesRest⟩ := List.forall_mem_append.mp hnames
      obtain ⟨hnamesOwn, hnamesInner⟩ := List.forall_mem_cons.mp hnamesNode
      obtain ⟨hcallsNode, hcallsRest⟩ := List.forall_mem_append.mp hcalls
      obtain ⟨hcallsOwn, hcallsInner⟩ := List.forall_mem_cons.mp hcallsNode
      let keeps := fun (live : LiveAttribute) (_ : Attribute) =>
        ∀ slot ∈ LiveAttribute.slots world.heap.size [live], slot.Current world.textAt
      have hattributes : ∀ attr ∈ attributes, ∀ middle : World σ,
          middle.context = world.context →
            LeavesAttribute host registry world.heap.size middle keeps attr := by
        intro attr hattr middle hcontext
        have hleaves := leavesAttribute_of_callsWhole hregistry (hcallsOwn attr hattr) middle
          world.heap.size
        rwa [World.textAt_congr hcontext] at hleaves
      have hinner : ∀ middle : World σ, middle.context = world.context →
          world.heap.size < middle.heap.size →
            Leaves (renderNodes host registry world.heap.size children) world.heap.size middle
              fun output => output.UpToDate world.textAt := by
        intro middle hcontext hbound
        rw [← World.textAt_congr hcontext]
        exact ihChildren hnamesInner hcallsInner hbound
      have hfirst : Leaves (renderNode host registry parent (.element tag attributes children))
          parent world fun output => output.UpToDate world.textAt := by
        refine leaves_element hparent hnamesOwn hattributes hinner
          fun live output hkeep houtput => ⟨⟨?_, houtput.distinct, trivial⟩, ?_⟩
        · rw [hkeep.names]
          exact hnamesOwn
        · simp only [Output.slots, List.append_nil, List.forall_mem_append]
          exact ⟨hkeep.current, houtput.current⟩
      exact hfirst.append_upToDate hparent fun hbound => ih hnamesRest hcallsRest hbound

end Leaving

section Updating

variable {host : Host σ} {registry : Registry σ} {world : World σ} {fragment : NodeId}
  {output : Output} {forest : Texts → Forest}

theorem run_updateAll_cons {binding updated : Binding σ} {rest settled : Bindings σ}
    {middle after : World σ} {result : Except RenderError Unit}
    (hupdate : (binding.update host).runIn world = (.ok updated, middle))
    (hrest : (Binding.updateAll host rest).run middle = ((settled, result), after)) :
    (Binding.updateAll host (binding :: rest)).run world =
      ((updated :: settled, result), after) := by
  have hrun : (binding.update host).run.run world = (.ok updated, middle) := hupdate
  rw [Binding.updateAll, StateT.run_bind, hrun]
  change StateT.run (Binding.updateAll host rest >>= fun found =>
    pure (updated :: found.1, found.2)) middle = _
  rw [StateT.run_bind, hrest]
  rfl

/-- Updating the bindings from a certain one on succeeds, and keeps all that is bound up to date. -/
theorem run_updateAll (hhost : host.Refuses fun _ => none)
    (hlive : Live world fragment output forest)
    (hcurrent : ∀ slot ∈ output.slots, slot.Current world.textAt) {index count : Nat}
    (hcount : output.slots.length = index + count) :
    ∃ settled after revised,
      (Binding.updateAll host (output.bindings.drop index)).run world =
          ((settled, .ok ()), after) ∧
        after.context = world.context ∧ Live after fragment revised forest ∧
          ∀ slot ∈ revised.slots, slot.Current after.textAt := by
  induction count generalizing world output index with
  | zero =>
      have hnone : (output.bindings (σ := σ)).drop index = [] := by
        apply List.drop_of_length_le
        rw [Output.bindings, List.length_map, hcount, Nat.add_zero]
      exact ⟨[], world, output, by rw [hnone]; rfl, rfl, hlive, hcurrent⟩
  | succ count ih =>
      have hindex : index < output.slots.length := by omega
      obtain ⟨made, state, revised, updated, hrun, hreplaces, hupdated⟩ :=
        updates_of_lies hhost hlive.lies hlive.distinct (List.getElem?_eq_getElem hindex)
      let middle : World σ := ⟨made, world.context, state⟩
      have hrevised : Live middle fragment revised forest := hlive.revise hreplaces state
      have hslots : revised.slots.length = index + 1 + count := by
        rw [hreplaces.slots_eq, List.length_set, hcount, Nat.add_assoc, Nat.add_comm count]
      obtain ⟨settled, after, final, hrest, hcontext, hfinal, hcurrentFinal⟩ :=
        ih hrevised (hreplaces.current hcurrent hupdated) hslots
      refine ⟨updated.binding :: settled, after, final, ?_, hcontext, hfinal, hcurrentFinal⟩
      have hdrop : (output.bindings (σ := σ)).drop index =
          output.slots[index].binding :: revised.bindings.drop (index + 1) := by
        rw [Output.bindings, Output.bindings, ← List.map_drop, ← List.map_drop,
          hreplaces.slots_eq, List.drop_set_of_lt (Nat.lt_succ_self index),
          List.drop_eq_getElem_cons hindex, List.map_cons]
      rw [hdrop]
      exact run_updateAll_cons hrun hrest

end Updating

/-- Updating all that a rendering has bound changes nothing as long as the data is the same, with
any callees that bind what they show, in content or as whole attribute values. -/
theorem updateAll_unchanged {host : Host σ} (hhost : host.Refuses fun _ => none)
    {registry : Registry σ} (hregistry : registry.AllBind host) {nodes : List Node}
    (hnames : NamesOnce nodes) (hcalls : registry.CallsWhole nodes) (world : World σ) :
    ∃ fragment bindings rendered,
      (render host registry nodes).runIn world = (.ok (fragment, bindings), rendered) ∧
        rendered.context = world.context ∧ ∃ settled after,
          (Binding.updateAll host bindings).run rendered = ((settled, .ok ()), after) ∧
            after.heap.innerHtml fragment = rendered.heap.innerHtml fragment := by
  have hmade := Stands.create world.heap .fragment
  have hleaves : Leaves (renderNodes host registry world.heap.size nodes) world.heap.size
      (host.createFragment.run world).2 fun output => output.UpToDate world.textAt :=
    leaves_renderNodes hhost hregistry hnames hcalls hmade.size_lt
  obtain ⟨rendered, output, hrender, hcontext, houtput, hlive⟩ :=
    runIn_render_of_leaves hleaves fun _ houtput => houtput.distinct
  have hcurrent : ∀ slot ∈ output.slots, slot.Current rendered.textAt := by
    rw [World.textAt_congr hcontext]
    exact houtput.current
  obtain ⟨settled, after, revised, hupdate, hsame, hrevised, hstill⟩ :=
    run_updateAll hhost hlive hcurrent (Nat.zero_add _).symm
  refine ⟨world.heap.size, output.bindings, rendered, hrender, hcontext, settled, after,
    hupdate, ?_⟩
  rw [hrevised.innerHtml_eq hstill, hlive.innerHtml_eq hcurrent, World.textAt_congr hsame]

section Display

/-- Shows the path it is called for, or that of its first argument. -/
def display : Callee Unit :=
  bindingCallee (Host.silent Unit) Session.subjectOf fun _ escaped => escaped

def displayRegistry : Registry Unit where
  helpers := [("display", display)]
  resolve := some display
  resolveAttribute := some display

theorem displayRegistry_allBind : displayRegistry.AllBind (Host.silent Unit) := by
  have hdisplay : IsBinding (Host.silent Unit) display :=
    ⟨_, _, fun invocation world => ⟨world.host, rfl⟩⟩
  constructor
  case helper =>
    intro name callee hget
    by_cases hname : "display" = name
    · obtain rfl : display = callee := by
        simpa [displayRegistry, Dict.get?, hname] using hget
      exact hdisplay
    · simp [displayRegistry, Dict.get?, hname] at hget
  case hook =>
    intro kind callee hget
    obtain rfl : display = callee := by
      cases kind <;> exact Option.some.inj hget
    exact hdisplay

def displayed (name : String) : Mustache :=
  ⟨.call "display" [.id [name]] [], true⟩

/-- A helper and hooks in content and as whole values, and a path that is looked up for a part. -/
def displayNodes : List Node :=
  [.element "p"
    [⟨"class", [.text "card ", .mustache ⟨.path ["kind"], true⟩]⟩,
      ⟨"title", [.mustache (displayed "name")]⟩, ⟨"id", [.mustache ⟨.path ["name"], true⟩]⟩]
    [.mustache (displayed "name"), .mustache ⟨.path ["body"], false⟩]]

theorem updateAll_unchanged_display :
    (Host.silent Unit).Refuses (fun _ => none) ∧ displayRegistry.AllBind (Host.silent Unit) ∧
      NamesOnce displayNodes ∧ displayRegistry.CallsWhole displayNodes ∧
      ∃ fragment bindings rendered,
        (render (Host.silent Unit) displayRegistry displayNodes).runIn (plainWorld cardData) =
            (.ok (fragment, bindings), rendered) ∧ bindings.length = 4 ∧ ∃ settled after,
          (Binding.updateAll (Host.silent Unit) bindings).run rendered =
              ((settled, .ok ()), after) ∧
            after.heap.innerHtml fragment = rendered.heap.innerHtml fragment := by
  have hhost : (Host.silent Unit).Refuses fun _ => none := fun _ _ => rfl
  have hnames : NamesOnce displayNodes := by
    simp [NamesOnce, displayNodes, attributeLists, nodeAttributeLists]
  have hcalls : displayRegistry.CallsWhole displayNodes := by
    intro attributes hlist attr hattr hnone
    obtain rfl := List.mem_singleton.mp hlist
    simp only [List.mem_cons, List.not_mem_nil, or_false] at hattr
    rcases hattr with rfl | rfl | rfl
    · rfl
    · cases hnone
    · cases hnone
  obtain ⟨fragment, bindings, rendered, hrender, -, settled, after, hupdate, hsame⟩ :=
    updateAll_unchanged hhost displayRegistry_allBind hnames hcalls (plainWorld cardData)
  have hcount : ((render (Host.silent Unit) displayRegistry displayNodes).runIn
      (plainWorld cardData)).1.map (·.2.length) = .ok 4 := rfl
  rw [hrender] at hcount
  exact ⟨hhost, displayRegistry_allBind, hnames, hcalls, fragment, bindings, rendered, hrender,
    Except.ok.inj hcount, settled, after, hupdate, hsame⟩

def mixedNodes : List Node :=
  [.element "p" [⟨"class", [.text "a ", .mustache (displayed "x")]⟩] []]

/-- A helper in the midst of an attribute value adds nothing to it, and yet the update sets the
attribute to what the helper alone shows. -/
theorem updateAll_changes_mixed :
    (Host.silent Unit).Refuses (fun _ => none) ∧ displayRegistry.AllBind (Host.silent Unit) ∧
      parse "<p class='a {{display x}}'></p>" = .ok mixedNodes ∧ NamesOnce mixedNodes ∧
      ∃ fragment bindings rendered settled after,
        (render (Host.silent Unit) displayRegistry mixedNodes).runIn
            (plainWorld (.map [("x", .string "b")])) = (.ok (fragment, bindings), rendered) ∧
          (Binding.updateAll (Host.silent Unit) bindings).run rendered =
              ((settled, .ok ()), after) ∧
            rendered.heap.innerHtml fragment = "<p class=\"a \"></p>" ∧
              after.heap.innerHtml fragment = "<p class=\"b\"></p>" := by
  refine ⟨fun _ _ => rfl, displayRegistry_allBind, ?_, ?_, _, _, _, _, _, rfl, rfl, ?_, ?_⟩
  · have htokens : tokens "<p class='a {{display x}}'></p>".toList = .ok
        [.startTag "p" [⟨"class", [.text "a ", .mustache ⟨"display x", true, 12⟩], 3⟩] false 0,
          .endTag "p" 27] := by
      decide +kernel
    exact mapError_eq_ok_iff.mpr (bind_eq_ok_iff.mpr ⟨_, htokens, rfl⟩)
  · simp [NamesOnce, mixedNodes, attributeLists, nodeAttributeLists]
  · rfl
  · rfl

end Display

end MustacheHtml.Render
