import MustacheHtml.Render.Rendering
import MustacheHtml.Proofs.Document.Growth
import MustacheHtml.Proofs.Document.Running
import MustacheHtml.Proofs.Render.TreeSemantics
import MustacheHtml.Proofs.Template.Nodes

namespace MustacheHtml.Render

open MustacheHtml.Document
open MustacheHtml.Document.Heap
open MustacheHtml.Template

variable {σ : Type}

/-- The callee leaves the document and the data alone, and ends as the answer says. -/
def Gives (callee : Callee σ) (answer : Answer) : Prop :=
  ∀ invocation world, ∃ host, (callee invocation).runIn world =
    ((answer invocation.request invocation.position world.context).map Outcome.value,
      { world with host := host })

/-- There is a callee just where there is an answer, and it gives this answer. -/
def Matches (callee? : Option (Callee σ)) (answer? : Option Answer) : Prop :=
  (callee? = none ∧ answer? = none) ∨
    ∃ callee answer, callee? = some callee ∧ answer? = some answer ∧ Gives callee answer

/-- Every callee of the registry gives its answer, and no other is asked. -/
structure Registry.Gives (registry : Registry σ) (answers : Answers) : Prop where
  helper : ∀ name, Matches (registry.helpers.get? name) (answers.helper? name)
  hook : ∀ kind, Matches (registry.hook? kind) (answers.hook? kind)

section Evaluate

variable {registry : Registry σ} {answers : Answers} {expression : Expression} {place : Place}
  {path : List String}

theorem runIn_callee {callee : Callee σ} {answer : Answer} (hgives : Gives callee answer)
    (name : String) (request : Request) (element : NodeId) (place : Place) (world : World σ) :
    ∃ host, Effect.runIn (ExceptT.adapt (RenderError.resolution name)
        (callee ⟨request, element, place.position⟩)) world =
      ((Answers.ask world.context answer name request place).map Outcome.value,
        { world with host := host }) := by
  obtain ⟨host, hrun⟩ := hgives ⟨request, element, place.position⟩ world
  refine ⟨host, ?_⟩
  rw [Effect.runIn_adapt, hrun, Answers.ask]
  cases answer request place.position world.context <;> rfl

theorem runIn_evaluate_path (hregistry : registry.Gives answers)
    (hhelper : registry.helperCall? expression = none)
    (hpath : fallbackPath? expression = some path) (element : NodeId) (world : World σ) :
    ∃ host, (evaluate registry place.hook element place.position expression).runIn world =
      ((answers.pathString world.context place path).map Outcome.value,
        { world with host := host }) := by
  unfold evaluate Registry.dispatch Answers.pathString
  rw [hhelper, hpath]
  cases place.hook with
  | none => exact ⟨world.host, rfl⟩
  | some kind =>
      rcases hregistry.hook kind with ⟨hcallee, hanswer⟩ |
        ⟨callee, answer, hcallee, hanswer, hgives⟩
      · simp only [hcallee, hanswer, Option.bind_some, Option.map_none]
        exact ⟨world.host, rfl⟩
      · simp only [hcallee, hanswer, Option.bind_some, Option.map_some]
        exact runIn_callee hgives kind.name (.path path) element place world

theorem runIn_evaluate_helper {callee : Callee σ} {answer : Answer} {name : String}
    {request : Request} (hgives : Gives callee answer)
    (hhelper : registry.helperCall? expression = some (.callee name callee request))
    (element : NodeId) (world : World σ) :
    ∃ host, (evaluate registry place.hook element place.position expression).runIn world =
      ((Answers.ask world.context answer name request place).map Outcome.value,
        { world with host := host }) := by
  unfold evaluate Registry.dispatch
  rw [hhelper]
  exact runIn_callee hgives name request element place world

theorem runIn_evaluate_literal (hhelper : registry.helperCall? expression = none)
    (hpath : fallbackPath? expression = none) (hook : Option HookKind) (element : NodeId)
    (position : Position) (world : World σ) :
    (evaluate registry hook element position expression).runIn world =
      (.ok (.value (literalText expression)), world) := by
  unfold evaluate Registry.dispatch
  rw [hhelper, hpath]
  rfl

theorem runIn_evaluate (hregistry : registry.Gives answers) (element : NodeId) (place : Place)
    (expression : Expression) (world : World σ) :
    ∃ host, (evaluate registry place.hook element place.position expression).runIn world =
      ((answers.string world.context place expression).map Outcome.value,
        { world with host := host }) := by
  cases expression with
  | call name params hash =>
      rcases hregistry.helper name with
        ⟨hcallee, hanswer⟩ | ⟨callee, answer, hcallee, hanswer, hgives⟩
      · simp only [Answers.string, hanswer]
        exact runIn_evaluate_path hregistry (by simp [Registry.helperCall?, hcallee]) rfl element
          world
      · simp only [Answers.string, hanswer]
        exact runIn_evaluate_helper hgives (by simp [Registry.helperCall?, hcallee]) element world
  | path segments =>
      match segments with
      | [name] =>
          rcases hregistry.helper name with
            ⟨hcallee, hanswer⟩ | ⟨callee, answer, hcallee, hanswer, hgives⟩
          · simp only [Answers.string, hanswer]
            exact runIn_evaluate_path hregistry (by simp [Registry.helperCall?, hcallee]) rfl
              element world
          · simp only [Answers.string, hanswer]
            exact runIn_evaluate_helper hgives (by simp [Registry.helperCall?, hcallee]) element
              world
      | [] => exact runIn_evaluate_path hregistry rfl rfl element world
      | _ :: _ :: _ => exact runIn_evaluate_path hregistry rfl rfl element world
  | stringLiteral value => exact ⟨world.host, runIn_evaluate_literal rfl rfl _ _ _ world⟩
  | numberLiteral value => exact ⟨world.host, runIn_evaluate_literal rfl rfl _ _ _ world⟩
  | booleanLiteral value => exact ⟨world.host, runIn_evaluate_literal rfl rfl _ _ _ world⟩

end Evaluate

/-- The computation appends the trees of the forest to the node and changes nothing else, or it
fails as the semantics does. -/
def Draws (effect : Effect σ RenderError (Bindings σ)) (parent : NodeId) (world : World σ) :
    Except RenderError Forest → Prop
  | .ok forest => ∃ after added, effect.runIn world = (.ok [], after) ∧
      after.context = world.context ∧ Placed.trees added = forest ∧
        Grows world.heap after.heap parent added
  | .error error => ∃ after, effect.runIn world = (.error error, after)

section Drawing

variable {host : Host σ} {registry : Registry σ} {answers : Answers}
  {refusal? : String → Option String}

theorem draws_insertValue (hhost : host.Refuses refusal?) {parent : NodeId} (escaped : Bool)
    (value : String) (world : World σ) (hparent : parent < world.heap.size) :
    Draws ((Outcome.value value).finish (insertValue host parent escaped)) parent world
      (Answers.inserted refusal? escaped value) := by
  cases escaped with
  | true =>
      have htext := (Stands.create world.heap (.text value)).append_text hparent
      exact ⟨_, [.text world.heap.size value], rfl, rfl, rfl, htext⟩
  | false =>
      unfold Answers.inserted
      have hparse := Effect.runIn_adapt RenderError.markup (host.parseFragment value) world
      cases hrefused : refusal? value with
      | some message =>
          rw [Host.runIn_parseFragment_refused world hhost hrefused] at hparse
          have hinsert : (insertValue host parent false value).runIn world = _ :=
            Effect.runIn_bind_error hparse
          exact ⟨_, Effect.runIn_bind_error hinsert⟩
      | none =>
          rw [Host.runIn_parseFragment world hhost hrefused] at hparse
          obtain ⟨-, placed, htrees, hstands⟩ := parseFragment_stands world.heap value
          have hinsert : (insertValue host parent false value).runIn world = _ :=
            Effect.runIn_bind_ok hparse
          exact ⟨_, placed, (Effect.runIn_bind_ok hinsert).trans rfl, rfl, htrees,
            hstands.append_fragment hparent⟩

theorem draws_renderContent (hhost : host.Refuses refusal?) (hregistry : registry.Gives answers)
    {parent : NodeId} (mustache : Mustache) {world : World σ} (hparent : parent < world.heap.size) :
    Draws (renderContent host registry parent mustache) parent world
      (answers.mustacheForest world.context refusal? mustache) := by
  obtain ⟨state, hrun⟩ := runIn_evaluate hregistry parent (.content mustache.escaped)
    mustache.expression world
  unfold Answers.mustacheForest
  cases hstring : answers.string world.context (.content mustache.escaped) mustache.expression with
  | error error =>
      rw [hstring] at hrun
      exact ⟨_, Effect.runIn_bind_error hrun⟩
  | ok value =>
      rw [hstring] at hrun
      let insert := fun outcome : Outcome σ =>
        outcome.finish (insertValue host parent mustache.escaped)
      have hrest : (renderContent host registry parent mustache).runIn world =
          (insert (.value value)).runIn { world with host := state } :=
        Effect.runIn_bind_ok hrun
      have hdraws := draws_insertValue hhost mustache.escaped value
        { world with host := state } hparent
      simp only [bind, Except.bind]
      revert hdraws
      cases Answers.inserted refusal? mustache.escaped value with
      | error error =>
          rintro ⟨after, hinsert⟩
          exact ⟨after, hrest.trans hinsert⟩
      | ok forest =>
          rintro ⟨after, added, hinsert, hfacts⟩
          exact ⟨after, added, hrest.trans hinsert, hfacts⟩

theorem runIn_prepend {others : Effect σ RenderError (String × Bindings σ)} {world : World σ}
    {rest : Except RenderError String} (own : String)
    (hothers : ∃ host, others.runIn world = (rest.map (·, []), { world with host := host })) :
    ∃ host, Effect.runIn (others >>= fun found => pure (own ++ found.1, found.2)) world =
      ((do .ok (own ++ (← rest))).map (·, []), { world with host := host }) := by
  obtain ⟨state, hrun⟩ := hothers
  refine ⟨state, ?_⟩
  cases rest with
  | error error => exact Effect.runIn_bind_error hrun
  | ok value => exact Effect.runIn_bind_ok hrun

theorem runIn_renderParts (hregistry : registry.Gives answers) (element : NodeId) (name : String)
    (parts : List Part) (world : World σ) :
    ∃ host, (renderParts registry element name parts).runIn world =
      ((answers.partsString world.context (.partOfValue name) parts).map (·, []),
        { world with host := host }) := by
  induction parts generalizing world with
  | nil => exact ⟨world.host, rfl⟩
  | cons part rest ih =>
      cases part with
      | text literal => exact runIn_prepend literal (ih world)
      | mustache mustache =>
          obtain ⟨state, hrun⟩ := runIn_evaluate hregistry element (.partOfValue name)
            mustache.expression world
          cases hown : answers.string world.context (.partOfValue name) mustache.expression with
          | error error =>
              rw [hown] at hrun
              simp only [Answers.partsString, Answers.partString, hown]
              exact ⟨state, Effect.runIn_bind_error hrun⟩
          | ok own =>
              rw [hown] at hrun
              obtain ⟨later, hrest⟩ := runIn_prepend own (ih { world with host := state })
              simp only [Answers.partsString, Answers.partString, hown]
              exact ⟨later, (Effect.runIn_bind_ok hrun).trans hrest⟩

/-- The computation leaves the element that stands alone with the attributes, or it fails as the
semantics does. -/
def Sets (effect : Effect σ RenderError (Bindings σ)) (heap : Heap) (tag : String)
    (world : World σ) : Except RenderError Attributes → Prop
  | .ok attributes => ∃ after, effect.runIn world = (.ok [], after) ∧
      after.context = world.context ∧ Stands heap after.heap (.element tag attributes) []
  | .error error => ∃ after, effect.runIn world = (.error error, after)

theorem partsString_literals (answers : Answers) (data : Value) (place : Place)
    (literals : List String) :
    answers.partsString data place (literals.map Part.text) = .ok (String.join literals) := by
  induction literals with
  | nil => rfl
  | cons literal rest ih =>
      simp only [List.map_cons, Answers.partsString, Answers.partString, ih, bind, Except.bind,
        String.join_cons]

theorem partsString_sole (answers : Answers) (data : Value) (place : Place) (mustache : Mustache) :
    answers.partsString data place [.mustache mustache] =
      answers.string data place mustache.expression := by
  simp only [Answers.partsString, Answers.partString, bind, Except.bind]
  cases answers.string data place mustache.expression <;> simp

theorem Place.inValue_of_sole {attr : Attribute} {mustache : Mustache}
    (hvalue : attr.value = [.mustache mustache]) :
    Place.inValue attr = .wholeValue attr.name := by
  simp [Place.inValue, hvalue]

theorem Place.inValue_of_mixed {attr : Attribute} (hstatic : attr.staticValue? = none)
    (hsole : attr.soleMustache? = none) : Place.inValue attr = .partOfValue attr.name := by
  unfold Place.inValue
  split
  · next hlength =>
      obtain ⟨part, hvalue⟩ := List.length_eq_one_iff.mp hlength
      cases part with
      | text literal =>
          have := Attribute.staticValue?_eq_some_iff.mpr ⟨[literal], hvalue, rfl⟩
          simp [hstatic] at this
      | mustache mustache =>
          have := Attribute.soleMustache?_eq_some_iff.mpr hvalue
          simp [hsole] at this
  · rfl

variable {heap : Heap} {tag : String} {held : Attributes} {world : World σ}

theorem sets_renderSole (hregistry : registry.Gives answers) (name : String) (mustache : Mustache)
    (hstands : Stands heap world.heap (.element tag held) []) :
    Sets (renderSole host registry heap.size name mustache) heap tag world
      ((answers.string world.context (.wholeValue name) mustache.expression).map
        (held.set name ·)) := by
  obtain ⟨state, hrun⟩ := runIn_evaluate hregistry heap.size (.wholeValue name)
    mustache.expression world
  cases hstring : answers.string world.context (.wholeValue name) mustache.expression with
  | error error =>
      rw [hstring] at hrun
      exact ⟨_, Effect.runIn_bind_error hrun⟩
  | ok value =>
      rw [hstring] at hrun
      exact ⟨_, (Effect.runIn_bind_ok hrun).trans rfl, rfl, hstands.setAttribute name value⟩

theorem sets_renderAttribute (hregistry : registry.Gives answers) (attr : Attribute)
    (hstands : Stands heap world.heap (.element tag held) []) :
    Sets (renderAttribute host registry heap.size attr) heap tag world
      ((answers.partsString world.context (.inValue attr) attr.value).map
        (held.set attr.name ·)) := by
  unfold renderAttribute
  cases hstatic : attr.staticValue? with
  | some value =>
      obtain ⟨literals, hvalue, rfl⟩ := Attribute.staticValue?_eq_some_iff.mp hstatic
      rw [hvalue, partsString_literals]
      exact ⟨_, rfl, rfl, hstands.setAttribute attr.name _⟩
  | none =>
      cases hsole : attr.soleMustache? with
      | some mustache =>
          have hvalue := Attribute.soleMustache?_eq_some_iff.mp hsole
          rw [Place.inValue_of_sole hvalue, hvalue, partsString_sole]
          exact sets_renderSole hregistry attr.name mustache hstands
      | none =>
          rw [Place.inValue_of_mixed hstatic hsole]
          obtain ⟨state, hrun⟩ :=
            runIn_renderParts hregistry heap.size attr.name attr.value world
          cases hstring : answers.partsString world.context (.partOfValue attr.name) attr.value with
          | error error =>
              rw [hstring] at hrun
              exact ⟨_, Effect.runIn_bind_error hrun⟩
          | ok value =>
              rw [hstring] at hrun
              exact ⟨_, (Effect.runIn_bind_ok hrun).trans rfl, rfl,
                hstands.setAttribute attr.name value⟩

theorem sets_renderAttributes (hregistry : registry.Gives answers) (attributes : List Attribute)
    (hstands : Stands heap world.heap (.element tag held) []) :
    Sets (renderAttributes host registry heap.size attributes) heap tag world
      (answers.setAttributes world.context held attributes) := by
  induction attributes generalizing held world with
  | nil => exact ⟨world, rfl, rfl, hstands⟩
  | cons attr rest ih =>
      have hfirst : Sets (renderAttribute host registry heap.size attr) heap tag world _ :=
        sets_renderAttribute hregistry attr hstands
      unfold Answers.setAttributes
      revert hfirst
      cases answers.partsString world.context (.inValue attr) attr.value with
      | error error =>
          rintro ⟨after, hrun⟩
          exact ⟨after, Effect.runIn_bind_error hrun⟩
      | ok value =>
          rintro ⟨middle, hrun, hcontext, hset⟩
          have hrest := ih hset
          rw [hcontext] at hrest
          simp only [bind, Except.bind]
          revert hrest
          cases answers.setAttributes world.context (held.set attr.name value) rest with
          | error error =>
              rintro ⟨after, hothers⟩
              exact ⟨after, (Effect.runIn_bind_ok hrun).trans (Effect.runIn_bind_error hothers)⟩
          | ok settled =>
              rintro ⟨after, hothers, hafter, hstandsAfter⟩
              exact ⟨after, (Effect.runIn_bind_ok hrun).trans (Effect.runIn_bind_ok hothers),
                hafter.trans hcontext, hstandsAfter⟩

theorem Draws.append {first others : Effect σ RenderError (Bindings σ)} {parent : NodeId}
    {own rest : Except RenderError Forest} (hparent : parent < world.heap.size)
    (hfirst : Draws first parent world own)
    (hrest : ∀ middle : World σ, middle.context = world.context → parent < middle.heap.size →
      Draws others parent middle rest) :
    Draws (do return (← first) ++ (← others)) parent world
      (do .ok ((← own) ++ (← rest))) := by
  cases own with
  | error error =>
      obtain ⟨after, hrun⟩ := hfirst
      exact ⟨after, Effect.runIn_bind_error hrun⟩
  | ok forest =>
      obtain ⟨middle, added, hrun, hcontext, htrees, hgrows⟩ := hfirst
      have hothers := hrest middle hcontext (Nat.lt_of_lt_of_le hparent hgrows.size_le)
      cases rest with
      | error error =>
          obtain ⟨after, hafter⟩ := hothers
          exact ⟨after, (Effect.runIn_bind_ok hrun).trans (Effect.runIn_bind_error hafter)⟩
      | ok more =>
          obtain ⟨after, later, hafter, hafterContext, hlater, hmore⟩ := hothers
          refine ⟨after, added ++ later,
            (Effect.runIn_bind_ok hrun).trans (Effect.runIn_bind_ok hafter),
            hafterContext.trans hcontext, ?_, hgrows.trans hparent hmore⟩
          rw [Placed.trees_append, htrees, hlater]

theorem draws_text {parent : NodeId} (content : String) (hparent : parent < world.heap.size) :
    Draws (renderNode host registry parent (.text content)) parent world
      (.ok [.text content]) :=
  ⟨_, [.text world.heap.size content], rfl, rfl, rfl,
    (Stands.create world.heap (.text content)).append_text hparent⟩

theorem draws_element (hregistry : registry.Gives answers) {parent : NodeId}
    {attributes : List Attribute} {children : List Node} {inner : Except RenderError Forest}
    (hparent : parent < world.heap.size)
    (hchildren : ∀ middle : World σ, middle.context = world.context →
      world.heap.size < middle.heap.size →
        Draws (renderNodes host registry world.heap.size children) world.heap.size middle inner) :
    Draws (renderNode host registry parent (.element tag attributes children)) parent world
      (do
        let attributes ← answers.setAttributes world.context [] attributes
        .ok [.element tag attributes (← inner)]) := by
  have hcreate := Effect.runIn_lift (ε := RenderError) (host.createElement tag) world
  have hsets : Sets (renderAttributes host registry world.heap.size attributes) world.heap tag
      ((host.createElement tag).run world).2 (answers.setAttributes world.context [] attributes) :=
    sets_renderAttributes hregistry attributes (Stands.create world.heap (.element tag []))
  revert hsets
  cases answers.setAttributes world.context [] attributes with
  | error error =>
      rintro ⟨after, hrun⟩
      exact ⟨after, (Effect.runIn_bind_ok hcreate).trans (Effect.runIn_bind_error hrun)⟩
  | ok settled =>
      rintro ⟨named, hrun, hcontext, hstands⟩
      have happend := Effect.runIn_lift (ε := RenderError)
        (host.appendChild parent world.heap.size) named
      have hsize := hstands.size_append (by simp) hparent
      have hinner := hchildren ((host.appendChild parent world.heap.size).run named).2 hcontext
        (hsize ▸ hstands.size_lt)
      revert hinner
      cases inner with
      | error error =>
          rintro ⟨after, hrest⟩
          exact ⟨after, (Effect.runIn_bind_ok hcreate).trans ((Effect.runIn_bind_ok hrun).trans
            ((Effect.runIn_bind_ok happend).trans (Effect.runIn_bind_error hrest)))⟩
      | ok forest =>
          rintro ⟨after, added, hrest, hafter, htrees, hgrows⟩
          refine ⟨after, [.element world.heap.size tag settled ([] ++ added)],
            (Effect.runIn_bind_ok hcreate).trans ((Effect.runIn_bind_ok hrun).trans
              ((Effect.runIn_bind_ok happend).trans (Effect.runIn_bind_ok hrest))),
            hafter.trans hcontext, ?_, hstands.append_element hparent hgrows⟩
          simp [Placed.trees, Placed.tree, htrees]

/-- Rendering nodes appends the forest that they stand for. -/
theorem draws_renderNodes (hhost : host.Refuses refusal?) (hregistry : registry.Gives answers)
    {parent : NodeId} (nodes : List Node) (hparent : parent < world.heap.size) :
    Draws (renderNodes host registry parent nodes) parent world
      (answers.forest world.context refusal? nodes) := by
  induction nodes using Node.forest_induction generalizing parent world with
  | nil => exact ⟨world, [], rfl, rfl, rfl, Grows.refl _ _⟩
  | text content rest ih =>
      apply Draws.append hparent (draws_text content hparent)
      intro middle hcontext hbound
      rw [← hcontext]
      exact ih hbound
  | mustache mustache rest ih =>
      refine Draws.append hparent (draws_renderContent hhost hregistry mustache hparent)
        fun middle hcontext hbound => ?_
      rw [← hcontext]
      exact ih hbound
  | element tag attributes children rest ihChildren ih =>
      refine Draws.append hparent (draws_element hregistry hparent fun middle hcontext hbound => ?_)
        fun middle hcontext hbound => ?_
      · rw [← hcontext]
        exact ihChildren hbound
      · rw [← hcontext]
        exact ih hbound

/-- Rendering into a new fragment: the fragment shows the forest of the nodes, no binding is made,
and whatever was there before is unchanged. -/
def DrawsFragment (effect : Effect σ RenderError (NodeId × Bindings σ)) (world : World σ) :
    Except RenderError Forest → Prop
  | .ok forest => ∃ after placed, effect.runIn world = (.ok (world.heap.size, []), after) ∧
      after.context = world.context ∧ Stands world.heap after.heap .fragment placed ∧
        after.heap.innerForest world.heap.size = forest ∧
          after.heap.innerHtml world.heap.size = String.ofList (Tree.forestHtml false forest)
  | .error error => ∃ after, effect.runIn world = (.error error, after)

theorem drawsFragment_render (hhost : host.Refuses refusal?) (hregistry : registry.Gives answers)
    (nodes : List Node) (world : World σ) :
    DrawsFragment (render host registry nodes) world
      (answers.forest world.context refusal? nodes) := by
  have hcreate := Effect.runIn_lift (ε := RenderError) host.createFragment world
  have hmade := Stands.create world.heap .fragment
  have hdraws : Draws (renderNodes host registry world.heap.size nodes) world.heap.size
      (host.createFragment.run world).2 (answers.forest world.context refusal? nodes) :=
    draws_renderNodes hhost hregistry nodes hmade.size_lt
  revert hdraws
  cases answers.forest world.context refusal? nodes with
  | error error =>
      rintro ⟨after, hrun⟩
      exact ⟨after, (Effect.runIn_bind_ok hcreate).trans (Effect.runIn_bind_error hrun)⟩
  | ok forest =>
      rintro ⟨after, placed, hrun, hcontext, htrees, hgrows⟩
      have hstands := hmade.grow hgrows
      rw [← htrees]
      exact ⟨after, placed, (Effect.runIn_bind_ok hcreate).trans (Effect.runIn_bind_ok hrun),
        hcontext, hstands, hstands.innerForest_eq, hstands.innerHtml_eq⟩

end Drawing

section Total

variable {answers : Answers} {refusal? : String → Option String}

theorem Answers.Total.ask {answer : Answer} {request : Request} {place : Place} {data : Value}
    (hanswer : ∃ value, answer request place.position data = .ok value) (name : String) :
    ∃ value, Answers.ask data answer name request place = .ok value := by
  obtain ⟨value, hvalue⟩ := hanswer
  exact ⟨value, by rw [Answers.ask, hvalue]; rfl⟩

theorem Answers.Total.pathString (htotal : answers.Total) (data : Value) (place : Place)
    (path : List String) : ∃ value, answers.pathString data place path = .ok value := by
  unfold Answers.pathString
  split
  · exact ⟨_, rfl⟩
  · split
    · next answer hanswer => exact ask (htotal.hook _ answer hanswer _ _ _) _
    · exact ⟨_, rfl⟩

theorem Answers.Total.string (htotal : answers.Total) (data : Value) (place : Place)
    (expression : Expression) : ∃ value, answers.string data place expression = .ok value := by
  unfold Answers.string
  split
  · split
    · next answer hanswer => exact ask (htotal.helper _ answer hanswer _ _ _) _
    · exact htotal.pathString data place _
  · split
    · next answer hanswer => exact ask (htotal.helper _ answer hanswer _ _ _) _
    · exact htotal.pathString data place _
  · exact htotal.pathString data place _
  · exact ⟨_, rfl⟩
  · exact ⟨_, rfl⟩
  · exact ⟨_, rfl⟩

theorem Answers.Total.partsString (htotal : answers.Total) (data : Value) (place : Place)
    (parts : List Part) : ∃ value, answers.partsString data place parts = .ok value := by
  induction parts with
  | nil => exact ⟨_, rfl⟩
  | cons part rest ih =>
      obtain ⟨others, hothers⟩ := ih
      have hown : ∃ own, answers.partString data place part = .ok own := by
        cases part with
        | text literal => exact ⟨_, rfl⟩
        | mustache mustache => exact htotal.string data place mustache.expression
      obtain ⟨own, hown⟩ := hown
      exact ⟨own ++ others, by simp [Answers.partsString, hown, hothers, bind, Except.bind]⟩

theorem Answers.Total.setAttributes (htotal : answers.Total) (data : Value) (held : Attributes)
    (attributes : List Attribute) :
    ∃ settled, answers.setAttributes data held attributes = .ok settled := by
  induction attributes generalizing held with
  | nil => exact ⟨_, rfl⟩
  | cons attr rest ih =>
      obtain ⟨value, hvalue⟩ := htotal.partsString data (.inValue attr) attr.value
      obtain ⟨settled, hsettled⟩ := ih (held.set attr.name value)
      exact ⟨settled, by simp [Answers.setAttributes, hvalue, hsettled, bind, Except.bind]⟩

/-- Where no callee fails and no markup is refused, every template stands for a forest. -/
theorem Answers.Total.forest (htotal : answers.Total) (haccepts : ∀ markup, refusal? markup = none)
    (data : Value) (nodes : List Node) :
    ∃ forest, answers.forest data refusal? nodes = .ok forest := by
  induction nodes using Node.forest_induction with
  | nil => exact ⟨_, rfl⟩
  | text content rest ih =>
      obtain ⟨others, hothers⟩ := ih
      exact ⟨.text content :: others, by
        simp [Answers.forest, Answers.nodeForest, hothers, bind, Except.bind]⟩
  | mustache mustache rest ih =>
      obtain ⟨others, hothers⟩ := ih
      obtain ⟨value, hvalue⟩ :=
        htotal.string data (.content mustache.escaped) mustache.expression
      have hown : ∃ own, answers.mustacheForest data refusal? mustache = .ok own := by
        simp only [Answers.mustacheForest, hvalue, bind, Except.bind, Answers.inserted, haccepts]
        split <;> exact ⟨_, rfl⟩
      obtain ⟨own, hown⟩ := hown
      exact ⟨own ++ others,
        by simp [Answers.forest, Answers.nodeForest, hown, hothers, bind, Except.bind]⟩
  | element tag attributes children rest ihChildren ih =>
      obtain ⟨settled, hsettled⟩ := htotal.setAttributes data [] attributes
      obtain ⟨inner, hinner⟩ := ihChildren
      obtain ⟨others, hothers⟩ := ih
      exact ⟨.element tag settled inner :: others, by
        simp [Answers.forest, Answers.nodeForest, hsettled, hinner, hothers, bind, Except.bind]⟩

end Total

section Greeting

/-- The callee that gives an answer and changes nothing. -/
def Answer.toCallee (answer : Answer) : Callee σ := fun invocation => do
  match answer invocation.request invocation.position (← get).context with
  | .ok value => return .value value
  | .error cause => throw cause

theorem gives_toCallee (answer : Answer) : Gives (answer.toCallee : Callee σ) answer := by
  intro invocation world
  refine ⟨world.host, ?_⟩
  refine (Effect.runIn_bind_ok (Effect.runIn_get world)).trans ?_
  cases answer invocation.request invocation.position world.context <;> rfl

def greet : Answer := fun _ _ data => .ok ("<b>" ++ (data.lookup ["name"]).render ++ "</b>")

def spellPath : Answer := fun request _ _ =>
  match request with
  | .path segments => .ok (".".intercalate segments)
  | .call _ _ => .error "no path"

def greetingAnswers : Answers where
  helper? := fun name => if "greet" = name then some greet else none
  resolveAttribute := some spellPath

def greetingRegistry : Registry Unit where
  helpers := [("greet", greet.toCallee)]
  resolveAttribute := some spellPath.toCallee

def greetingData : Value :=
  .map [("kind", .string "wide"), ("name", .string "Ada")]

theorem greetingRegistry_gives : greetingRegistry.Gives greetingAnswers where
  helper := by
    intro name
    by_cases hname : "greet" = name
    · exact .inr ⟨greet.toCallee, greet, by simp [greetingRegistry, Dict.get?, hname],
        by simp [greetingAnswers, hname], gives_toCallee greet⟩
    · exact .inl ⟨by simp [greetingRegistry, Dict.get?, hname], by simp [greetingAnswers, hname]⟩
  hook := by
    intro kind
    cases kind with
    | resolve => exact .inl ⟨rfl, rfl⟩
    | resolveAttribute => exact .inr ⟨spellPath.toCallee, spellPath, rfl, rfl, gives_toCallee _⟩

end Greeting

end MustacheHtml.Render
