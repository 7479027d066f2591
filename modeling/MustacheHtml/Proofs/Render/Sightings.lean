import MustacheHtml.Proofs.Render.Cuts

namespace MustacheHtml.Render

open MustacheHtml.Document
open MustacheHtml.Document.Heap
open MustacheHtml.Template

variable {σ : Type}

/-- The sighting is the visit, with the document grown by the cut of the visit. -/
structure Meets (base : Heap) (target : NodeId) (visit : Visit) (sighting : Sighting) : Prop where
  call_eq : sighting.call = visit.call
  failure_eq : sighting.failure = visit.failure
  found : visit.cut.Found base target sighting.heap sighting.element

/-- The sightings are the visits; a callee that fails ends the computation, and leaves the document
as it found it. -/
structure Told {γ : Type} (base : Heap) (target : NodeId) (visits : List Visit) (seen : Sightings)
    (result : Except RenderError γ) (after : Heap) : Prop where
  meets : List.Forall₂ (Meets base target) visits seen
  ends : ∀ sighting ∈ seen, ∀ cause, sighting.failure = some cause →
    result = .error (.resolution sighting.call.addressee.name cause) ∧ after = sighting.heap

section Told

variable {γ δ : Type} {base start : Heap} {target element : NodeId} {visits more : List Visit}
  {seen seenMore : Sightings} {middle after : Heap} {result : Except RenderError δ}

theorem Told.nil (base : Heap) (target : NodeId) (result : Except RenderError γ) (after : Heap) :
    Told base target [] [] result after where
  meets := .nil
  ends := fun _ hmem => nomatch hmem

theorem Told.append {content : γ} (hfirst : Told base target visits seen (.ok content) middle)
    (hmore : Told base target more seenMore result after) :
    Told base target (visits ++ more) (seen ++ seenMore) result after where
  meets := List.rel_append hfirst.meets hmore.meets
  ends := by
    intro sighting hmem cause hfailure
    rcases List.mem_append.mp hmem with hmem | hmem
    · obtain ⟨hresult, -⟩ := hfirst.ends sighting hmem cause hfailure
      cases hresult
    · exact hmore.ends sighting hmem cause hfailure

theorem Told.error {error : RenderError}
    (htold : Told (γ := γ) base target visits seen (.error error) after) :
    Told (γ := δ) base target visits seen (.error error) after where
  meets := htold.meets
  ends := by
    intro sighting hmem cause hfailure
    obtain ⟨hresult, hafter⟩ := htold.ends sighting hmem cause hfailure
    cases hresult
    exact ⟨rfl, hafter⟩

theorem Told.recut {change : Cut → Cut}
    (hchange : ∀ {cut heap id}, Cut.Found cut start element heap id →
      (change cut).Found base target heap id)
    (htold : Told start element visits seen result after) :
    Told base target (visits.map (Visit.recut change)) seen result after where
  meets := by
    refine List.forall₂_map_left_iff.mpr (htold.meets.imp fun visit sighting hmeets => ?_)
    exact ⟨hmeets.call_eq, hmeets.failure_eq, hchange hmeets.found⟩
  ends := htold.ends

end Told

/-- Watched, the computation does the same, and what is seen on the way are the visits. -/
def Watches {α β γ : Type} (plain : Effect σ RenderError α)
    (watched : Effect (σ × Sightings) RenderError β) (value : γ → α) (seenValue : γ → β)
    (world : World σ) (base : Heap) (target : NodeId) (visits : List Visit)
    (result : Except RenderError γ) : Prop :=
  ∃ after seen, Alike plain watched value seenValue world result after seen ∧
    Told base target visits seen result after.heap

section Watches

variable {α β γ α' β' δ : Type} {plain : Effect σ RenderError α}
  {watched : Effect (σ × Sightings) RenderError β} {value : γ → α} {seenValue : γ → β}
  {next : α → Effect σ RenderError α'} {nextWatched : β → Effect (σ × Sightings) RenderError β'}
  {nextValue : δ → α'} {nextSeen : δ → β'} {world : World σ} {base start : Heap}
  {target element : NodeId} {visits : List Visit} {outcome : Except RenderError γ}
  {result : Except RenderError δ}

theorem Watches.pure (content : γ) (value : γ → α) (seenValue : γ → β) (world : World σ)
    (base : Heap) (target : NodeId) :
    Watches (pure (value content)) (pure (seenValue content)) value seenValue world base target []
      (.ok content) :=
  ⟨world, [], Alike.pure content value seenValue world, Told.nil _ _ _ _⟩

theorem Watches.bind {more : γ → List Visit} {rest : γ → Except RenderError δ}
    (hfirst : Watches plain watched value seenValue world base target visits outcome)
    (hnext : ∀ content middle, outcome = .ok content →
      plain.runIn world = (.ok (value content), middle) →
        Watches (next (value content)) (nextWatched (seenValue content)) nextValue nextSeen middle
          base target (more content) (rest content)) :
    Watches (plain >>= next) (watched >>= nextWatched) nextValue nextSeen world base target
      (visits ++ proceed outcome more) (outcome >>= rest) := by
  obtain ⟨middle, seen, halike, htold⟩ := hfirst
  cases outcome with
  | error error =>
      rw [proceed, List.append_nil]
      exact ⟨middle, seen, halike.bind_error nextValue nextSeen, htold.error⟩
  | ok content =>
      obtain ⟨after, seenMore, hmore, htoldMore⟩ := hnext content middle rfl halike.plain_eq
      exact ⟨after, seen ++ seenMore, halike.bind_ok hmore, htold.append htoldMore⟩

theorem Watches.bind_silent {rest : γ → Except RenderError δ}
    (hfirst : Watches plain watched value seenValue world base target visits outcome)
    (hnext : ∀ content middle, outcome = .ok content →
      plain.runIn world = (.ok (value content), middle) →
        Watches (next (value content)) (nextWatched (seenValue content)) nextValue nextSeen middle
          base target [] (rest content)) :
    Watches (plain >>= next) (watched >>= nextWatched) nextValue nextSeen world base target visits
      (outcome >>= rest) := by
  have hnone : proceed outcome (fun _ => []) = [] := by cases outcome <;> rfl
  have hall := hfirst.bind hnext
  rwa [hnone, List.append_nil] at hall

theorem Watches.followed {nextValue : γ → α'} {nextSeen : γ → β'}
    (hfirst : Watches plain watched value seenValue world base target visits outcome)
    (hnext : ∀ content middle, Watches (next (value content)) (nextWatched (seenValue content))
      nextValue nextSeen middle base target [] (.ok content)) :
    Watches (plain >>= next) (watched >>= nextWatched) nextValue nextSeen world base target visits
      outcome := by
  have hall := hfirst.bind_silent fun content middle _ _ => hnext content middle
  have hsame : outcome >>= Except.ok = outcome := by cases outcome <;> rfl
  rwa [hsame] at hall

theorem Watches.act (content : γ) {action : StateM (World σ) Unit}
    {beside : StateM (World (σ × Sightings)) Unit}
    (haction : ∀ earlier, beside.run (world.beside earlier) =
      ((action.run world).1, (action.run world).2.beside earlier)) :
    Watches (liftM action) (liftM beside) (fun _ => ()) (fun _ => ()) world base target []
      (.ok content) :=
  ⟨_, [], ⟨rfl, (Alike.lift haction).watched_eq⟩, Told.nil _ _ _ _⟩

theorem Watches.lift_bind {action : StateM (World σ) α}
    {beside : StateM (World (σ × Sightings)) α} {next : α → Effect σ RenderError α'}
    {nextWatched : α → Effect (σ × Sightings) RenderError β'}
    (haction : ∀ earlier, beside.run (world.beside earlier) =
      ((action.run world).1, (action.run world).2.beside earlier))
    (hnext : Watches (next (action.run world).1) (nextWatched (action.run world).1) nextValue
      nextSeen (action.run world).2 base target visits result) :
    Watches (liftM action >>= next) (liftM beside >>= nextWatched) nextValue nextSeen world base
      target visits result := by
  obtain ⟨after, seen, halike, htold⟩ := hnext
  exact ⟨after, [] ++ seen, (Alike.lift haction).bind_ok halike, htold⟩

theorem Watches.recut {change : Cut → Cut}
    (hchange : ∀ {cut heap id}, Cut.Found cut start element heap id →
      (change cut).Found base target heap id)
    (hwatches : Watches plain watched value seenValue world start element visits outcome) :
    Watches plain watched value seenValue world base target (visits.map (Visit.recut change))
      outcome := by
  obtain ⟨after, seen, halike, htold⟩ := hwatches
  exact ⟨after, seen, halike, htold.recut hchange⟩

end Watches

section Evaluate

variable {registry : Registry σ} {answers : Answers} {expression : Expression} {place : Place}
  {path : List String} {world : World σ} {base : Heap} {target element : NodeId} {cut : Cut}

theorem watches_callee {callee : Callee σ} {answer : Answer} (hgives : Gives callee answer)
    (addressee : Addressee) (request : Request) (place : Place)
    (hfound : cut.Found base target world.heap element) :
    Watches
      (ExceptT.adapt (RenderError.resolution addressee.name)
        (callee ⟨request, element, place.position⟩))
      (ExceptT.adapt (RenderError.resolution addressee.name)
        (callee.watched addressee ⟨request, element, place.position⟩))
      Outcome.value Outcome.value world base target
      [⟨Call.ofInvocation addressee ⟨request, element, place.position⟩, cut,
        calleeFailure? (Answers.ask world.context answer addressee.name request place)⟩]
      (Answers.ask world.context answer addressee.name request place) := by
  obtain ⟨state, hrun⟩ := hgives ⟨request, element, place.position⟩ world
  unfold Answers.ask
  dsimp only at hrun
  generalize answer request place.position world.context = reply at hrun ⊢
  have hwatched := Callee.runIn_watched addressee hrun
  rw [failure?_map] at hwatched
  refine ⟨{ world with host := state }, [⟨_, element, world.heap, failure? reply⟩],
    ⟨?plain, ?watched⟩, ⟨.cons ⟨rfl, ?failure, hfound⟩ .nil, ?ends⟩⟩
  case plain =>
    rw [Effect.runIn_adapt, hrun]
    cases reply <;> rfl
  case watched =>
    intro earlier
    rw [Effect.runIn_adapt, hwatched]
    cases reply <;> rfl
  case failure => cases reply <;> rfl
  case ends =>
    intro sighting hmem cause hfailure
    obtain rfl := List.mem_singleton.mp hmem
    cases reply with
    | ok text => cases hfailure
    | error message =>
        obtain rfl : message = cause := Option.some.inj hfailure
        exact ⟨rfl, rfl⟩

theorem watches_lookup (path : List String) (world : World σ) (base : Heap) (target : NodeId) :
    Watches (do return .value ((← get).textAt path) : Effect σ RenderError (Outcome σ))
      (do return .value ((← get).textAt path) :
        Effect (σ × Sightings) RenderError (Outcome (σ × Sightings)))
      Outcome.value Outcome.value world base target [] (.ok (world.textAt path)) := by
  refine ⟨world, [], ⟨rfl, fun earlier => ?_⟩, Told.nil _ _ _ _⟩
  rw [List.append_nil]
  rfl

theorem watches_evaluate_path (hregistry : registry.Gives answers)
    (hhelper : registry.helperCall? expression = none)
    (hwatched : registry.watched.helperCall? expression = none)
    (hpath : fallbackPath? expression = some path) (place : Place)
    (hfound : cut.Found base target world.heap element) :
    Watches (evaluate registry place.hook element place.position expression)
      (evaluate registry.watched place.hook element place.position expression)
      Outcome.value Outcome.value world base target
      ((registry.pathCalls place path).map fun call =>
        ⟨call, cut, calleeFailure? (answers.pathString world.context place path)⟩)
      (answers.pathString world.context place path) := by
  unfold evaluate Registry.dispatch Registry.pathCalls Answers.pathString
  rw [hhelper, hwatched, hpath]
  cases place.hook with
  | none => exact watches_lookup path world base target
  | some kind =>
      simp only [Option.bind_some, Registry.hook?_watched]
      rcases hregistry.hook kind with ⟨hhook, hanswer⟩ | ⟨hook, answer, hhook, hanswer, hgives⟩
      · rw [hhook, hanswer]
        exact watches_lookup path world base target
      · rw [hhook, hanswer]
        exact watches_callee hgives (.hook kind) (.path path) place hfound

theorem watches_evaluate_helper {name : String} {params : List Param} {hash : Dict Param}
    (hregistry : registry.Gives answers)
    (hcall : ∀ {τ : Type} (registry : Registry τ), registry.helperCall? expression =
      (registry.helpers.get? name).map fun helper => .callee name helper (.call params hash))
    (hstring : ∀ data, answers.string data place expression =
      match answers.helper? name with
      | some answer => Answers.ask data answer name (.call params hash) place
      | none => answers.pathString data place path)
    (hpath : fallbackPath? expression = some path)
    (hfound : cut.Found base target world.heap element) :
    Watches (evaluate registry place.hook element place.position expression)
      (evaluate registry.watched place.hook element place.position expression)
      Outcome.value Outcome.value world base target
      ((if registry.helpers.contains name then [Call.ofHelper name params hash place]
        else registry.pathCalls place path).map fun call =>
          ⟨call, cut, calleeFailure? (answers.string world.context place expression)⟩)
      (answers.string world.context place expression) := by
  have hwatched := hcall registry.watched
  have hplain := hcall registry
  rw [Registry.helpers_watched] at hwatched
  rw [hstring, Dict.contains]
  rcases hregistry.helper name with ⟨hhelper, hanswer⟩ | ⟨helper, answer, hhelper, hanswer, hgives⟩
  · rw [hhelper] at hplain hwatched
    rw [hhelper, hanswer, Option.isSome_none, if_neg (by decide)]
    exact watches_evaluate_path hregistry hplain hwatched hpath place hfound
  · rw [hhelper] at hplain hwatched
    rw [hhelper, hanswer, Option.isSome_some, if_pos rfl]
    unfold evaluate Registry.dispatch
    rw [hplain, hwatched]
    exact watches_callee hgives (.helper name) (.call params hash) place hfound

theorem watches_evaluate_literal
    (hhelper : ∀ {τ : Type} (registry : Registry τ), registry.helperCall? expression = none)
    (hpath : fallbackPath? expression = none) (world : World σ) (base : Heap) (target : NodeId) :
    Watches (evaluate registry place.hook element place.position expression)
      (evaluate registry.watched place.hook element place.position expression)
      Outcome.value Outcome.value world base target [] (.ok (literalText expression)) := by
  unfold evaluate Registry.dispatch
  rw [hhelper, hhelper, hpath]
  exact Watches.pure (literalText expression) Outcome.value Outcome.value world base target

theorem watches_evaluate (hregistry : registry.Gives answers) (place : Place)
    (expression : Expression) (hfound : cut.Found base target world.heap element) :
    Watches (evaluate registry place.hook element place.position expression)
      (evaluate registry.watched place.hook element place.position expression)
      Outcome.value Outcome.value world base target
      (registry.expressionVisits answers world.context place cut expression)
      (answers.string world.context place expression) := by
  cases expression with
  | call name params hash =>
      exact watches_evaluate_helper hregistry (fun _ => rfl) (fun _ => rfl) rfl hfound
  | path segments =>
      match segments with
      | [name] => exact watches_evaluate_helper hregistry (fun _ => rfl) (fun _ => rfl) rfl hfound
      | [] => exact watches_evaluate_path hregistry rfl rfl rfl place hfound
      | _ :: _ :: _ => exact watches_evaluate_path hregistry rfl rfl rfl place hfound
  | stringLiteral value => exact watches_evaluate_literal (fun _ => rfl) rfl world base target
  | numberLiteral value => exact watches_evaluate_literal (fun _ => rfl) rfl world base target
  | booleanLiteral value => exact watches_evaluate_literal (fun _ => rfl) rfl world base target

end Evaluate

section Rendering

variable {host : Host σ} {registry : Registry σ} {answers : Answers}
  {refusal? : String → Option String} {world : World σ} {base heap : Heap}
  {target element : NodeId} {cut : Cut}

theorem watches_parseFragment (hhost : host.Refuses refusal?) (markup : String) (world : World σ)
    (base : Heap) (target : NodeId) :
    Watches (parseFragment host markup) (parseFragment (host.beside Sightings) markup)
      (fun _ => world.heap.size) (fun _ => world.heap.size) world base target []
      (Answers.inserted refusal? false markup) := by
  have hwatching : (host.beside Sightings).Refuses refusal? := fun state => hhost state.1
  have hplain := Effect.runIn_adapt RenderError.markup (host.parseFragment markup) world
  have hwatched : ∀ earlier, _ := fun earlier => Effect.runIn_adapt RenderError.markup
    ((host.beside Sightings).parseFragment markup) (world.beside earlier)
  unfold Answers.inserted
  cases hrefused : refusal? markup with
  | some message =>
      rw [Host.runIn_parseFragment_refused world hhost hrefused] at hplain
      refine ⟨_, [], ⟨hplain, fun earlier => (hwatched earlier).trans ?_⟩, Told.nil _ _ _ _⟩
      rw [Host.runIn_parseFragment_refused _ hwatching hrefused, List.append_nil]
      rfl
  | none =>
      rw [Host.runIn_parseFragment world hhost hrefused] at hplain
      refine ⟨_, [], ⟨hplain, fun earlier => (hwatched earlier).trans ?_⟩, Told.nil _ _ _ _⟩
      rw [Host.runIn_parseFragment _ hwatching hrefused, List.append_nil]
      rfl

theorem watches_insertValue (hhost : host.Refuses refusal?) (escaped : Bool) (value : String)
    (world : World σ) (base : Heap) (target : NodeId) :
    Watches (insertValue host element escaped value)
      (insertValue (host.beside Sightings) element escaped value) (fun _ => ()) (fun _ => ())
      world base target [] (Answers.inserted refusal? escaped value) := by
  cases escaped with
  | true => exact Watches.lift_bind (fun _ => rfl) (Watches.act [Tree.text value] fun _ => rfl)
  | false =>
      exact (watches_parseFragment hhost value world base target).followed
        fun forest _ => Watches.act forest fun _ => rfl

theorem Watches.finish {γ : Type} {put : String → Effect σ RenderError Unit}
    {putWatched : String → Effect (σ × Sightings) RenderError Unit} {value : String}
    {outcome : Except RenderError γ}
    (hput : Watches (put value) (putWatched value) (fun _ => ()) (fun _ => ()) world base target []
      outcome) :
    Watches ((Outcome.value value).finish put) ((Outcome.value value).finish putWatched)
      (fun _ => []) (fun _ => []) world base target [] outcome :=
  hput.followed fun content middle =>
    Watches.pure content (fun _ => []) (fun _ => []) middle base target

theorem watches_renderContent (hhost : host.Refuses refusal?) (hregistry : registry.Gives answers)
    (mustache : Mustache) (hfound : cut.Found base target world.heap element) :
    Watches (renderContent host registry element mustache)
      (renderContent (host.beside Sightings) registry.watched element mustache)
      (fun _ => []) (fun _ => []) world base target
      (registry.expressionVisits answers world.context (.content mustache.escaped) cut
        mustache.expression)
      (answers.mustacheForest world.context refusal? mustache) :=
  (watches_evaluate hregistry (.content mustache.escaped) mustache.expression hfound).bind_silent
    fun value middle _ _ =>
      (watches_insertValue hhost mustache.escaped value middle base target).finish

theorem watches_renderSole (hregistry : registry.Gives answers) (name : String)
    (mustache : Mustache) (hfound : cut.Found base target world.heap element) :
    Watches (renderSole host registry element name mustache)
      (renderSole (host.beside Sightings) registry.watched element name mustache)
      (fun _ => []) (fun _ => []) world base target
      (registry.expressionVisits answers world.context (.wholeValue name) cut mustache.expression)
      (answers.string world.context (.wholeValue name) mustache.expression) :=
  (watches_evaluate hregistry (.wholeValue name) mustache.expression hfound).followed
    fun value _ => (Watches.act value fun _ => rfl).finish

theorem watches_renderParts (hregistry : registry.Gives answers) (name : String)
    (parts : List Part) (hfound : cut.Found base target world.heap element) :
    Watches (renderParts registry element name parts)
      (renderParts registry.watched element name parts)
      (fun value => (value, [])) (fun value => (value, [])) world base target
      (registry.partsVisits answers world.context (.partOfValue name) cut parts)
      (answers.partsString world.context (.partOfValue name) parts) := by
  induction parts generalizing world with
  | nil => exact Watches.pure "" (fun value => (value, [])) (fun value => (value, [])) _ _ _
  | cons part rest ih =>
      cases part with
      | text literal =>
          exact (ih hfound).bind_silent fun value middle _ _ =>
            Watches.pure (literal ++ value) (fun value => (value, [])) (fun value => (value, []))
              middle base target
      | mustache mustache =>
          have hown := watches_evaluate hregistry (.partOfValue name) mustache.expression hfound
          refine hown.bind fun own middle _ hrun => ?_
          obtain ⟨state, hstate⟩ := runIn_evaluate hregistry element (.partOfValue name)
            mustache.expression world
          obtain rfl : middle = { world with host := state } :=
            (Prod.mk.inj (hrun.symm.trans hstate)).2
          refine Watches.bind_silent (ih hfound) fun value last _ _ => ?_
          exact Watches.pure (own ++ value) (fun value => (value, [])) (fun value => (value, []))
            last base target

theorem partsVisits_literals (registry : Registry σ) (answers : Answers) (data : Value)
    (place : Place) (cut : Cut) (literals : List String) :
    registry.partsVisits answers data place cut (literals.map Part.text) = [] := by
  induction literals with
  | nil => rfl
  | cons literal rest ih => exact ih

theorem partsVisits_sole (registry : Registry σ) (answers : Answers) (data : Value)
    (place : Place) (cut : Cut) (mustache : Mustache) :
    registry.partsVisits answers data place cut [.mustache mustache] =
      registry.expressionVisits answers data place cut mustache.expression := by
  rw [Registry.partsVisits, Registry.partVisits]
  cases answers.partString data place (.mustache mustache) <;> exact List.append_nil _

theorem watches_renderAttribute (hregistry : registry.Gives answers) (attr : Attribute)
    (hfound : cut.Found base target world.heap element) :
    Watches (renderAttribute host registry element attr)
      (renderAttribute (host.beside Sightings) registry.watched element attr)
      (fun _ => []) (fun _ => []) world base target
      (registry.partsVisits answers world.context (.inValue attr) cut attr.value)
      (answers.partsString world.context (.inValue attr) attr.value) := by
  unfold renderAttribute
  cases hstatic : attr.staticValue? with
  | some value =>
      obtain ⟨literals, hvalue, rfl⟩ := Attribute.staticValue?_eq_some_iff.mp hstatic
      rw [hvalue, partsString_literals, partsVisits_literals]
      refine Watches.lift_bind (fun _ => rfl) ?_
      exact Watches.pure (String.join literals) (fun _ => []) (fun _ => []) _ base target
  | none =>
      cases hsole : attr.soleMustache? with
      | some mustache =>
          have hvalue := Attribute.soleMustache?_eq_some_iff.mp hsole
          rw [Place.inValue_of_sole hvalue, hvalue, partsString_sole, partsVisits_sole]
          exact watches_renderSole hregistry attr.name mustache hfound
      | none =>
          rw [Place.inValue_of_mixed hstatic hsole]
          refine (watches_renderParts hregistry attr.name attr.value hfound).followed
            fun value middle => ?_
          refine Watches.lift_bind (fun _ => rfl) ?_
          exact Watches.pure value (fun _ => []) (fun _ => []) _ base target

variable {tag : String} {held : Attributes}

theorem watches_renderAttributes (hregistry : registry.Gives answers) (attributes : List Attribute)
    (htarget : target < base.size) (hstands : Stands base world.heap (.element tag held) []) :
    Watches (renderAttributes host registry base.size attributes)
      (renderAttributes (host.beside Sightings) registry.watched base.size attributes)
      (fun _ => []) (fun _ => []) world base target
      (registry.attributesVisits answers world.context tag held attributes)
      (answers.setAttributes world.context held attributes) := by
  induction attributes generalizing held world with
  | nil => exact Watches.pure held (fun _ => []) (fun _ => []) world base target
  | cons attr rest ih =>
      have hown : Watches (renderAttribute host registry base.size attr) _ _ _ world base target
          _ _ := watches_renderAttribute hregistry attr (Cut.found_making htarget hstands)
      refine hown.bind fun value middle hvalue hrun => ?_
      have hsets : Sets (renderAttribute host registry base.size attr) base tag world _ :=
        sets_renderAttribute hregistry attr hstands
      rw [hvalue] at hsets
      obtain ⟨after, hafter, hcontext, hset⟩ := hsets
      obtain rfl : middle = after := (Prod.mk.inj (hrun.symm.trans hafter)).2
      rw [← hcontext]
      exact (ih hset).followed fun settled last =>
        Watches.pure settled (fun _ => []) (fun _ => []) last base target

/-- What a child of the element finds, it finds within the element, which is appended by then and
has all its attributes. -/
theorem watches_element (hregistry : registry.Gives answers) {parent : NodeId}
    {attributes : List Attribute} {children : List Node} {visits : List Visit}
    {inner : Except RenderError Forest} (hparent : parent < world.heap.size)
    (hchildren : ∀ middle : World σ, middle.context = world.context →
      world.heap.size < middle.heap.size →
        Watches (renderNodes host registry world.heap.size children)
          (renderNodes (host.beside Sightings) registry.watched world.heap.size children)
          (fun _ => []) (fun _ => []) middle middle.heap world.heap.size visits inner) :
    Watches (renderNode host registry parent (.element tag attributes children))
      (renderNode (host.beside Sightings) registry.watched parent
        (.element tag attributes children))
      (fun _ => []) (fun _ => []) world world.heap parent
      (registry.attributesVisits answers world.context tag [] attributes ++
        proceed (answers.setAttributes world.context [] attributes) fun settled =>
          visits.map (Visit.recut (Cut.within tag settled)))
      (do
        let attributes ← answers.setAttributes world.context [] attributes
        .ok [Tree.element tag attributes (← inner)]) := by
  refine Watches.lift_bind (fun _ => rfl) ?_
  have hcreate := Stands.create world.heap (.element tag [])
  have hattributes : Watches (renderAttributes host registry world.heap.size attributes) _ _ _
      ((host.createElement tag).run world).2 world.heap parent _ _ :=
    watches_renderAttributes hregistry attributes hparent hcreate
  refine hattributes.bind fun settled named hsettled hrun => ?_
  have hsets : Sets (renderAttributes host registry world.heap.size attributes) world.heap tag
      ((host.createElement tag).run world).2 _ :=
    sets_renderAttributes hregistry attributes hcreate
  rw [hsettled] at hsets
  obtain ⟨after, hafter, hcontext, hstands⟩ := hsets
  obtain rfl : named = after := (Prod.mk.inj (hrun.symm.trans hafter)).2
  refine Watches.lift_bind (fun _ => rfl) ?_
  have hsize := hstands.size_append (by simp) hparent
  have hinner := hchildren ((host.appendChild parent world.heap.size).run named).2 hcontext
    (hsize ▸ hstands.size_lt)
  have hwithin := hinner.recut fun hfound => hfound.within hparent hstands
  refine hwithin.bind_silent fun forest last _ _ => ?_
  exact Watches.pure [Tree.element tag settled forest] (fun _ => []) (fun _ => []) last world.heap
    parent

theorem watches_cons {parent : NodeId} {node : Node} {nodes : List Node}
    {own rest : Except RenderError Forest} {visits more : List Visit}
    (hparent : parent < world.heap.size)
    (hfirst : Watches (renderNode host registry parent node)
      (renderNode (host.beside Sightings) registry.watched parent node) (fun _ => []) (fun _ => [])
      world world.heap parent visits own)
    (hdraws : Draws (renderNode host registry parent node) parent world own)
    (hrest : ∀ middle : World σ, middle.context = world.context → parent < middle.heap.size →
      Watches (renderNodes host registry parent nodes)
        (renderNodes (host.beside Sightings) registry.watched parent nodes)
        (fun _ => []) (fun _ => []) middle middle.heap parent more rest) :
    Watches (renderNodes host registry parent (node :: nodes))
      (renderNodes (host.beside Sightings) registry.watched parent (node :: nodes))
      (fun _ => []) (fun _ => []) world world.heap parent
      (visits ++ proceed own fun own => more.map (Visit.recut (Cut.behind own)))
      (do .ok ((← own) ++ (← rest))) := by
  refine hfirst.bind fun forest middle hforest hrun => ?_
  rw [hforest] at hdraws
  obtain ⟨after, added, hafter, hcontext, rfl, hgrows⟩ := hdraws
  obtain rfl : middle = after := (Prod.mk.inj (hrun.symm.trans hafter)).2
  have hothers := hrest middle hcontext (Nat.lt_of_lt_of_le hparent hgrows.size_le)
  have hbehind := hothers.recut fun hfound => hfound.behind hparent hgrows
  refine hbehind.bind_silent fun others last _ _ => ?_
  exact Watches.pure (Placed.trees added ++ others) (fun _ => []) (fun _ => []) last world.heap
    parent

theorem watches_renderNodes (hhost : host.Refuses refusal?) (hregistry : registry.Gives answers)
    {parent : NodeId} (nodes : List Node) (hparent : parent < world.heap.size) :
    Watches (renderNodes host registry parent nodes)
      (renderNodes (host.beside Sightings) registry.watched parent nodes)
      (fun _ => []) (fun _ => []) world world.heap parent
      (registry.visits answers world.context refusal? nodes)
      (answers.forest world.context refusal? nodes) := by
  induction nodes using Node.forest_induction generalizing parent world with
  | nil => exact Watches.pure [] (fun _ => []) (fun _ => []) world world.heap parent
  | text content rest ih =>
      have hfirst : Watches (renderNode host registry parent (.text content))
          (renderNode (host.beside Sightings) registry.watched parent (.text content))
          (fun _ => []) (fun _ => []) world world.heap parent [] (.ok [Tree.text content]) := by
        refine Watches.lift_bind (fun _ => rfl) (Watches.lift_bind (fun _ => rfl) ?_)
        exact Watches.pure [Tree.text content] (fun _ => []) (fun _ => []) _ world.heap parent
      refine watches_cons hparent hfirst (draws_text content hparent)
        fun middle hcontext hbound => ?_
      rw [← hcontext]
      exact ih hbound
  | mustache mustache rest ih =>
      have hfirst := watches_renderContent hhost hregistry mustache
        (Cut.found_here world.heap parent)
      have hdraws := draws_renderContent hhost hregistry mustache hparent
      refine watches_cons hparent hfirst hdraws fun middle hcontext hbound => ?_
      rw [← hcontext]
      exact ih hbound
  | element tag attributes children rest ihChildren ih =>
      have hinner : ∀ middle : World σ, middle.context = world.context →
          world.heap.size < middle.heap.size →
            Watches (renderNodes host registry world.heap.size children) _ _ _ middle middle.heap
              world.heap.size (registry.visits answers world.context refusal? children)
              (answers.forest world.context refusal? children) := fun middle hcontext hbound => by
        rw [← hcontext]
        exact ihChildren hbound
      have hdrawn : ∀ middle : World σ, middle.context = world.context →
          world.heap.size < middle.heap.size →
            Draws (renderNodes host registry world.heap.size children) world.heap.size middle
              (answers.forest world.context refusal? children) := fun middle hcontext hbound => by
        rw [← hcontext]
        exact draws_renderNodes hhost hregistry children hbound
      refine watches_cons hparent (watches_element hregistry hparent hinner)
        (draws_element hregistry hparent hdrawn) fun middle hcontext hbound => ?_
      rw [← hcontext]
      exact ih hbound

end Rendering

/-- When a callee is called, the target has got the output before its mustache and nothing else,
with the elements around it complete but for what follows; it is called on the innermost of them,
or on the element whose attribute it stands in, which has its earlier attributes only and is not
yet below the target. The calls are those of the template in document order. A callee that fails
ends the rendering with its error, and the document is left as the callee found it. -/
theorem callees_find_output_cut {host : Host σ} {registry : Registry σ} {answers : Answers}
    {refusal? : String → Option String} (hhost : host.Refuses refusal?)
    (hregistry : registry.Gives answers) (nodes : List Node) {world : World σ} {target : NodeId}
    (hlinked : world.heap.Linked) (htarget : target < world.heap.size) :
    ∃ seen after,
      (renderNodes host registry target nodes).runIn world =
        ((answers.forest world.context refusal? nodes).map fun _ => [], after) ∧
      (∀ earlier, (renderNodes (host.beside Sightings) registry.watched target nodes).runIn
          (world.beside earlier) =
        ((answers.forest world.context refusal? nodes).map fun _ => [],
          after.beside (earlier ++ seen))) ∧
      List.Forall₂ (fun visit sighting => Meets world.heap target visit sighting ∧
          (visit.cut.making.isSome → ¬ sighting.heap.Reaches target sighting.element))
        (registry.visits answers world.context refusal? nodes) seen ∧
      Covers (registry.visits answers world.context refusal? nodes) (registry.calls nodes)
        (answers.forest world.context refusal? nodes) ∧
      ∀ sighting ∈ seen, ∀ cause, sighting.failure = some cause →
        (renderNodes host registry target nodes).runIn world =
            (.error (.resolution sighting.call.addressee.name cause), after) ∧
          after.heap = sighting.heap := by
  obtain ⟨after, seen, halike, htold⟩ := watches_renderNodes hhost hregistry nodes htarget
  refine ⟨seen, after, halike.plain_eq, halike.watched_eq, ?_, covers_visits nodes, ?_⟩
  · refine htold.meets.imp fun visit sighting hmeets => ⟨hmeets, fun hmaking => ?_⟩
    exact hmeets.found.not_below hlinked htarget hmaking
  · intro sighting hmem cause hfailure
    obtain ⟨hresult, hafter⟩ := htold.ends sighting hmem cause hfailure
    refine ⟨?_, hafter⟩
    rw [halike.plain_eq, hresult]
    rfl

section Closed

def closed : Answer := fun _ _ _ => .error "closed"

/-- As for the greeting, but no path in content is answered. -/
def closedAnswers : Answers :=
  { greetingAnswers with resolve := some closed }

def closedRegistry : Registry Unit :=
  { greetingRegistry with resolve := some closed.toCallee }

def closedNodes : List Node :=
  [.text "a", .element "p"
    [⟨"class", [.text "card"]⟩, ⟨"id", [.mustache ⟨.path ["place", "id"], true⟩]⟩]
    [.text "b", .mustache ⟨.path ["name"], true⟩]]

/-- A document with one fragment. -/
def closedWorld : World Unit :=
  { heap := (Heap.empty.create .fragment).2, context := greetingData, host := () }

theorem closedRegistry_gives : closedRegistry.Gives closedAnswers where
  helper := greetingRegistry_gives.helper
  hook := by
    intro kind
    cases kind with
    | resolve => exact .inr ⟨closed.toCallee, closed, rfl, rfl, gives_toCallee closed⟩
    | resolveAttribute => exact greetingRegistry_gives.hook .resolveAttribute

theorem callees_find_output_cut_closed :
    (Host.silent Unit).Refuses (fun _ => none) ∧ closedRegistry.Gives closedAnswers ∧
      closedWorld.heap.Linked ∧ 0 < closedWorld.heap.size ∧ ∃ made placed after,
        Meets closedWorld.heap 0 ⟨.ofHook .resolveAttribute ["place", "id"] (.wholeValue "id"),
          ⟨.here [.text "a"], some ("p", [("class", "card")])⟩, none⟩ made ∧
        ¬ made.heap.Reaches 0 made.element ∧
        Meets closedWorld.heap 0 ⟨.ofHook .resolve ["name"] (.content true),
          ⟨.within [.text "a"] "p" [("class", "card"), ("id", "place.id")] (.here [.text "b"]),
            none⟩, some "closed"⟩ placed ∧
        (renderNodes (Host.silent Unit) closedRegistry 0 closedNodes).runIn closedWorld =
          (.error (.resolution "RESOLVE" "closed"), after) ∧
        after.heap = placed.heap := by
  have hhost : (Host.silent Unit).Refuses fun _ => none := fun _ _ => rfl
  have hlinked : closedWorld.heap.Linked := Heap.Linked.empty.create .fragment
  have hsize : 0 < closedWorld.heap.size := by decide
  obtain ⟨seen, after, -, -, hmeets, -, hends⟩ :=
    callees_find_output_cut hhost closedRegistry_gives closedNodes hlinked hsize
  have hvisits : closedRegistry.visits closedAnswers closedWorld.context (fun _ => none)
      closedNodes =
    [⟨.ofHook .resolveAttribute ["place", "id"] (.wholeValue "id"),
        ⟨.here [.text "a"], some ("p", [("class", "card")])⟩, none⟩,
      ⟨.ofHook .resolve ["name"] (.content true),
        ⟨.within [.text "a"] "p" [("class", "card"), ("id", "place.id")] (.here [.text "b"]), none⟩,
        some "closed"⟩] := by rfl
  rw [hvisits] at hmeets
  rcases hmeets with _ | ⟨⟨hmade, habsent⟩, _ | ⟨⟨hplaced, -⟩, _⟩⟩
  obtain ⟨hrun, hleft⟩ := hends _ (by simp) "closed" hplaced.failure_eq
  rw [hplaced.call_eq] at hrun
  exact ⟨hhost, closedRegistry_gives, hlinked, hsize, _, _, after, hmade, habsent rfl, hplaced,
    hrun, hleft⟩

end Closed

end MustacheHtml.Render
