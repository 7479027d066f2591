import MustacheHtml.Proofs.Dict
import MustacheHtml.Proofs.Render.Calls

namespace MustacheHtml.Render

open MustacheHtml.Document

variable {σ : Type}

/-- A call, the document as the callee finds it, and the cause of its failure if it fails. -/
structure Sighting where
  call : Call
  element : NodeId
  heap : Heap
  failure : Option String

/-- What was seen at the calls made, in the order in which they were made. -/
abbrev Sightings := List Sighting

section Watched

variable (κ : Type)

def Target.beside : Target σ → Target (σ × κ)
  | .text node => .text node
  | .fragment first last => .fragment first last
  | .attribute element name => .attribute element name
  | .computed update => .computed (update.beside κ)

def Outcome.beside : Outcome σ → Outcome (σ × κ)
  | .value text => .value text
  | .handled => .handled
  | .bound binding => .bound ⟨binding.path, binding.target.beside κ⟩

end Watched

/-- Notes what the callee finds, and calls it. -/
def Callee.watched (callee : Callee σ) (addressee : Addressee) : Callee (σ × Sightings) :=
  fun invocation => ExceptT.mk fun world =>
    let (outcome, after) := (callee invocation).runIn world.alone
    let seen : Sighting :=
      ⟨Call.ofInvocation addressee invocation, invocation.element, world.heap, failure? outcome⟩
    (outcome.map (Outcome.beside Sightings), after.beside (world.host.2 ++ [seen]))

theorem Callee.runIn_watched {callee : Callee σ} {invocation : Invocation} {world after : World σ}
    {outcome : Except String (Outcome σ)} (addressee : Addressee)
    (hrun : (callee invocation).runIn world = (outcome, after)) (earlier : Sightings) :
    (callee.watched addressee invocation).runIn (world.beside earlier) =
      (outcome.map (Outcome.beside Sightings), after.beside (earlier ++
        [⟨Call.ofInvocation addressee invocation, invocation.element, world.heap,
          failure? outcome⟩])) := by
  change (((callee invocation).runIn world).1.map (Outcome.beside Sightings),
    World.beside ((callee invocation).runIn world).2 (earlier ++
      [⟨_, _, world.heap, failure? ((callee invocation).runIn world).1⟩])) = _
  rw [hrun]

/-- The same helpers and hooks, of which each call is seen. -/
def Registry.watched (registry : Registry σ) : Registry (σ × Sightings) where
  helpers := registry.helpers.map fun (name, helper) => (name, helper.watched (.helper name))
  resolve := registry.resolve.map fun hook => hook.watched (.hook .resolve)
  resolveAttribute := registry.resolveAttribute.map fun hook =>
    hook.watched (.hook .resolveAttribute)

theorem Registry.helpers_watched (registry : Registry σ) (name : String) :
    registry.watched.helpers.get? name =
      (registry.helpers.get? name).map fun helper => helper.watched (.helper name) :=
  Dict.get?_map (fun name helper => Callee.watched helper (.helper name)) registry.helpers name

theorem Registry.hook?_watched (registry : Registry σ) (kind : HookKind) :
    registry.watched.hook? kind =
      (registry.hook? kind).map fun hook => hook.watched (.hook kind) := by
  cases kind <;> rfl

/-- Watched and unwatched, the computation ends in the same way and leaves the same world; the
result tells the value of both. -/
structure Alike {α β γ : Type} (plain : Effect σ RenderError α)
    (watched : Effect (σ × Sightings) RenderError β) (value : γ → α) (seenValue : γ → β)
    (world : World σ) (result : Except RenderError γ) (after : World σ) (seen : Sightings) :
    Prop where
  plain_eq : plain.runIn world = (result.map value, after)
  watched_eq : ∀ earlier, watched.runIn (world.beside earlier) =
    (result.map seenValue, after.beside (earlier ++ seen))

section Alike

variable {α β γ α' β' δ : Type} {plain : Effect σ RenderError α}
  {watched : Effect (σ × Sightings) RenderError β} {value : γ → α} {seenValue : γ → β}
  {world middle after : World σ} {seen more : Sightings}

theorem Alike.pure (content : γ) (value : γ → α) (seenValue : γ → β) (world : World σ) :
    Alike (pure (value content) : Effect σ RenderError α) (pure (seenValue content)) value seenValue
      world (.ok content) world [] := by
  refine ⟨rfl, fun earlier => ?_⟩
  rw [List.append_nil]
  rfl

theorem Alike.lift {action : StateM (World σ) α} {beside : StateM (World (σ × Sightings)) α}
    (haction : ∀ earlier, beside.run (world.beside earlier) =
      ((action.run world).1, (action.run world).2.beside earlier)) :
    Alike (liftM action : Effect σ RenderError α) (liftM beside) id id world
      (.ok (action.run world).1) (action.run world).2 [] := by
  refine ⟨rfl, fun earlier => ?_⟩
  rw [List.append_nil, Effect.runIn_lift, haction]
  rfl

theorem Alike.bind_ok {next : α → Effect σ RenderError α'}
    {nextWatched : β → Effect (σ × Sightings) RenderError β'} {nextValue : δ → α'}
    {nextSeen : δ → β'} {content : γ} {result : Except RenderError δ}
    (hfirst : Alike plain watched value seenValue world (.ok content) middle seen)
    (hnext : Alike (next (value content)) (nextWatched (seenValue content)) nextValue nextSeen
      middle result after more) :
    Alike (plain >>= next) (watched >>= nextWatched) nextValue nextSeen world result after
      (seen ++ more) := by
  constructor
  · rw [Effect.runIn_bind_ok hfirst.plain_eq, hnext.plain_eq]
  · intro earlier
    rw [Effect.runIn_bind_ok (hfirst.watched_eq earlier), hnext.watched_eq, List.append_assoc]

theorem Alike.bind_error {next : α → Effect σ RenderError α'}
    {nextWatched : β → Effect (σ × Sightings) RenderError β'} {error : RenderError}
    (hfirst : Alike plain watched value seenValue world (.error error) middle seen)
    (nextValue : δ → α') (nextSeen : δ → β') :
    Alike (plain >>= next) (watched >>= nextWatched) nextValue nextSeen world (.error error) middle
      seen :=
  ⟨Effect.runIn_bind_error hfirst.plain_eq,
    fun earlier => Effect.runIn_bind_error (hfirst.watched_eq earlier)⟩

end Alike

end MustacheHtml.Render
