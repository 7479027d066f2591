import MustacheHtml.Document.World

namespace MustacheHtml.Document

namespace Effect

variable {σ ε ε' α β : Type} {world middle : World σ}

/-- How a computation ends in a world: its result, and the world then. -/
def runIn (effect : Effect σ ε α) (world : World σ) : Except ε α × World σ :=
  effect.run.run world

@[simp] theorem runIn_lift (action : StateM (World σ) α) (world : World σ) :
    (liftM action : Effect σ ε α).runIn world =
      (.ok (action.run world).1, (action.run world).2) := rfl

@[simp] theorem runIn_get (world : World σ) :
    (get : Effect σ ε (World σ)).runIn world = (.ok world, world) := rfl

theorem runIn_bind_ok {effect : Effect σ ε α} {next : α → Effect σ ε β} {value : α}
    (heffect : effect.runIn world = (.ok value, middle)) :
    (effect >>= next).runIn world = (next value).runIn middle := by
  have hrun : effect.run.run world = (.ok value, middle) := heffect
  change (StateT.run (ExceptT.run (effect >>= next)) world) = _
  rw [ExceptT.run_bind, StateT.run_bind, hrun]
  rfl

theorem runIn_bind_error {effect : Effect σ ε α} {next : α → Effect σ ε β} {error : ε}
    (heffect : effect.runIn world = (.error error, middle)) :
    (effect >>= next).runIn world = (.error error, middle) := by
  have hrun : effect.run.run world = (.error error, middle) := heffect
  change (StateT.run (ExceptT.run (effect >>= next)) world) = _
  rw [ExceptT.run_bind, StateT.run_bind, hrun]
  rfl

theorem runIn_adapt (change : ε → ε') (effect : Effect σ ε α) (world : World σ) :
    runIn (ExceptT.adapt change effect) world =
      ((effect.runIn world).1.mapError change, (effect.runIn world).2) := by
  rfl

end Effect

theorem World.textAt_congr {σ : Type} {world other : World σ}
    (hcontext : other.context = world.context) : other.textAt = world.textAt := by
  funext path
  rw [World.textAt, World.textAt, hcontext]

namespace Host

variable {σ : Type} (host : Host σ) (world : World σ)

/-- The host refuses markup by its text alone. -/
def Refuses (refusal? : String → Option String) : Prop :=
  ∀ state markup, host.refusal? state markup = refusal? markup

theorem runIn_parseFragment_eq (markup : String) : (host.parseFragment markup).runIn world =
    let observed := host.observe (.parseFragment markup) world.heap world.host
    match host.refusal? observed markup with
    | some message => (.error message, ⟨world.heap, world.context, observed⟩)
    | none => (.ok world.heap.size,
        ⟨(world.heap.parseFragment markup).2, world.context, observed⟩) := by
  unfold parseFragment
  rw [Effect.runIn_bind_ok (Effect.runIn_lift _ _), Effect.runIn_bind_ok (Effect.runIn_get _)]
  have hobserved : (StateT.run (host.announce (.parseFragment markup)) world).2 =
      ⟨world.heap, world.context, host.observe (.parseFragment markup) world.heap world.host⟩ := rfl
  rw [hobserved]
  dsimp only
  cases host.refusal? (host.observe (.parseFragment markup) world.heap world.host) markup <;> rfl

variable {host} {refusal? : String → Option String}

theorem runIn_parseFragment_refused (hhost : host.Refuses refusal?) {markup message : String}
    (hrefused : refusal? markup = some message) :
    (host.parseFragment markup).runIn world = (.error message, ⟨world.heap, world.context,
      host.observe (.parseFragment markup) world.heap world.host⟩) := by
  simp only [runIn_parseFragment_eq, hhost _ markup, hrefused]

theorem runIn_parseFragment (hhost : host.Refuses refusal?) {markup : String}
    (haccepted : refusal? markup = none) :
    (host.parseFragment markup).runIn world = (.ok world.heap.size,
      ⟨(world.heap.parseFragment markup).2, world.context,
        host.observe (.parseFragment markup) world.heap world.host⟩) := by
  simp only [runIn_parseFragment_eq, hhost _ markup, haccepted]

end Host

end MustacheHtml.Document
