import MustacheHtml.Proofs.Document.Running

namespace MustacheHtml.Document

variable {σ κ ε α : Type}

/-- The world of a host that keeps something more. -/
def World.beside (world : World σ) (kept : κ) : World (σ × κ) :=
  ⟨world.heap, world.context, (world.host, kept)⟩

/-- The world without what is kept beside it. -/
def World.alone (world : World (σ × κ)) : World σ :=
  ⟨world.heap, world.context, world.host.1⟩

/-- The same computation on a host that keeps something else as well, which it leaves alone. -/
def Effect.beside (κ : Type) (effect : Effect σ ε α) : Effect (σ × κ) ε α :=
  ExceptT.mk fun world =>
    let (result, after) := effect.runIn world.alone
    (result, after.beside world.host.2)

/-- The same host, with something else beside what it keeps. -/
def Host.beside (κ : Type) (host : Host σ) : Host (σ × κ) where
  observe := fun operation heap state => (host.observe operation heap state.1, state.2)
  refusal? := fun state markup => host.refusal? state.1 markup

end MustacheHtml.Document
