import MustacheHtml.Render.Registry

namespace MustacheHtml.Render

open MustacheHtml.Document

variable {σ : Type}

/-- Makes a fragment of markup; a refusal is a failure of the callee. -/
def makeFragment (host : Host σ) (markup : String) : Effect σ String NodeId :=
  ExceptT.adapt RenderError.message (parseFragment host markup)

/-- Inserts a text and binds it to a path. -/
def bindTextTo (host : Host σ) (element : NodeId) (path : List String) (text : String) :
    Effect σ String (Outcome σ) := do
  let node ← host.createText text
  host.appendChild element node
  return .bound ⟨path, .text node⟩

/-- Inserts markup and binds its run to a path. -/
def bindFragmentTo (host : Host σ) (element : NodeId) (path : List String) (markup : String) :
    Effect σ String (Outcome σ) := do
  let fragment ← makeFragment host markup
  let binding ← Binding.ofFragment host fragment path
  host.appendChild element fragment
  return .bound binding

/-- Sets an attribute and binds it to a path. -/
def bindAttributeTo (host : Host σ) (element : NodeId) (name : String) (path : List String)
    (value : String) : Effect σ String (Outcome σ) := do
  host.setAttribute element name value
  return .bound ⟨path, .attribute element name⟩

/-- Binds to the attribute, or else to a text or to a fragment, as the position asks for. -/
def bindTo (host : Host σ) (position : Position) (element : NodeId) (path : List String)
    (text : String) : Effect σ String (Outcome σ) :=
  match position with
  | .attr name => bindAttributeTo host element name path text
  | .content true => bindTextTo host element path text
  | .content false => bindFragmentTo host element path text

/-- The same position, with a choice of its own between text and markup. -/
def Position.shownAs (asText : Bool → Bool) : Position → Position
  | .content escaped => .content (asText escaped)
  | .attr name => .attr name

/-- A callee that binds. Which path it shows, and in content whether as text, it chooses from what
it is asked for. -/
def bindingCallee (host : Host σ) (pathOf : Request → List String)
    (asText : Request → Bool → Bool) : Callee σ := fun invocation => do
  let path := pathOf invocation.request
  bindTo host (invocation.position.shownAs (asText invocation.request)) invocation.element path
    ((← get).textAt path)

/-- The hook that shows the value at the path it is called for, and binds what shows it. -/
def bindingHook (host : Host σ) : Callee σ := fun invocation => do
  match invocation.request with
  | .path path => bindTo host invocation.position invocation.element path ((← get).textAt path)
  | .call _ _ => return .handled

/-- No helpers, and both hooks bind. -/
def bindingRegistry (host : Host σ) : Registry σ where
  resolve := some (bindingHook host)
  resolveAttribute := some (bindingHook host)

end MustacheHtml.Render
