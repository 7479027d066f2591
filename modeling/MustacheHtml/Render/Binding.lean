import MustacheHtml.Document.World
import MustacheHtml.Render.Error

/-!
Bindings: which nodes of the output show which path of the data. Updating a binding brings its
nodes up to date without rendering anew.
-/

namespace MustacheHtml.Render

open MustacheHtml.Document

variable {σ : Type}

/-- The output that a binding is responsible for. -/
inductive Target (σ : Type) where
  | text (node : NodeId)
  /-- A run of siblings made from the value as markup. -/
  | fragment (first last : NodeId)
  | attribute (element : NodeId) (name : String)
  | computed (update : Effect σ String Unit)

/-- A path of the data, and the output that shows the value there. -/
structure Binding (σ : Type) where
  path : List String
  target : Target σ

/-- Bindings in document order. -/
abbrev Bindings (σ : Type) := List (Binding σ)

/-- Makes a fragment of markup; what the document says against it is an error of the rendering. -/
def parseFragment (host : Host σ) (markup : String) : Effect σ RenderError NodeId :=
  ExceptT.adapt RenderError.markup (host.parseFragment markup)

/-- The first and the last child of a fragment. An empty one gets an empty text, so that its place
is not lost. -/
def fragmentBounds (host : Host σ) (fragment : NodeId) : StateM (World σ) (NodeId × NodeId) := do
  let heap := (← get).heap
  match heap.firstChild? fragment, heap.lastChild? fragment with
  | some first, some last => return (first, last)
  | _, _ =>
      let placeholder ← host.createText ""
      host.appendChild fragment placeholder
      return (placeholder, placeholder)

/-- Removes a node and its next siblings up to the last one of the run, at most `count` nodes. -/
def removeRun (host : Host σ) (parent last : NodeId) : Nat → NodeId → StateM (World σ) Unit
  | 0, _ => pure ()
  | count + 1, node => do
      let next? := (← get).heap.nextSibling? node
      host.removeChild parent node
      match next? with
      | some next => if node = last then pure () else removeRun host parent last count next
      | none => pure ()

namespace Binding

/-- Binds the content of a fragment, which has not been inserted yet. -/
def ofFragment (host : Host σ) (fragment : NodeId) (path : List String) :
    StateM (World σ) (Binding σ) := do
  let (first, last) ← fragmentBounds host fragment
  return ⟨path, .fragment first last⟩

/-- Replaces the run from `first` to `last` by new markup: the ends of the new run. A run without
parent stays. -/
def replaceRun (host : Host σ) (first last : NodeId) (markup : String) :
    Effect σ RenderError (NodeId × NodeId) := do
  match (← get).heap.parent? first with
  | none => return (first, last)
  | some parent =>
      let fragment ← parseFragment host markup
      let bounds ← fragmentBounds host fragment
      let heap := (← get).heap
      removeRun host parent last (heap.children parent).length first
      host.insertBefore parent fragment (heap.nextSibling? last)
      return bounds

/-- Brings the output of a binding up to date. Where that fails, the binding stays as it is. -/
def update (host : Host σ) (binding : Binding σ) : Effect σ RenderError (Binding σ) := do
  let text := (← get).textAt binding.path
  match binding.target with
  | .text node =>
      host.setText node text
      return binding
  | .attribute element name =>
      host.setAttribute element name text
      return binding
  | .fragment first last =>
      let (first, last) ← replaceRun host first last text
      return { binding with target := .fragment first last }
  | .computed update =>
      ExceptT.adapt (RenderError.resolution "binding") update
      return binding

/-- Updates bindings one after the other and stops at the first that fails; the bindings as they
are then, and how it ended. -/
def updateAll (host : Host σ) :
    Bindings σ → StateM (World σ) (Bindings σ × Except RenderError Unit)
  | [] => pure ([], .ok ())
  | binding :: rest => do
      match ← (update host binding).run with
      | .error error => return (binding :: rest, .error error)
      | .ok updated =>
          let (others, outcome) ← updateAll host rest
          return (updated :: others, outcome)

end Binding

end MustacheHtml.Render
