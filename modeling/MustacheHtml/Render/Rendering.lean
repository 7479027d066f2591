import MustacheHtml.Render.Registry
import MustacheHtml.Template.Node

namespace MustacheHtml.Render

open MustacheHtml.Document
open MustacheHtml.Template

variable {σ : Type}

/-- What becomes of an expression: a callee takes care of it, or it has a value of its own. -/
def evaluate (registry : Registry σ) (hook : Option HookKind) (element : NodeId)
    (position : Position) (expression : Expression) : Effect σ RenderError (Outcome σ) :=
  match registry.dispatch hook expression with
  | .callee name callee request =>
      ExceptT.adapt (RenderError.resolution name) (callee ⟨request, element, position⟩)
  | .literal text => return .value text
  | .lookup path => return .value ((← get).textAt path)

/-- Puts a value where it belongs; whatever else a callee did is left as it is. -/
def Outcome.finish (put : String → Effect σ RenderError Unit) :
    Outcome σ → Effect σ RenderError (Bindings σ)
  | value text => do
      put text
      return []
  | handled => return []
  | bound binding => return [binding]

/-- Inserts a value behind the content of an element, as text or as markup. -/
def insertValue (host : Host σ) (element : NodeId) (escaped : Bool) (value : String) :
    Effect σ RenderError Unit := do
  let node ← if escaped then liftM (host.createText value) else parseFragment host value
  host.appendChild element node

/-- Renders a mustache in content. -/
def renderContent (host : Host σ) (registry : Registry σ) (element : NodeId) (mustache : Mustache) :
    Effect σ RenderError (Bindings σ) := do
  let position := Position.content mustache.escaped
  let outcome ← evaluate registry (some .resolve) element position mustache.expression
  outcome.finish (insertValue host element mustache.escaped)

/-- Renders a mustache that is the whole value of an attribute. -/
def renderSole (host : Host σ) (registry : Registry σ) (element : NodeId) (name : String)
    (mustache : Mustache) : Effect σ RenderError (Bindings σ) := do
  let outcome ← evaluate registry (some .resolveAttribute) element (.attr name) mustache.expression
  outcome.finish fun value => host.setAttribute element name value

/-- The string that the parts of an attribute value come to. No hook is asked, since none could
own the whole value; a helper that yields no value adds nothing. -/
def renderParts (registry : Registry σ) (element : NodeId) (name : String) :
    List Part → Effect σ RenderError (String × Bindings σ)
  | [] => return ("", [])
  | .text text :: rest => do
      let (value, bindings) ← renderParts registry element name rest
      return (text ++ value, bindings)
  | .mustache mustache :: rest => do
      let outcome ← evaluate registry none element (.attr name) mustache.expression
      let (value, bindings) ← renderParts registry element name rest
      match outcome with
      | .value text => return (text ++ value, bindings)
      | .handled => return (value, bindings)
      | .bound binding => return (value, binding :: bindings)

/-- Renders an attribute, of which a mustache alone may be taken care of as a whole. -/
def renderAttribute (host : Host σ) (registry : Registry σ) (element : NodeId) (attr : Attribute) :
    Effect σ RenderError (Bindings σ) :=
  match attr.staticValue? with
  | some value => do
      host.setAttribute element attr.name value
      return []
  | none =>
      match attr.soleMustache? with
      | some mustache => renderSole host registry element attr.name mustache
      | none => do
          let (value, bindings) ← renderParts registry element attr.name attr.value
          host.setAttribute element attr.name value
          return bindings

/-- Renders the attributes of an element in their order. -/
def renderAttributes (host : Host σ) (registry : Registry σ) (element : NodeId) :
    List Attribute → Effect σ RenderError (Bindings σ)
  | [] => return []
  | attr :: rest => do
      let first ← renderAttribute host registry element attr
      let others ← renderAttributes host registry element rest
      return first ++ others

mutual

/-- Renders a node at the end of the parent. An element has its attributes before it is appended,
and is appended before its children are rendered. -/
def renderNode (host : Host σ) (registry : Registry σ) (parent : NodeId) :
    Node → Effect σ RenderError (Bindings σ)
  | .text content => do
      let node ← host.createText content
      host.appendChild parent node
      return []
  | .mustache mustache => renderContent host registry parent mustache
  | .element tag attributes children => do
      let element ← host.createElement tag
      let own ← renderAttributes host registry element attributes
      host.appendChild parent element
      let inner ← renderNodes host registry element children
      return own ++ inner

/-- Renders nodes one after the other, into a node that is there already. -/
def renderNodes (host : Host σ) (registry : Registry σ) (parent : NodeId) :
    List Node → Effect σ RenderError (Bindings σ)
  | [] => return []
  | node :: rest => do
      let first ← renderNode host registry parent node
      let others ← renderNodes host registry parent rest
      return first ++ others

end

/-- Renders a template into a new fragment. -/
def render (host : Host σ) (registry : Registry σ) (nodes : List Node) :
    Effect σ RenderError (NodeId × Bindings σ) := do
  let fragment ← host.createFragment
  let bindings ← renderNodes host registry fragment nodes
  return (fragment, bindings)

/-- The world around data: a document without nodes, and a host that does nothing. -/
def plainWorld (data : Value) : World Unit :=
  { heap := Heap.empty, context := data, host := () }

/-- The HTML of a template for data, when there are no helpers and no hooks. -/
def renderPlain (nodes : List Node) (data : Value) : Except RenderError String :=
  let (outcome, world) := (render (Host.silent Unit) {} nodes).run.run (plainWorld data)
  outcome.map fun (fragment, _) => world.heap.innerHtml fragment

end MustacheHtml.Render
