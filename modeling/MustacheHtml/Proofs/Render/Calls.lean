import MustacheHtml.Proofs.Render.Journal
import MustacheHtml.Proofs.Render.Refinement

namespace MustacheHtml.Render

open MustacheHtml.Document
open MustacheHtml.Template

variable {σ : Type}

namespace Call

/-- The call of a helper. -/
def ofHelper (name : String) (params : List Param) (hash : Dict Param) (place : Place) : Call where
  addressee := .helper name
  request := .call params hash
  types := params.map Param.typeTag
  hashTypes := hash.map fun (key, param) => (key, param.typeTag)
  position := place.position

/-- The call of a hook, for a path alone. -/
def ofHook (kind : HookKind) (path : List String) (place : Place) : Call where
  addressee := .hook kind
  request := .path path
  types := []
  hashTypes := []
  position := place.position

end Call

namespace Registry

variable (registry : Registry σ)

/-- A path calls the hook in charge of the place, if there is one. -/
def pathCalls (place : Place) (path : List String) : List Call :=
  match place.hook with
  | none => []
  | some kind => if (registry.hook? kind).isSome then [.ofHook kind path place] else []

/-- A call, or a path of one segment, calls the helper of that name; without one it is a path. -/
def expressionCalls (place : Place) : Expression → List Call
  | .call name params hash =>
      if registry.helpers.contains name then [.ofHelper name params hash place]
      else registry.pathCalls place (splitPath name.toList)
  | .path [name] =>
      if registry.helpers.contains name then [.ofHelper name [] [] place]
      else registry.pathCalls place [name]
  | .path segments => registry.pathCalls place segments
  | .stringLiteral _ => []
  | .numberLiteral _ => []
  | .booleanLiteral _ => []

def partCalls (place : Place) : Part → List Call
  | .text _ => []
  | .mustache mustache => registry.expressionCalls place mustache.expression

/-- The calls in the value of an attribute. -/
def attributeCalls (attr : Attribute) : List Call :=
  attr.value.flatMap (registry.partCalls (.inValue attr))

mutual

/-- The calls in a node, in document order. -/
def nodeCalls : Node → List Call
  | .text _ => []
  | .mustache mustache => registry.expressionCalls (.content mustache.escaped) mustache.expression
  | .element _ attributes children => attributes.flatMap registry.attributeCalls ++ calls children

/-- The calls that the nodes of a template prescribe, those of an element's attributes before those
of its children. -/
def calls : List Node → List Call
  | [] => []
  | node :: rest => nodeCalls node ++ calls rest

end

end Registry

section Keeping

variable {host : Host σ} {registry : Registry σ} {expression : Expression}

/-- The bindings of a rendering that keeps a journal. -/
def Bindings.keeping (bindings : Bindings σ) : Bindings (σ × Journal) :=
  bindings.map Binding.keeping

end Keeping

/-- A name calls its helper everywhere. A path calls a hook in content and as a whole value, but not
within a value, and a literal calls nobody. -/
example :
    let callee : Callee Unit := fun _ => return .handled
    let registry : Registry Unit := ⟨[("now", callee)], some callee, some callee⟩
    registry.calls
      [.element "p"
        [⟨"id", [.mustache ⟨.path ["a", "b"], true⟩]⟩,
          ⟨"class", [.mustache ⟨.path ["c"], true⟩, .mustache ⟨.path ["now"], true⟩]⟩]
        [.mustache ⟨.call "now" [.boolean true] [], true⟩, .mustache ⟨.stringLiteral "s", true⟩],
        .mustache ⟨.call "d.e" [.boolean true] [], false⟩] =
      [.ofHook .resolveAttribute ["a", "b"] (.wholeValue "id"),
        .ofHelper "now" [] [] (.partOfValue "class"),
        .ofHelper "now" [.boolean true] [] (.content true),
        .ofHook .resolve ["d", "e"] (.content false)] := rfl

end MustacheHtml.Render
