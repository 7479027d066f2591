import MustacheHtml.Expression
import MustacheHtml.Render.Binding

/-!
The callees that a template may call: helpers by name, and the hooks that paths are handed to.
-/

namespace MustacheHtml.Render

open MustacheHtml.Document

variable {σ : Type}

/-- What a callee is asked for: a call with its arguments, or a path. -/
inductive Request where
  | call (params : List Param) (hash : Dict Param)
  | path (segments : List String)

namespace Request

/-- The kinds of the positional arguments, one for each. -/
def types : Request → List TypeTag
  | call params _ => params.map Param.typeTag
  | path _ => []

/-- The kinds of the named arguments, under the same names. -/
def hashTypes : Request → Dict TypeTag
  | call _ hash => hash.map fun (key, param) => (key, param.typeTag)
  | path _ => []

end Request

/-- Where a mustache stands. -/
inductive Position where
  | content (escaped : Bool)
  | attr (name : String)
deriving DecidableEq, Repr

/-- All that a callee is told. In content `element` is what new content is appended to, in an
attribute it is the owner. -/
structure Invocation where
  request : Request
  element : NodeId
  position : Position

/-- What a callee has done about a mustache. -/
inductive Outcome (σ : Type) where
  /-- The value is to be inserted. -/
  | value (value : String)
  /-- The callee changed the output itself. -/
  | handled
  /-- The same, and the output can be updated later. -/
  | bound (binding : Binding σ)

/-- A helper or a hook. -/
abbrev Callee (σ : Type) := Invocation → Effect σ String (Outcome σ)

/-- The two hooks, for paths in content and for paths that are a whole attribute value. -/
inductive HookKind where
  | resolve
  | resolveAttribute
deriving DecidableEq, Repr

def HookKind.name : HookKind → String
  | resolve => "RESOLVE"
  | resolveAttribute => "RESOLVE_ATTR"

/-- The helpers and hooks that are known. -/
structure Registry (σ : Type) where
  helpers : Dict (Callee σ) := []
  resolve : Option (Callee σ) := none
  resolveAttribute : Option (Callee σ) := none

namespace Registry

def hook? (registry : Registry σ) : HookKind → Option (Callee σ)
  | .resolve => registry.resolve
  | .resolveAttribute => registry.resolveAttribute

def setHook (registry : Registry σ) (kind : HookKind) (hook : Option (Callee σ)) : Registry σ :=
  match kind with
  | .resolve => { registry with resolve := hook }
  | .resolveAttribute => { registry with resolveAttribute := hook }

def setHelper (registry : Registry σ) (name : String) (helper : Callee σ) : Registry σ :=
  { registry with helpers := registry.helpers.set name helper }

def eraseHelper (registry : Registry σ) (name : String) : Registry σ :=
  { registry with helpers := registry.helpers.erase name }

end Registry

/-- What takes care of an expression. -/
inductive Dispatch (σ : Type) where
  | callee (name : String) (callee : Callee σ) (request : Request)
  | literal (text : String)
  | lookup (path : List String)

/-- The path that an expression is read as when no helper takes it. -/
def fallbackPath? : Expression → Option (List String)
  | .path segments => some segments
  | .call name _ _ => some (splitPath name.toList)
  | _ => none

def literalText : Expression → String
  | .stringLiteral value => value
  | .numberLiteral value => Decimal.Layout.template.text value
  | .booleanLiteral value => if value then "true" else "false"
  | .path _ => ""
  | .call _ _ _ => ""

namespace Registry

/-- The helper that an expression calls. A single name calls the helper of that name without
arguments. -/
def helperCall? (registry : Registry σ) : Expression → Option (Dispatch σ)
  | .call name params hash =>
      (registry.helpers.get? name).map fun helper => .callee name helper (.call params hash)
  | .path [name] => (registry.helpers.get? name).map fun helper => .callee name helper (.call [] [])
  | _ => none

/-- Helpers come first, then literals; a path goes to the hook, if one is in charge, and else is
looked up. -/
def dispatch (registry : Registry σ) (hook : Option HookKind) (expression : Expression) :
    Dispatch σ :=
  match registry.helperCall? expression with
  | some call => call
  | none =>
      match fallbackPath? expression with
      | none => .literal (literalText expression)
      | some path =>
          match hook.bind fun kind => (registry.hook? kind).map fun callee => (kind, callee) with
          | some (kind, callee) => .callee kind.name callee (.path path)
          | none => .lookup path

end Registry

end MustacheHtml.Render
