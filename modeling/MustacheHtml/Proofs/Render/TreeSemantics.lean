import MustacheHtml.Markup.Building
import MustacheHtml.Render.Registry
import MustacheHtml.Template.Node

/-!
The forest that a template stands for, by recursion on its nodes alone: no document, no bindings.
It applies to callees that only answer with a value, as decided by what they are asked for, where,
and with which data.
-/

namespace MustacheHtml.Render

open MustacheHtml.Template

/-- What a callee answers: a value, or the cause of a failure. -/
abbrev Answer := Request → Position → Value → Except String String

/-- The answers of all helpers and hooks. -/
structure Answers where
  helper? : String → Option Answer := fun _ => none
  resolve : Option Answer := none
  resolveAttribute : Option Answer := none

/-- Where an expression stands in a template. -/
inductive Place where
  | content (escaped : Bool)
  | wholeValue (name : String)
  | partOfValue (name : String)
deriving DecidableEq, Repr

namespace Place

/-- The position that a callee is told of. -/
def position : Place → Position
  | content escaped => .content escaped
  | wholeValue name => .attr name
  | partOfValue name => .attr name

/-- The hook that takes care of a path in a place, if one may. -/
def hook : Place → Option HookKind
  | content _ => some .resolve
  | wholeValue _ => some .resolveAttribute
  | partOfValue _ => none

/-- The place of a mustache in the value of an attribute. -/
def inValue (attr : Attribute) : Place :=
  if attr.value.length = 1 then wholeValue attr.name else partOfValue attr.name

end Place

namespace Answers

variable (answers : Answers) (data : Value)

def hook? : HookKind → Option Answer
  | .resolve => answers.resolve
  | .resolveAttribute => answers.resolveAttribute

/-- The answer of a callee, whose failure is told under its name. -/
def ask (answer : Answer) (name : String) (request : Request) (place : Place) :
    Except RenderError String :=
  (answer request place.position data).mapError (.resolution name)

/-- The string of a path: what the hook in charge answers, and else the value in the data. -/
def pathString (place : Place) (path : List String) : Except RenderError String :=
  match place.hook with
  | none => .ok (data.lookup path).render
  | some kind =>
      match answers.hook? kind with
      | some answer => ask data answer kind.name (.path path) place
      | none => .ok (data.lookup path).render

/-- The string of a mustache. A call, or a path of one segment, is answered by the helper of that
name; a call without a helper is the path that its name spells. -/
def string (place : Place) : Expression → Except RenderError String
  | .call name params hash =>
      match answers.helper? name with
      | some answer => ask data answer name (.call params hash) place
      | none => answers.pathString data place (splitPath name.toList)
  | .path [name] =>
      match answers.helper? name with
      | some answer => ask data answer name (.call [] []) place
      | none => answers.pathString data place [name]
  | .path segments => answers.pathString data place segments
  | .stringLiteral value => .ok value
  | .numberLiteral value => .ok (Decimal.Layout.template.text value)
  | .booleanLiteral value => .ok (if value then "true" else "false")

def partString (place : Place) : Part → Except RenderError String
  | .text literal => .ok literal
  | .mustache mustache => answers.string data place mustache.expression

/-- The string of a value: that of its parts in their order. -/
def partsString (place : Place) : List Part → Except RenderError String
  | [] => .ok ""
  | part :: rest => do
      let own ← answers.partString data place part
      let others ← partsString place rest
      .ok (own ++ others)

/-- Sets the attributes one after the other; a name that comes again has its value replaced. -/
def setAttributes (held : Attributes) : List Attribute → Except RenderError Attributes
  | [] => .ok held
  | attr :: rest => do
      let value ← answers.partsString data (.inValue attr) attr.value
      setAttributes (held.set attr.name value) rest

variable (refusal? : String → Option String)

/-- A value as trees: one text, or the forest that it is as markup. -/
def inserted (escaped : Bool) (value : String) : Except RenderError Forest :=
  if escaped then .ok [.text value]
  else
    match refusal? value with
    | some message => .error (.markup message)
    | none => .ok (Markup.parse value)

/-- What a mustache in content draws. -/
def mustacheForest (mustache : Mustache) : Except RenderError Forest := do
  let value ← answers.string data (.content mustache.escaped) mustache.expression
  inserted refusal? mustache.escaped value

mutual

/-- What a node draws. -/
def nodeForest : Node → Except RenderError Forest
  | .text text => .ok [.text text]
  | .mustache mustache => answers.mustacheForest data refusal? mustache
  | .element tag attributes children => do
      let attributes ← answers.setAttributes data [] attributes
      let inner ← forest children
      .ok [.element tag attributes inner]

/-- The forest that the nodes of a template stand for. The first failure in document order counts.
-/
def forest : List Node → Except RenderError Forest
  | [] => .ok []
  | node :: rest => do
      let own ← nodeForest node
      let others ← forest rest
      .ok (own ++ others)

end

/-- No helper and no hook ever fails. -/
structure Total : Prop where
  helper : ∀ name answer, answers.helper? name = some answer →
    ∀ request position data, ∃ value, answer request position data = .ok value
  hook : ∀ kind answer, answers.hook? kind = some answer →
    ∀ request position data, ∃ value, answer request position data = .ok value

end Answers

end MustacheHtml.Render
