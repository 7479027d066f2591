import MustacheHtml.Expression

namespace MustacheHtml.Template

/-- A mustache of the tree. -/
structure Mustache where
  expression : Expression
  /-- Whether the value is inserted as text rather than as markup. -/
  escaped : Bool
deriving Inhabited

/-- A part of an attribute value. -/
inductive Part where
  | text (literal : String)
  | mustache (mustache : Mustache)
deriving Inhabited

namespace Part

def text? : Part → Option String
  | text literal => some literal
  | mustache _ => none

end Part

/-- An attribute with the parts of its value in their order. -/
structure Attribute where
  name : String
  value : List Part
deriving Inhabited

namespace Attribute

/-- The mustache that makes up the whole value. Only such a one may take the attribute over. -/
def soleMustache? (attr : Attribute) : Option Mustache :=
  match attr.value with
  | [.mustache mustache] => some mustache
  | _ => none

/-- The value, if no mustache is in it. -/
def staticValue? (attr : Attribute) : Option String :=
  (attr.value.mapM Part.text?).map String.join

end Attribute

/-- A node of the syntax tree. -/
inductive Node where
  | text (text : String)
  | mustache (mustache : Mustache)
  | element (tag : String) (attributes : List Attribute) (children : List Node)
deriving Inhabited

end MustacheHtml.Template
