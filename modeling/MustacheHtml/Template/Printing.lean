import MustacheHtml.Json
import MustacheHtml.Template.Node

namespace MustacheHtml

namespace Param

def valueToJson : Param → Json
  | string value => .string value
  | number value => .number value
  | boolean value => .bool value
  | id path => .array (path.map Json.string)

/-- An argument with its type. -/
def toJson (param : Param) : Json :=
  .object [("type", .string param.typeTag.name), ("value", param.valueToJson)]

end Param

/-- An expression, by its kind. -/
def Expression.toJson : Expression → Json
  | path segments =>
      .object [("kind", .string "path"), ("segments", .array (segments.map Json.string))]
  | stringLiteral value => .object [("kind", .string "string_literal"), ("value", .string value)]
  | numberLiteral value => .object [("kind", .string "number_literal"), ("value", .number value)]
  | booleanLiteral value => .object [("kind", .string "boolean_literal"), ("value", .bool value)]
  | call name params hash =>
      .object [
        ("kind", .string "helper_call"),
        ("name", .string name),
        ("params", .array (params.map Param.toJson)),
        ("hash", .object (hash.map fun entry => (entry.1, entry.2.toJson)))]

namespace Template

/-- The members that a mustache adds to whatever it stands in. -/
def Mustache.members (mustache : Mustache) : List (String × Json) :=
  [("expression", mustache.expression.toJson), ("escaped", .bool mustache.escaped)]

def Part.toJson : Part → Json
  | text literal => .object [("text", .string literal)]
  | mustache inner => .object [("mustache", .object inner.members)]

def Attribute.toJson (attr : Attribute) : Json :=
  .object [("name", .string attr.name), ("value", .array (attr.value.map Part.toJson))]

mutual

/-- A node, by its kind. -/
def Node.toJson : Node → Json
  | .text content => .object [("node", .string "text"), ("text", .string content)]
  | .mustache inner => .object (("node", .string "mustache") :: inner.members)
  | .element tag attributes children =>
      .object [
        ("node", .string "element"),
        ("tag", .string tag),
        ("attributes", .array (attributes.map Attribute.toJson)),
        ("children", .array (Node.listToJson children))]

def Node.listToJson : List Node → List Json
  | [] => []
  | node :: rest => Node.toJson node :: Node.listToJson rest

end

/-- The syntax tree of a template. -/
def toJson (nodes : List Node) : Json :=
  .array (Node.listToJson nodes)

end Template

end MustacheHtml
