import MustacheHtml.Dict
import MustacheHtml.Decimal.Layout
import MustacheHtml.Decimal.Reading

namespace MustacheHtml

/-- A value of the data. -/
inductive Value where
  | null
  | bool (value : Bool)
  | number (value : Float)
  | string (value : String)
  | list (items : List Value)
  | map (entries : List (String × Value))
deriving Inhabited

namespace Value

/-- The value at a path, whose segments are keys of maps and positions in lists. -/
def getPath? : Value → List String → Option Value
  | value, [] => some value
  | map entries, segment :: rest => (Dict.get? entries segment).bind (getPath? · rest)
  | list items, segment :: rest =>
      (Decimal.natural? segment.toList).bind fun index => items[index]?.bind (getPath? · rest)
  | _, _ :: _ => none

/-- The value at a path, null where there is none. -/
def lookup (value : Value) (path : List String) : Value :=
  (value.getPath? path).getD null

/-- The entries of a map; all other values have none. -/
def entries : Value → Dict Value
  | map entries => entries
  | _ => []

/-- Replaces the value at a path. What is no map on the way becomes one. -/
def setPath (value : Value) : List String → Value → Value
  | [], replacement => replacement
  | segment :: rest, replacement =>
      let held := (value.entries.get? segment).getD null
      map (value.entries.set segment (held.setPath rest replacement))

/-- The value counts as true. -/
def isTruthy : Value → Bool
  | null => false
  | bool value => value
  | number value => !(value == 0) && !value.isNaN
  | string value => !value.isEmpty
  | list _ => true
  | map _ => true

mutual

/-- The text of a value in the output. -/
def render : Value → String
  | null => ""
  | bool value => if value then "true" else "false"
  | number value => Decimal.Layout.template.text value
  | string value => value
  | list items => ",".intercalate (renderAll items)
  | map _ => ""

def renderAll : List Value → List String
  | [] => []
  | item :: rest => render item :: renderAll rest

end

end Value

end MustacheHtml
