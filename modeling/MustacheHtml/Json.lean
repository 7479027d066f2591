import MustacheHtml.Value

namespace MustacheHtml

/-- A JSON value. The members of an object stand as they were written, and a key may come twice. -/
inductive Json where
  | null
  | bool (value : Bool)
  | number (value : Float)
  | string (value : String)
  | array (items : List Json)
  | object (members : List (String × Json))
deriving Inhabited

namespace Json

mutual

/-- The data that a JSON value stands for; of two members with one name the later one counts. -/
def toValue : Json → Value
  | null => .null
  | bool value => .bool value
  | number value => .number value
  | string value => .string value
  | array items => .list (toValues items)
  | object members => .map (Dict.ofList (toEntries members))

def toValues : List Json → List Value
  | [] => []
  | item :: rest => toValue item :: toValues rest

def toEntries : List (String × Json) → List (String × Value)
  | [] => []
  | (key, item) :: rest => (key, toValue item) :: toEntries rest

end

end Json

end MustacheHtml
