import MustacheHtml.Text.Search
import MustacheHtml.Value

namespace MustacheHtml

/-- The kind of an argument, told to helpers beside the argument. -/
inductive TypeTag where
  | string
  | number
  | boolean
  | id
deriving DecidableEq, Repr

def TypeTag.name : TypeTag → String
  | string => "string"
  | number => "number"
  | boolean => "boolean"
  | id => "id"

/-- An argument. A path is handed over as its segments, not as the value it leads to. -/
inductive Param where
  | string (value : String)
  | number (value : Float)
  | boolean (value : Bool)
  | id (path : List String)
deriving Inhabited

namespace Param

def typeTag : Param → TypeTag
  | string _ => .string
  | number _ => .number
  | boolean _ => .boolean
  | id _ => .id

/-- The path that an argument is, if it is one. -/
def path? : Param → Option (List String)
  | id path => some path
  | _ => none

/-- The text of an argument; that of a string has no quotes. -/
def display : Param → String
  | string value => value
  | number value => Decimal.Layout.template.text value
  | boolean value => if value then "true" else "false"
  | id path => ".".intercalate path

/-- What an argument stands for in the data: paths are looked up, literals stand for themselves.
-/
def resolve (param : Param) (data : Value) : Value :=
  match param with
  | string value => .string value
  | number value => .number value
  | boolean value => .bool value
  | id path => data.lookup path

end Param

/-- What stands in a mustache. -/
inductive Expression where
  | path (segments : List String)
  | stringLiteral (value : String)
  | numberLiteral (value : Float)
  | booleanLiteral (value : Bool)
  | call (name : String) (params : List Param) (hash : Dict Param)
deriving Inhabited

namespace Expression

/-- An argument that stands alone. -/
def ofParam : Param → Expression
  | .string value => stringLiteral value
  | .number value => numberLiteral value
  | .boolean value => booleanLiteral value
  | .id segments => .path segments

/-- The type of a single value; a call has none. -/
def typeTag? : Expression → Option TypeTag
  | path _ => some .id
  | stringLiteral _ => some .string
  | numberLiteral _ => some .number
  | booleanLiteral _ => some .boolean
  | call _ _ _ => none

end Expression

def isPathSeparator (c : Char) : Bool :=
  c == '.' || c == '/'

/-- A leading `this.` or `this/` says only where a path starts. -/
def dropThis : List Char → List Char
  | 't' :: 'h' :: 'i' :: 's' :: '.' :: rest => rest
  | 't' :: 'h' :: 'i' :: 's' :: '/' :: rest => rest
  | token => token

/-- The segments of a path token; `this` and a lone dot lead to the data as a whole. -/
def splitPath (token : List Char) : List String :=
  let path := dropThis token
  if path = ['t', 'h', 'i', 's'] then []
  else (Text.runs isPathSeparator path).map String.ofList

namespace Param

/-- A number token: an optional minus, digits, and an optional point with digits after it. -/
def number? (token : List Char) : Option Float :=
  let (negative, unsigned) := match token with
    | '-' :: rest => (true, rest)
    | _ => (false, token)
  let (whole, rest) := Text.cutWhile (· != '.') unsigned
  let (fraction, fits) := match rest with
    | _ :: fraction => (fraction, Decimal.isDigits fraction)
    | [] => ([], true)
  if Decimal.isDigits whole && fits then some (Decimal.ofDigits negative whole fraction) else none

/-- What stands between the quotes of a token that begins and ends with the same one. -/
def unquote? : List Char → Option (List Char)
  | [] => none
  | quote :: rest =>
      if Text.isQuote quote && rest.getLast? == some quote then some rest.dropLast else none

/-- The argument that a token stands for: a number, a truth value, a quoted string, or else a
path. -/
def classify (token : List Char) : Param :=
  match number? token with
  | some value => number value
  | none =>
      if token = ['t', 'r', 'u', 'e'] then boolean true
      else if token = ['f', 'a', 'l', 's', 'e'] then boolean false
      else
        match unquote? token with
        | some inner => string (String.ofList inner)
        | none => id (splitPath token)

end Param

end MustacheHtml
