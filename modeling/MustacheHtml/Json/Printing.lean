import MustacheHtml.Json

namespace MustacheHtml.Json

def escapeChar (c : Char) : List Char :=
  if c = '"' then ['\\', '"']
  else if c = '\\' then ['\\', '\\']
  else if c = '\x08' then ['\\', 'b']
  else if c = '\x0c' then ['\\', 'f']
  else if c = '\n' then ['\\', 'n']
  else if c = '\r' then ['\\', 'r']
  else if c = '\t' then ['\\', 't']
  else if c.toNat < 0x10 then ['\\', 'u', '0', '0', '0'] ++ Nat.toDigits 16 c.toNat
  else if c.toNat < 0x20 then ['\\', 'u', '0', '0'] ++ Nat.toDigits 16 c.toNat
  else [c]

/-- A string with its quotes. -/
def quoted (text : String) : String :=
  "\"" ++ String.ofList (text.toList.flatMap escapeChar) ++ "\""

/-- A line break, with two blanks for each level. -/
def newLine (depth : Nat) : String :=
  "\n" ++ String.ofList (List.replicate (2 * depth) ' ')

/-- Items on lines of their own between two marks; without items nothing stands between the marks.
-/
def enclose (opening closing : String) (depth : Nat) (items : List String) : String :=
  match items with
  | [] => opening ++ closing
  | items =>
      let line := newLine (depth + 1)
      opening ++ line ++ ("," ++ line).intercalate items ++ newLine depth ++ closing

mutual

/-- The text of a value whose last line stands at the given depth. -/
def printAt (depth : Nat) : Json → String
  | null => "null"
  | bool value => if value then "true" else "false"
  | number value => Decimal.Layout.json.text value
  | string value => quoted value
  | array items => enclose "[" "]" depth (printItems (depth + 1) items)
  | object members => enclose "\x7b" "\x7d" depth (printMembers (depth + 1) members)

def printItems (depth : Nat) : List Json → List String
  | [] => []
  | item :: rest => printAt depth item :: printItems depth rest

def printMembers (depth : Nat) : List (String × Json) → List String
  | [] => []
  | (key, item) :: rest => (quoted key ++ ": " ++ printAt depth item) :: printMembers depth rest

end

/-- A value in several lines, as it is printed. -/
def print (value : Json) : String :=
  printAt 0 value

end MustacheHtml.Json
