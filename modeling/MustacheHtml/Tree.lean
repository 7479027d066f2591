import MustacheHtml.Escape
import MustacheHtml.TagName

namespace MustacheHtml

/-- Attributes in the order in which their names were first set. -/
abbrev Attributes := List (String × String)

namespace Attributes

def get? (attributes : Attributes) (name : String) : Option String :=
  (attributes.find? fun attr => attr.1 == name).map (·.2)

/-- Replaces the value of the attribute in its place, or adds the attribute at the end. -/
def set : Attributes → String → String → Attributes
  | [], name, value => [(name, value)]
  | (first, held) :: rest, name, value =>
      if first = name then (name, value) :: rest else (first, held) :: set rest name value

/-- The attributes of a start tag, each after a blank. -/
def html : Attributes → List Char
  | [] => []
  | (name, value) :: rest =>
      [' '] ++ name.toList ++ ['=', '"'] ++ Escape.attributeValue value.toList ++ ['"'] ++ html rest

end Attributes

/-- A tree of texts and elements. -/
inductive Tree where
  | text (content : String)
  | element (tag : String) (attributes : List (String × String)) (children : List Tree)
deriving Inhabited, Repr

/-- Trees side by side. -/
abbrev Forest := List Tree

namespace Tree

mutual

/-- The tree as HTML. `raw` is whether its text stands in an element that takes text without
escapes. -/
def html (raw : Bool) : Tree → List Char
  | text content => if raw then content.toList else Escape.textContent content.toList
  | element tag attributes children =>
      ['<'] ++ tag.toList ++ Attributes.html attributes ++ ['>'] ++
        if TagName.isVoid tag then []
        else forestHtml (TagName.isRawText tag) children ++ ['<', '/'] ++ tag.toList ++ ['>']

/-- The HTML of a forest. -/
def forestHtml (raw : Bool) : List Tree → List Char
  | [] => []
  | tree :: rest => html raw tree ++ forestHtml raw rest

end

mutual

/-- The text of a tree without any tags. -/
def textContent : Tree → String
  | text content => content
  | element _ _ children => forestText children

def forestText : List Tree → String
  | [] => ""
  | tree :: rest => textContent tree ++ forestText rest

end

end Tree

end MustacheHtml
