import MustacheHtml.Expression.Fault
import MustacheHtml.Text.Location

namespace MustacheHtml.Template

/-- Why a template cannot be parsed. -/
inductive Fault where
  | unterminatedMustache
  | unterminatedString
  | unterminatedComment
  | unterminatedDeclaration
  | malformedClosingTag
  | unterminatedClosingTag (name : String)
  | unterminatedTag (name : String)
  | mustacheInTag (name : String)
  | malformedAttribute
  | unterminatedValue (attributeName : String)
  | missingValue (attributeName : String)
  | unclosedElement (tag : String)
  | mismatchedClosingTag (name : String) (expected : String)
  | unexpectedClosingTag (name : String)
  | expression (fault : Expression.Fault)
deriving DecidableEq, Repr

def Fault.message : Fault → String
  | unterminatedMustache => "unterminated mustache"
  | unterminatedString => "unterminated string literal"
  | unterminatedComment => "unterminated comment"
  | unterminatedDeclaration => "unterminated declaration"
  | malformedClosingTag => "malformed closing tag"
  | unterminatedClosingTag name => "unterminated closing tag </" ++ name ++ ">"
  | unterminatedTag name => "unterminated tag <" ++ name ++ ">"
  | mustacheInTag name => "mustaches are not allowed in the tag of <" ++ name ++ ">"
  | malformedAttribute => "malformed attribute"
  | unterminatedValue attributeName => "unterminated value for attribute '" ++ attributeName ++ "'"
  | missingValue attributeName => "missing value for attribute '" ++ attributeName ++ "'"
  | unclosedElement tag => "unclosed element <" ++ tag ++ ">"
  | mismatchedClosingTag name expected =>
      "mismatched closing tag </" ++ name ++ ">, expected </" ++ expected ++ ">"
  | unexpectedClosingTag name => "unexpected closing tag </" ++ name ++ ">"
  | expression fault => fault.message

/-- A fault and the byte where it is. -/
structure FaultAt where
  offset : Nat
  fault : Fault
deriving DecidableEq, Repr

/-- A fault at the place where a reader of the source finds it. -/
structure ParseError where
  location : Text.Location
  fault : Fault
deriving DecidableEq, Repr

namespace ParseError

/-- How an error with any message is told. -/
def text (location : Text.Location) (message : String) : String :=
  "Parse error at " ++ toString location.line ++ ":" ++ toString location.column ++ ": " ++ message

/-- The message with its line and column. -/
def message (error : ParseError) : String :=
  text error.location error.fault.message

/-- Finds the place of a fault in its source. -/
def ofFault (source : List Char) (found : FaultAt) : ParseError :=
  ⟨Text.Location.ofOffset source found.offset, found.fault⟩

end ParseError

end MustacheHtml.Template
