import MustacheHtml.Dict

namespace MustacheHtml.Markup

/-- A token of markup. -/
inductive Token where
  | startTag (name : String) (attributes : Dict String) (selfClosing : Bool)
  | endTag (name : String)
  | text (text : String)
  | comment (text : String)
  | doctype (text : String)
  /-- Markup that comes to nothing, such as a tag cut off by the end of the input. -/
  | error (text : String)
deriving DecidableEq, Repr

end MustacheHtml.Markup
