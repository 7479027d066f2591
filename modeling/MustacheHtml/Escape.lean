namespace MustacheHtml.Escape

/-- A character of a text, as it is written in HTML. -/
def textChar : Char → List Char
  | '&' => ['&', 'a', 'm', 'p', ';']
  | '<' => ['&', 'l', 't', ';']
  | '>' => ['&', 'g', 't', ';']
  | '\xa0' => ['&', 'n', 'b', 's', 'p', ';']
  | c => [c]

/-- A character of an attribute value, as it is written between double quotes. -/
def attributeChar : Char → List Char
  | '&' => ['&', 'a', 'm', 'p', ';']
  | '"' => ['&', 'q', 'u', 'o', 't', ';']
  | '\xa0' => ['&', 'n', 'b', 's', 'p', ';']
  | c => [c]

/-- Text content; quotes stand for themselves there. -/
def textContent (content : List Char) : List Char :=
  content.flatMap textChar

def attributeValue (value : List Char) : List Char :=
  value.flatMap attributeChar

end MustacheHtml.Escape
