namespace MustacheHtml.TagName

/-- The name in lower case; letters beyond ASCII stay as they are. -/
def fold (name : String) : String :=
  String.ofList (name.toList.map Char.toLower)

/-- Two names differ at most in case. -/
def same (left right : String) : Bool :=
  fold left == fold right

/-- The elements that never have children and need no closing tag. -/
def voidNames : List String :=
  ["area", "base", "br", "col", "embed", "hr", "img", "input", "link", "meta", "source", "track",
    "wbr"]

/-- Elements of that name have no content and no end tag. -/
def isVoid (name : String) : Bool :=
  voidNames.contains (fold name)

/-- The elements whose text is written without escapes. -/
def isRawText (name : String) : Bool :=
  fold name == "script" || fold name == "style"

end MustacheHtml.TagName
