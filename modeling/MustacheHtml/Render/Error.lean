namespace MustacheHtml.Render

/-- Why a rendering or an update fails. -/
inductive RenderError where
  /-- The callee of that name failed. -/
  | resolution (name : String) (cause : String)
  /-- The document refused markup. -/
  | markup (message : String)
deriving DecidableEq, Repr

def RenderError.message : RenderError → String
  | resolution name cause => "Resolution error in '" ++ name ++ "': " ++ cause
  | markup message => "Markup error: " ++ message

end MustacheHtml.Render
