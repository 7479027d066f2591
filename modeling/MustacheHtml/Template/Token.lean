namespace MustacheHtml.Template

/-- A mustache whose expression has not been read yet. -/
structure RawMustache where
  source : String
  escaped : Bool
  offset : Nat
deriving DecidableEq, Repr

/-- A part of an attribute value, of which the mustaches have not been read yet. -/
inductive RawPart where
  | text (text : String)
  | mustache (mustache : RawMustache)
deriving DecidableEq, Repr

/-- An attribute as it was found, with the place of its name. -/
structure RawAttribute where
  name : String
  value : List RawPart
  offset : Nat
deriving DecidableEq, Repr

/-- A token of a template, with its place in the source. -/
inductive Token where
  | text (text : String) (offset : Nat)
  | mustache (mustache : RawMustache)
  | startTag (name : String) (attributes : List RawAttribute) (selfClosing : Bool) (offset : Nat)
  | endTag (name : String) (offset : Nat)
deriving DecidableEq, Repr

end MustacheHtml.Template
