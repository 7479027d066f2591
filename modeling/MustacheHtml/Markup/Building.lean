import MustacheHtml.Markup.Scan
import MustacheHtml.Tree

namespace MustacheHtml.Markup

/-- The start tags that end an open paragraph. -/
def paragraphEnders : List String :=
  ["address", "article", "aside", "blockquote", "div", "dl", "fieldset", "footer", "form", "h1",
    "h2", "h3", "h4", "h5", "h6", "header", "hr", "main", "nav", "ol", "p", "pre", "section",
    "table", "ul"]

/-- The start tags that end an open element whose end tag is left out. -/
def implicitEnders (tag : String) : List String :=
  match tag with
  | "li" => ["li"]
  | "dt" => ["dt", "dd"]
  | "dd" => ["dt", "dd"]
  | "option" => ["option", "optgroup"]
  | "tr" => ["tr"]
  | "td" => ["td", "th", "tr"]
  | "th" => ["td", "th", "tr"]
  | "p" => paragraphEnders
  | _ => []

/-- Whether the start tag `incoming` ends the open element `tag`. -/
def closesImplicitly (tag incoming : String) : Bool :=
  (implicitEnders tag).contains incoming

/-- An open element, with the siblings before it, newest first. -/
structure Frame where
  tag : String
  attributes : Attributes
  before : Forest

/-- The siblings read so far, newest first, and the open elements around them, innermost first. -/
structure Builder where
  siblings : Forest := []
  openElements : List Frame := []

/-- The siblings around an element once it is closed. -/
def Frame.close (frame : Frame) (children : Forest) : Forest :=
  .element frame.tag frame.attributes children.reverse :: frame.before

/-- Closes the innermost elements that the start tag `incoming` ends. -/
def closeImplied (incoming : String) (siblings : Forest) : List Frame → Builder
  | [] => ⟨siblings, []⟩
  | frame :: outer =>
      if closesImplicitly frame.tag incoming then closeImplied incoming (frame.close siblings) outer
      else ⟨siblings, frame :: outer⟩

/-- Closes the open elements up to and including the innermost one with the name. -/
def closeThrough (name : String) (siblings : Forest) : List Frame → Builder
  | [] => ⟨siblings, []⟩
  | frame :: outer =>
      if frame.tag = name then ⟨frame.close siblings, outer⟩
      else closeThrough name (frame.close siblings) outer

/-- Closes all open elements: the whole forest. -/
def closeAll (siblings : Forest) : List Frame → Forest
  | [] => siblings.reverse
  | frame :: outer => closeAll (frame.close siblings) outer

/-- Puts a text after its older siblings, which come newest first. Neighbouring texts become one,
and an empty text is nothing. -/
def addText (content : String) (siblings : Forest) : Forest :=
  if content.isEmpty then siblings
  else
    match siblings with
    | .text before :: older => .text (before ++ content) :: older
    | siblings => .text content :: siblings

namespace Builder

/-- The builder after one more token. -/
def add (builder : Builder) : Token → Builder
  | .startTag written attributes selfClosing =>
      let name := TagName.fold written
      let opened := closeImplied name builder.siblings builder.openElements
      if selfClosing || TagName.isVoid name then
        { opened with siblings := .element name attributes [] :: opened.siblings }
      else ⟨[], ⟨name, attributes, opened.siblings⟩ :: opened.openElements⟩
  | .endTag written =>
      let name := TagName.fold written
      if builder.openElements.any (·.tag == name) then
        closeThrough name builder.siblings builder.openElements
      else builder
  | .text content => { builder with siblings := addText content builder.siblings }
  | .comment _ => builder
  | .doctype _ => builder
  | .error _ => builder

/-- The forest, with all elements closed that are still open. -/
def finish (builder : Builder) : Forest :=
  closeAll builder.siblings builder.openElements

end Builder

/-- The forest that tokens build. -/
def forestOfTokens (tokens : List Token) : Forest :=
  (tokens.foldl Builder.add {}).finish

/-- The forest of markup. Any text is markup of something. -/
def parse (markup : String) : Forest :=
  forestOfTokens (tokens markup.toList)

end MustacheHtml.Markup
