import MustacheHtml.TagName
import MustacheHtml.Expression.Reading
import MustacheHtml.Template.Fault
import MustacheHtml.Template.Node
import MustacheHtml.Template.Scan

namespace MustacheHtml.Template

/-- Reads the expression of a mustache. -/
def readMustache (raw : RawMustache) : Except FaultAt Mustache :=
  match Expression.read raw.source.toList with
  | .ok expression => .ok { expression := expression, escaped := raw.escaped }
  | .error fault => .error ⟨raw.offset, .expression fault⟩

def readPart : RawPart → Except FaultAt Part
  | .text text => .ok (.text text)
  | .mustache raw => Part.mustache <$> readMustache raw

/-- Reads the mustaches in the value of an attribute. -/
def readAttribute (raw : RawAttribute) : Except FaultAt Attribute := do
  .ok { name := raw.name, value := ← raw.value.mapM readPart }

/-- Puts a text after its older siblings, which come newest first. Neighbouring texts become one.
-/
def addText (text : String) : List Node → List Node
  | .text before :: older => .text (before ++ text) :: older
  | siblings => .text text :: siblings

/-- An open element, with the siblings before it, newest first. -/
structure Frame where
  tag : String
  attributes : List Attribute
  offset : Nat
  before : List Node

/-- Closes an element over its children, and goes on with its older siblings. -/
def Frame.close (frame : Frame) (children : List Node) : List Node :=
  .element frame.tag frame.attributes children.reverse :: frame.before

/-- The siblings read so far, newest first, and the open elements around them, innermost first. -/
structure Builder where
  siblings : List Node := []
  openElements : List Frame := []

namespace Builder

/-- Puts a node behind its siblings. -/
def push (builder : Builder) (node : Node) : Builder :=
  { builder with siblings := node :: builder.siblings }

/-- Takes one more token. -/
def add (builder : Builder) : Token → Except FaultAt Builder
  | .text text _ => .ok { builder with siblings := addText text builder.siblings }
  | .mustache raw => do
      let mustache ← readMustache raw
      .ok (builder.push (.mustache mustache))
  | .startTag name raw selfClosing offset => do
      let attributes ← raw.mapM readAttribute
      if selfClosing || TagName.isVoid name then .ok (builder.push (.element name attributes []))
      else
        let frame : Frame := ⟨name, attributes, offset, builder.siblings⟩
        .ok ⟨[], frame :: builder.openElements⟩
  | .endTag name offset =>
      match builder.openElements with
      | [] => .error ⟨offset, .unexpectedClosingTag name⟩
      | frame :: outer =>
          if TagName.same frame.tag name then
            .ok ⟨frame.close builder.siblings, outer⟩
          else .error ⟨offset, .mismatchedClosingTag name frame.tag⟩

/-- The nodes read, if every element is closed. -/
def finish (builder : Builder) : Except FaultAt (List Node) :=
  match builder.openElements with
  | [] => .ok builder.siblings.reverse
  | frame :: _ => .error ⟨frame.offset, .unclosedElement frame.tag⟩

end Builder

/-- The tree that tokens build. -/
def nodesOfTokens (tokens : List Token) : Except FaultAt (List Node) := do
  (← tokens.foldlM Builder.add {}).finish

/-- The tokens of a source, or where and why it has none. -/
def tokenize (source : String) : Except ParseError (List Token) :=
  (tokens source.toList).mapError (ParseError.ofFault source.toList)

/-- The tree of a source. Faults of its tokens come before those of its structure. -/
def parse (source : String) : Except ParseError (List Node) :=
  (tokens source.toList >>= nodesOfTokens).mapError (ParseError.ofFault source.toList)

end MustacheHtml.Template
