import MustacheHtml.Render.Registry

namespace MustacheHtml.Session

open MustacheHtml.Document
open MustacheHtml.Render

/-- What an element looked like when a callee was called on it. -/
structure ElementRecord where
  tag : Option String
  html : String
  children : Nat
  attached : Bool
deriving DecidableEq, Repr

def ElementRecord.ofNode (heap : Heap) (id : NodeId) : ElementRecord where
  tag := heap.tag? id
  html := heap.outerHtml id
  children := (heap.children id).length
  attached := (heap.parent? id).isSome

/-- Something recorded. Operations on the document show their nodes as HTML. -/
inductive Entry where
  | helperCall (name : String) (params : List Param) (hash : Dict Param) (position : Position)
      (element : ElementRecord)
  | hookCall (name : String) (path : List String) (position : Position) (element : ElementRecord)
  | operation (name : String) (arguments : List (Option String))

/-- What is recorded of an operation before it takes place. -/
def Entry.ofOperation (heap : Heap) : Operation → Entry
  | .createFragment => operation "create_fragment" []
  | .createText content => operation "create_text" [content]
  | .createElement tag => operation "create_element" [tag]
  | .appendChild parent child =>
      operation "append_child" [heap.outerHtml parent, heap.outerHtml child]
  | .setAttribute element name value =>
      operation "set_attribute" [heap.outerHtml element, name, value]
  | .parseFragment markup => operation "parse_fragment" [markup]
  | .setText node content => operation "set_text" [heap.outerHtml node, content]
  | .insertBefore parent child before =>
      operation "insert_before"
        [heap.outerHtml parent, heap.outerHtml child, before.map heap.outerHtml]
  | .removeChild parent child =>
      operation "remove_child" [heap.outerHtml parent, heap.outerHtml child]

/-- What the host of a session keeps. -/
structure Recorder where
  /-- Whether operations on the document are recorded. -/
  tracing : Bool := false
  /-- Markup that contains this text is refused. -/
  refused : Option String := none
  entries : List Entry := []

namespace Recorder

def record (recorder : Recorder) (entry : Entry) : Recorder :=
  { recorder with entries := recorder.entries ++ [entry] }

/-- The message with which markup is refused, if it is. -/
def refusal? (recorder : Recorder) (markup : String) : Option String :=
  recorder.refused.bind fun text =>
    if (Text.cut? text.toList markup.toList).isSome then some ("refused " ++ text) else none

end Recorder

/-- The host of a session. -/
def host : Host Recorder where
  observe := fun operation heap recorder =>
    if recorder.tracing then recorder.record (Entry.ofOperation heap operation) else recorder
  refusal? := Recorder.refusal?

end MustacheHtml.Session
