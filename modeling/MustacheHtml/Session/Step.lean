import MustacheHtml.Session.Act
import MustacheHtml.Template

/-!
The steps of a session and the answers to them. Templates, nodes and renders go by names.
-/

namespace MustacheHtml.Session

open MustacheHtml.Document
open MustacheHtml.Render

/-- The ways to a compiled template. -/
inductive Route where
  | compile
  | cache
  /-- From the tree alone, so that the template does not know its source. -/
  | tree
deriving DecidableEq, Repr

/-- How a node is related to another one. -/
inductive Relative where
  | parent
  | next
  | first
  | last
deriving DecidableEq, Repr

/-- The kinds of bindings that are made by hand. -/
inductive BindingKind where
  | text
  | fragment
  | attribute
deriving DecidableEq, Repr

/-- What a summary is about. -/
inductive Subject where
  | registry
  | cache
  | template (name : String)
  | node (name : String)
  | rendered (name : String)
deriving DecidableEq, Repr

/-- A step of a session. -/
inductive Step where
  | trace (on : Bool)
  | refuse (text : Option String)
  | setHelper (name : String) (act : Act)
  | setHook (kind : HookKind) (act : Act)
  | eraseHelper (name : String)
  | eraseHook (kind : HookKind)
  | hasHelper (name : String)
  | hasHook (kind : HookKind)
  | compile (target source : String) (route : Route)
  | clearCache
  | render (target template : String)
  | renderInto (target template parent : String)
  | bind (target : String) (kind : BindingKind) (node name : String) (path : List String)
      (owner : String)
  | update (rendered : String) (index : Option Nat)
  | setValue (path : List String) (value : Value)
  | getValue (path : List String)
  | makeFragment (target : String)
  | makeText (target content : String)
  | makeElement (target tag : String)
  | makeMarkup (target markup : String)
  | clone (target node : String)
  | pick (target node : String) (path : List Nat)
  | relative (relative : Relative) (target node : String)
  | append (parent child : String)
  | insert (parent child before : String)
  | remove (parent child : String)
  | setAttribute (node name value : String)
  | setText (node content : String)
  | getAttribute (node name : String)
  | same (left right : String)
  | inspect (node : String)
  | summarize (subject : Subject)

/-- What a name has not been given to. -/
inductive Missing where
  | node
  | template
  | render
  | binding
deriving DecidableEq, Repr

def Missing.message : Missing → String
  | node => "no such node"
  | template => "no such template"
  | render => "no such render"
  | binding => "no such binding"

/-- What a binding is responsible for, without the nodes. -/
inductive TargetKind where
  | text
  | fragment
  | attribute (name : String)
  | computed
deriving DecidableEq, Repr

def TargetKind.ofTarget : Target Recorder → TargetKind
  | .text _ => text
  | .fragment _ _ => fragment
  | .attribute _ name => .attribute name
  | .computed _ => computed

def TargetKind.describe : TargetKind → String
  | text => "text"
  | fragment => "fragment"
  | .attribute name => "attribute " ++ name
  | computed => "computed"

/-- All that can be asked of a node. -/
structure Inspection where
  kind : Kind
  children : Nat
  attached : Bool
  text : String
  inner : String
  outer : String
deriving DecidableEq, Repr

def Inspection.ofNode (heap : Heap) (id : NodeId) : Inspection where
  kind := heap.kind id
  children := (heap.children id).length
  attached := (heap.parent? id).isSome
  text := heap.textContent id
  inner := heap.innerHtml id
  outer := heap.outerHtml id

/-- The answer to a step. -/
inductive Answer where
  | done
  | removed (was : Bool)
  | has (has : Bool)
  | hasHook (has : Bool) (name : String)
  | compiled (source : Option String) (nodes cacheSize : Nat) (shared : Bool)
  | notCompiled (error : Template.ParseError) (cacheSize : Option Nat)
  | cleared
  | rendered (html : String) (bindings : List (List String × TargetKind))
  | updated (html : String)
  | failed (error : RenderError) (html : Option String)
  | root (value : Value)
  | value (value : Value) (found : Bool)
  | node (html : Option String)
  | moved (parent child : String)
  | removedChild (parent : String) (attached : Bool)
  | attribute (value : Option String)
  | same (same : Bool)
  | inspected (inspection : Inspection)
  | summary (text : String)
  | missing (what : Missing)
  /-- A node would have come to stand below itself. -/
  | cycle

end MustacheHtml.Session
