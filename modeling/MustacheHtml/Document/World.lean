import MustacheHtml.Value
import MustacheHtml.Document.Copy
import MustacheHtml.Document.View

/-!
Where rendering happens: the document, the data, and whatever the host of the document keeps for
itself. The host sees every operation on the document before it takes place, and may refuse
markup.
-/

namespace MustacheHtml.Document

/-- An operation on the document, as the host sees it. -/
inductive Operation where
  | createFragment
  | createText (content : String)
  | createElement (tag : String)
  | appendChild (parent child : NodeId)
  | setAttribute (element : NodeId) (name value : String)
  | parseFragment (markup : String)
  | setText (node : NodeId) (content : String)
  | insertBefore (parent child : NodeId) (before : Option NodeId)
  | removeChild (parent child : NodeId)
deriving DecidableEq, Repr

/-- All that an update or a rendering can change: the document, the data, and what the host has
kept. -/
structure World (σ : Type) where
  heap : Heap
  context : Value
  host : σ

/-- The host of the document, which sees all operations and may refuse markup. -/
structure Host (σ : Type) where
  /-- What the host keeps of an operation that is about to take place. -/
  observe : Operation → Heap → σ → σ
  /-- The message with which the host refuses markup, if it does. -/
  refusal? : σ → String → Option String

/-- A host that keeps nothing and refuses nothing. -/
def Host.silent (σ : Type) : Host σ where
  observe := fun _ _ host => host
  refusal? := fun _ _ => none

/-- A computation that changes the world, whether it fails or not. -/
abbrev Effect (σ ε α : Type) := ExceptT ε (StateM (World σ)) α

namespace World

variable {σ : Type}

/-- Changes the document only. -/
def modifyHeap (change : Heap → Heap) : StateM (World σ) Unit :=
  modify fun world => { world with heap := change world.heap }

/-- Makes a node, or several below one. -/
def allocate (make : Heap → NodeId × Heap) : StateM (World σ) NodeId :=
  modifyGet fun world =>
    let (id, heap) := make world.heap
    (id, { world with heap := heap })

/-- The text of the value at a path of the data. -/
def textAt (world : World σ) (path : List String) : String :=
  (world.context.lookup path).render

/-- Sets the value at a path of the data. -/
def setPath (world : World σ) (path : List String) (value : Value) : World σ :=
  { world with context := world.context.setPath path value }

end World

namespace Host

variable {σ : Type} (host : Host σ)

/-- Tells the host of an operation that is about to take place. -/
def announce (operation : Operation) : StateM (World σ) Unit :=
  modify fun world => { world with host := host.observe operation world.heap world.host }

def createFragment : StateM (World σ) NodeId := do
  host.announce .createFragment
  World.allocate (·.create .fragment)

def createText (content : String) : StateM (World σ) NodeId := do
  host.announce (.createText content)
  World.allocate (·.create (.text content))

def createElement (tag : String) : StateM (World σ) NodeId := do
  host.announce (.createElement tag)
  World.allocate (·.create (.element tag []))

def appendChild (parent child : NodeId) : StateM (World σ) Unit := do
  host.announce (.appendChild parent child)
  World.modifyHeap (·.append parent child)

def setAttribute (element : NodeId) (name value : String) : StateM (World σ) Unit := do
  host.announce (.setAttribute element name value)
  World.modifyHeap (·.setAttribute element name value)

/-- Makes a fragment of markup, unless the host refuses it. -/
def parseFragment (markup : String) : Effect σ String NodeId := do
  host.announce (.parseFragment markup)
  match host.refusal? (← get).host markup with
  | some message => throw message
  | none => liftM (World.allocate (·.parseFragment markup) : StateM (World σ) NodeId)

def setText (node : NodeId) (content : String) : StateM (World σ) Unit := do
  host.announce (.setText node content)
  World.modifyHeap (·.setText node content)

def insertBefore (parent child : NodeId) (before : Option NodeId) : StateM (World σ) Unit := do
  host.announce (.insertBefore parent child before)
  World.modifyHeap (·.insert parent child before)

def removeChild (parent child : NodeId) : StateM (World σ) Unit := do
  host.announce (.removeChild parent child)
  World.modifyHeap (·.remove parent child)

end Host

end MustacheHtml.Document
