import MustacheHtml.Session.Step
import MustacheHtml.Session.Summary
import MustacheHtml.Render.Rendering

namespace MustacheHtml.Session

open MustacheHtml.Document
open MustacheHtml.Render

/-- A template under a name; one from the cache is known by its serial number. -/
structure NamedTemplate where
  template : CompiledTemplate
  serial : Option Nat

/-- The output of a render under a name: the node it was rendered into, and its bindings. -/
structure NamedRender where
  node : NodeId
  bindings : Bindings Recorder

/-- A session between two steps. -/
structure State where
  world : World Recorder
  registry : Registry Recorder := {}
  cache : TemplateCache := {}
  templates : Dict NamedTemplate := []
  nodes : Dict NodeId := []
  renders : Dict NamedRender := []

/-- A session with its data, where nothing has happened yet. -/
def State.start (context : Value) : State where
  world := { heap := Heap.empty, context := context, host := {} }

/-- A part of a step, which may end it early with an answer. -/
abbrev Turn := ExceptT Answer (StateM State)

namespace Turn

/-- Does something in the world of the session. -/
def inWorld {α : Type} (action : StateM (World Recorder) α) : Turn α :=
  modifyGet fun state =>
    let (result, world) := action.run state.world
    (result, { state with world := world })

def heap : Turn Heap := do
  return (← get).world.heap

def node (name : String) : Turn NodeId := do
  match (← get).nodes.get? name with
  | some id => return id
  | none => throw (.missing .node)

def template (name : String) : Turn NamedTemplate := do
  match (← get).templates.get? name with
  | some named => return named
  | none => throw (.missing .template)

def rendered (name : String) : Turn NamedRender := do
  match (← get).renders.get? name with
  | some named => return named
  | none => throw (.missing .render)

def keepNode (name : String) (id : NodeId) : Turn Unit :=
  modify fun state => { state with nodes := state.nodes.set name id }

def keepTemplate (name : String) (named : NamedTemplate) : Turn Unit :=
  modify fun state => { state with templates := state.templates.set name named }

def keepRender (name : String) (named : NamedRender) : Turn Unit :=
  modify fun state => { state with renders := state.renders.set name named }

def changeRegistry (change : Registry Recorder → Registry Recorder) : Turn Unit :=
  modify fun state => { state with registry := change state.registry }

def changeRecorder (change : Recorder → Recorder) : Turn Unit :=
  modify fun state => { state with world := { state.world with host := change state.world.host } }

def showNode (id : NodeId) : Turn Answer := do
  return .node (some ((← heap).outerHtml id))

/-- Keeps a node under the name if there is one. -/
def keepFound (name : String) : Option NodeId → Turn Answer
  | none => return .node none
  | some id => do
      keepNode name id
      showNode id

def showRender (named : NamedRender) : Turn Answer := do
  return .rendered ((← heap).innerHtml named.node)
    (named.bindings.map fun binding => (binding.path, TargetKind.ofTarget binding.target))

def keepRendered (name : String) (named : NamedRender) : Turn Answer := do
  keepRender name named
  showRender named

end Turn

open Turn

/-- Whether a template of the cache already has a name. -/
def State.holds (state : State) (serial : Nat) : Bool :=
  state.templates.any fun (_, named) => named.serial == some serial

def showCompiled (template : CompiledTemplate) (shared : Bool) : Turn Answer := do
  return .compiled template.source template.nodes.length (← get).cache.size shared

/-- Compiles a template the way that is asked for, and keeps it. -/
def playCompile (target source : String) : Route → Turn Answer
  | .compile =>
      match CompiledTemplate.compile source with
      | .error error => throw (.notCompiled error none)
      | .ok template => do
          keepTemplate target ⟨template, none⟩
          showCompiled template false
  | .tree =>
      match Template.parse source with
      | .error error => throw (.notCompiled error none)
      | .ok nodes => do
          keepTemplate target ⟨CompiledTemplate.ofNodes nodes, none⟩
          showCompiled (CompiledTemplate.ofNodes nodes) false
  | .cache => do
      let state ← get
      match state.cache.getOrCompile source with
      | .error error => throw (.notCompiled error (some state.cache.size))
      | .ok (cached, cache) =>
          modify fun state => { state with cache := cache }
          keepTemplate target ⟨cached.template, some cached.serial⟩
          showCompiled cached.template (state.holds cached.serial)

/-- Renders a template into a new fragment, which is kept if that succeeds. -/
def playRender (target template : String) : Turn Answer := do
  let named ← Turn.template template
  let registry := (← get).registry
  match ← inWorld (render host registry named.template.nodes).run with
  | .error error => throw (.failed error none)
  | .ok (fragment, bindings) =>
      keepNode target fragment
      keepRendered target ⟨fragment, bindings⟩

/-- Renders a template into a node that is there already. -/
def playRenderInto (target template parent : String) : Turn Answer := do
  let named ← Turn.template template
  let id ← node parent
  let registry := (← get).registry
  match ← inWorld (renderNodes host registry id named.template.nodes).run with
  | .error error => throw (.failed error (some ((← heap).innerHtml id)))
  | .ok bindings =>
      keepNode target id
      keepRendered target ⟨id, bindings⟩

/-- Makes a binding by hand. -/
def playBind (target : String) (kind : BindingKind) (nodeName name : String) (path : List String)
    (owner : String) : Turn Answer := do
  let id ← node nodeName
  let binding : Binding Recorder ←
    match kind with
    | .text => pure ⟨path, .text id⟩
    | .fragment => inWorld (Binding.ofFragment host id path)
    | .attribute => pure ⟨path, .attribute id name⟩
  let ownerId := ((← get).nodes.get? owner).getD id
  keepRendered target ⟨ownerId, [binding]⟩

/-- Updates all bindings of a render, or one of them. -/
def playUpdate (name : String) (index : Option Nat) : Turn Answer := do
  let named ← rendered name
  match index with
  | none =>
      let (bindings, outcome) ← inWorld (Binding.updateAll host named.bindings)
      keepRender name { named with bindings := bindings }
      let html := (← heap).innerHtml named.node
      match outcome with
      | .error error => throw (.failed error (some html))
      | .ok () => return .updated html
  | some index =>
      match named.bindings[index]? with
      | none => throw (.missing .binding)
      | some binding =>
          let outcome ← inWorld (binding.update host).run
          let html := (← heap).innerHtml named.node
          match outcome with
          | .error error => throw (.failed error (some html))
          | .ok updated =>
              keepRender name { named with bindings := named.bindings.set index updated }
              return .updated html

/-- Whether a node stands above another one, at most so many levels. -/
def isAbove (heap : Heap) (upper : NodeId) : Nat → NodeId → Bool
  | 0, _ => false
  | levels + 1, lower =>
      match heap.parent? lower with
      | none => false
      | some parent => parent = upper || isAbove heap upper levels parent

/-- Inserts a node, unless it is above the place where it would go. -/
def playInsert (parent child : String) (before : Option NodeId)
    (act : NodeId → NodeId → Option NodeId → StateM (World Recorder) Unit) : Turn Answer := do
  let parentId ← node parent
  let childId ← node child
  if isAbove (← heap) childId (← heap).size parentId then throw .cycle
  inWorld (act parentId childId before)
  let heap ← heap
  return .moved (heap.outerHtml parentId) (heap.outerHtml childId)

/-- The node that a path of child positions leads to. -/
def descend? (heap : Heap) : NodeId → List Nat → Option NodeId
  | id, [] => some id
  | id, index :: rest => (heap.children id)[index]?.bind (descend? heap · rest)

/-- The relative of a node in the tree, if it has one. -/
def relative? (heap : Heap) (id : NodeId) : Relative → Option NodeId
  | .parent => heap.parent? id
  | .next => heap.nextSibling? id
  | .first => heap.firstChild? id
  | .last => heap.lastChild? id

def playSummarize : Subject → Turn Answer
  | .registry => do return .summary (registrySummary (← get).registry)
  | .cache => do return .summary (cacheSummary (← get).cache)
  | .template name => do return .summary (templateSummary (← template name).template)
  | .node name => do
      let id ← node name
      return .summary (nodeSummary (← heap) id)
  | .rendered name => do
      let named ← rendered name
      return .summary (renderedSummary (← heap) named.node named.bindings)

/-- What a step does, and its answer. -/
def play : Step → Turn Answer
  | .trace on => do
      changeRecorder ({ · with tracing := on })
      return .done
  | .refuse text => do
      changeRecorder ({ · with refused := text })
      return .done
  | .setHelper name act => do
      changeRegistry (·.setHelper name (act.callee name))
      return .done
  | .setHook kind act => do
      changeRegistry (·.setHook kind (some (act.callee kind.name)))
      return .done
  | .eraseHelper name => do
      let was := (← get).registry.helpers.contains name
      changeRegistry (·.eraseHelper name)
      return .removed was
  | .eraseHook kind => do
      let was := ((← get).registry.hook? kind).isSome
      changeRegistry (·.setHook kind none)
      return .removed was
  | .hasHelper name => do return .has ((← get).registry.helpers.contains name)
  | .hasHook kind => do return .hasHook ((← get).registry.hook? kind).isSome kind.name
  | .compile target source route => playCompile target source route
  | .clearCache => do
      modify fun state => { state with cache := state.cache.clear }
      return .cleared
  | .render target template => playRender target template
  | .renderInto target template parent => playRenderInto target template parent
  | .bind target kind node name path owner => playBind target kind node name path owner
  | .update name index => playUpdate name index
  | .setValue path value => do
      modify fun state => { state with world := state.world.setPath path value }
      return .root (← get).world.context
  | .getValue path => do
      let context := (← get).world.context
      return .value (context.lookup path) (context.getPath? path).isSome
  | .makeFragment target => do
      let id ← inWorld host.createFragment
      keepFound target (some id)
  | .makeText target content => do
      let id ← inWorld (host.createText content)
      keepFound target (some id)
  | .makeElement target tag => do
      let id ← inWorld (host.createElement tag)
      keepFound target (some id)
  | .makeMarkup target markup => do
      -- Markup is read for a node that it is to stand in; here that is a fragment of its own.
      discard (inWorld host.createFragment)
      match ← inWorld (parseFragment host markup).run with
      | .error error => throw (.failed error none)
      | .ok id => keepFound target (some id)
  | .clone target name => do
      let id ← node name
      let copy ← inWorld (World.allocate (·.deepClone id))
      keepFound target (some copy)
  | .pick target name path => do
      let id ← node name
      keepFound target (descend? (← heap) id path)
  | .relative relative target name => do
      let id ← node name
      keepFound target (relative? (← heap) id relative)
  | .append parent child =>
      playInsert parent child none fun parent child _ => host.appendChild parent child
  | .insert parent child before => do
      let reference := (← get).nodes.get? before
      playInsert parent child reference host.insertBefore
  | .remove parent child => do
      let parentId ← node parent
      let childId ← node child
      inWorld (host.removeChild parentId childId)
      let heap ← heap
      return .removedChild (heap.outerHtml parentId) (heap.parent? childId).isSome
  | .setAttribute name attr value => do
      let id ← node name
      inWorld (host.setAttribute id attr value)
      showNode id
  | .setText name content => do
      let id ← node name
      inWorld (host.setText id content)
      showNode id
  | .getAttribute name attr => do
      let id ← node name
      return .attribute ((← heap).attribute? id attr)
  | .same left right => do
      let leftId ← node left
      let rightId ← node right
      return .same (leftId == rightId)
  | .inspect name => do
      let id ← node name
      return .inspected (Inspection.ofNode (← heap) id)
  | .summarize subject => playSummarize subject

/-- Plays a step; what has been recorded in its course comes with the answer. -/
def State.step (state : State) (step : Step) : (Answer × List Entry) × State :=
  let (result, after) := (play step).run.run state
  let answer := match result with
    | .ok answer => answer
    | .error answer => answer
  ((answer, after.world.host.entries),
    { after with world := { after.world with host := { after.world.host with entries := [] } } })

end MustacheHtml.Session
