import MustacheHtml.Render.Standard
import MustacheHtml.Session.Recorder

namespace MustacheHtml.Session

open MustacheHtml.Document
open MustacheHtml.Render

/-- What a callee does. An attribute may be named in the act; it is else the one the callee is
called for. -/
inductive Act where
  | value (text : String)
  | describe
  | join
  | lookup
  | handled
  | fail (cause : String)
  | failIf (cause : String)
  | appendText
  | appendMarkup
  | setAttribute (name : Option String) (text : String)
  | setContext (path : List String) (value : Value)
  | clear
  | bindText
  | bindFragment
  | bindAttribute (name : Option String)
  | bindAuto (name : Option String)
  | bindToggle (name : Option String)
  | bindFail (cause : String)

/-- What an act does in the course of a session. -/
abbrev Performance := Effect Recorder String

def note (entry : Entry) : StateM (World Recorder) Unit :=
  modify fun world => { world with host := world.host.record entry }

/-- The path that a callee is called with: that of a hook, or the first argument of a helper if it
is a path. -/
def subjectOf : Request → List String
  | .path segments => segments
  | .call params _ => (params.head?.bind Param.path?).getD []

def describeParam (param : Param) : String :=
  param.typeTag.name ++ ":" ++ param.display

def describeRequest : Request → String
  | .path segments => "-".intercalate segments
  | .call params hash =>
      ",".intercalate (params.map describeParam) ++ "|" ++
        ",".intercalate (hash.map fun (key, param) => key ++ "=" ++ describeParam param)

/-- The arguments of a helper as they stand in the data, joined by the one named `sep`. -/
def joinRequest (context : Value) : Request → String
  | .path _ => ""
  | .call params hash =>
      let text (param : Param) := (param.resolve context).render
      ((hash.get? "sep").elim "" text).intercalate (params.map text)

/-- The texts that a toggle chooses from: for the truth and for its opposite. -/
def toggleTexts : Request → String × String
  | .path _ => ("yes", "no")
  | .call _ hash =>
      ((hash.get? "truthy").elim "" Param.display, (hash.get? "falsy").elim "" Param.display)

/-- The attribute that an act is about. -/
def attributeName (name : Option String) (position : Position) : String :=
  name.getD <|
    match position with
    | .attr name => name
    | .content _ => "data-x"

/-- Removes the first child until there is none, at most `count` times. -/
def clearChildren (element : NodeId) : Nat → StateM (World Recorder) Unit
  | 0 => pure ()
  | count + 1 => do
      match (← get).heap.firstChild? element with
      | none => pure ()
      | some child =>
          host.removeChild element child
          clearChildren element count

/-- Sets an attribute to one of two texts, by what the value at the path is. -/
def toggle (element : NodeId) (name : String) (path : List String) (texts : String × String) :
    Performance Unit := do
  let isTruthy := ((← get).context.lookup path).isTruthy
  host.setAttribute element name (if isTruthy then texts.1 else texts.2)

/-- Fails with the cause if the value at the path is truthy. -/
def failIfTruthy (path : List String) (cause : String) : Performance Unit := do
  if ((← get).context.lookup path).isTruthy then throw cause

/-- What an act does when it is called. -/
def Act.perform (act : Act) (invocation : Invocation) : Performance (Outcome Recorder) := do
  let path := subjectOf invocation.request
  let element := invocation.element
  let position := invocation.position
  let lookedUp := (← get).textAt path
  match act with
  | value text => return .value text
  | describe => return .value (describeRequest invocation.request)
  | join => return .value (joinRequest (← get).context invocation.request)
  | lookup => return .value lookedUp
  | handled => return .handled
  | fail cause => throw cause
  | failIf cause =>
      failIfTruthy path cause
      return .value "ok"
  | appendText =>
      let node ← host.createText lookedUp
      host.appendChild element node
      return .handled
  | appendMarkup =>
      let fragment ← makeFragment host lookedUp
      host.appendChild element fragment
      return .handled
  | setAttribute name text =>
      host.setAttribute element (attributeName name position) (text ++ lookedUp)
      return .handled
  | setContext target replacement =>
      modify (·.setPath target replacement)
      return .handled
  | clear =>
      clearChildren element ((← get).heap.children element).length
      return .handled
  | bindText => bindTextTo host element path lookedUp
  | bindFragment => bindFragmentTo host element path lookedUp
  | bindAttribute name => bindAttributeTo host element (attributeName name position) path lookedUp
  | bindAuto name =>
      match position with
      | .attr own => bindTo host (.attr (name.getD own)) element path lookedUp
      | .content escaped => bindTo host (.content escaped) element path lookedUp
  | bindToggle name =>
      let texts := toggleTexts invocation.request
      let update := toggle element (attributeName name position) path texts
      let binding : Binding Recorder := ⟨path, .computed update⟩
      let updated ← ExceptT.adapt RenderError.message (binding.update host)
      return .bound updated
  | bindFail cause => return .bound ⟨path, .computed (failIfTruthy path cause)⟩

/-- A callee of the given name that does what the act says, after the call has been recorded. -/
def Act.callee (act : Act) (name : String) : Callee Recorder := fun invocation => do
  let element := ElementRecord.ofNode (← get).heap invocation.element
  let entry :=
    match invocation.request with
    | .call params hash => Entry.helperCall name params hash invocation.position element
    | .path path => Entry.hookCall name path invocation.position element
  note entry
  act.perform invocation

end MustacheHtml.Session
