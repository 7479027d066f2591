import MustacheHtml.Render.Registry
import MustacheHtml.Template
import MustacheHtml.Text.Quoted

namespace MustacheHtml.Session

open MustacheHtml.Document
open MustacheHtml.Render

variable {σ : Type}

/-- A record with its fields, in one line. -/
def fields (name : String) (entries : List (String × String)) : String :=
  let texts := entries.map fun (field, text) => field ++ ": " ++ text
  name ++ " \x7b " ++ ", ".intercalate texts ++ " \x7d"

def brackets (texts : List String) : String :=
  "[" ++ ", ".intercalate texts ++ "]"

def flagText (flag : Bool) : String :=
  if flag then "true" else "false"

/-- The names of all helpers, and which hooks there are. -/
def registrySummary (registry : Registry σ) : String :=
  fields "Runtime" [
    ("helpers", brackets (registry.helpers.keys.map Text.quoted)),
    ("resolve", flagText registry.resolve.isSome),
    ("resolve_attr", flagText registry.resolveAttribute.isSome)]

def cacheSummary (cache : TemplateCache) : String :=
  fields "TemplateCache" [("len", toString cache.size)]

def templateSummary (template : CompiledTemplate) : String :=
  fields "Template" [
    ("source", template.source.elim "None" fun source => "Some(" ++ Text.quoted source ++ ")"),
    ("program", fields "Program" [("ops", toString template.nodes.length)])]

def nodeSummary (heap : Heap) (id : NodeId) : String :=
  "HtmlNode(" ++ heap.outerHtml id ++ ")"

/-- The target of a binding, with the nodes it is to. -/
def targetSummary (heap : Heap) : Target σ → String
  | .text node => "Text(" ++ nodeSummary heap node ++ ")"
  | .fragment first last =>
      "Fragment(" ++ nodeSummary heap first ++ ".." ++ nodeSummary heap last ++ ")"
  | .attribute element name => "Attribute(" ++ nodeSummary heap element ++ ", " ++ name ++ ")"
  | .computed _ => "Computed"

/-- A binding with its path and its target. -/
def bindingSummary (heap : Heap) (binding : Binding σ) : String :=
  fields "Binding" [
    ("path", brackets (binding.path.map Text.quoted)),
    ("target", Text.quoted (targetSummary heap binding.target))]

/-- The output of a rendering with its bindings. -/
def renderedSummary (heap : Heap) (fragment : NodeId) (bindings : Bindings σ) : String :=
  fields "Rendered" [
    ("fragment", nodeSummary heap fragment),
    ("bindings", brackets (bindings.map (bindingSummary heap)))]

end MustacheHtml.Session
