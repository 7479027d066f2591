import MustacheHtml.Template.Building

namespace MustacheHtml

/-- A template that can be rendered. -/
structure CompiledTemplate where
  /-- The source, if the template was compiled from one. -/
  source : Option String
  nodes : List Template.Node

namespace CompiledTemplate

/-- Compiles a source; that fails where its tree cannot be parsed. -/
def compile (source : String) : Except Template.ParseError CompiledTemplate := do
  .ok { source := some source, nodes := ← Template.parse source }

/-- The template of a tree, which has no source. -/
def ofNodes (nodes : List Template.Node) : CompiledTemplate :=
  { source := none, nodes := nodes }

end CompiledTemplate

/-- A template in a cache. The serial number tells it from all others the cache ever held. -/
structure CachedTemplate where
  serial : Nat
  template : CompiledTemplate

/-- Templates by their source, each with the serial number it was made under. -/
structure TemplateCache where
  entries : Dict CachedTemplate := []
  nextSerial : Nat := 0

namespace TemplateCache

def size (cache : TemplateCache) : Nat :=
  cache.entries.length

def isEmpty (cache : TemplateCache) : Bool :=
  cache.entries.isEmpty

/-- The template of a source, compiled when it is asked for first. A source that is no template is
not kept. -/
def getOrCompile (cache : TemplateCache) (source : String) :
    Except Template.ParseError (CachedTemplate × TemplateCache) :=
  match cache.entries.get? source with
  | some held => .ok (held, cache)
  | none => do
      let template ← CompiledTemplate.compile source
      let made : CachedTemplate := ⟨cache.nextSerial, template⟩
      .ok (made, ⟨cache.entries.set source made, cache.nextSerial + 1⟩)

/-- Forgets all templates, but not which serial numbers have been given. -/
def clear (cache : TemplateCache) : TemplateCache :=
  { cache with entries := [] }

end TemplateCache

end MustacheHtml
