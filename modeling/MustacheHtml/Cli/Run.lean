import MustacheHtml.Cli.Command
import MustacheHtml.Json.Printing
import MustacheHtml.Json.Reading
import MustacheHtml.Render.Rendering
import MustacheHtml.Template
import MustacheHtml.Template.Printing

namespace MustacheHtml.Cli

/-- Why the program fails. -/
inductive Failure where
  | unreadable (path : String)
  | unreadableInput
  | invalidJson (path : String)
  | unwritable (path : String)
  | notCompiled (error : Template.ParseError)
  | notRendered (error : Render.RenderError)
  | notParsed (error : Template.ParseError)
deriving DecidableEq, Repr

namespace Failure

def message : Failure → String
  | unreadable path => "Failed to read " ++ path
  | unreadableInput => "Failed to read from stdin"
  | invalidJson path => "Invalid JSON in " ++ path
  | unwritable path => "Failed to write " ++ path
  | notCompiled _ => "Failed to compile template"
  | notRendered _ => "Failed to render template"
  | notParsed error => error.message

/-- What lies behind the failure, where that is told too. -/
def cause? : Failure → Option String
  | notCompiled error => some error.message
  | notRendered error => some error.message
  | _ => none

/-- The message, with the cause behind it where there is one. -/
def chain (failure : Failure) : String :=
  match failure.cause? with
  | some cause => failure.message ++ ": " ++ cause
  | none => failure.message

end Failure

/-- A whole page with the text as its body. -/
def page (body : String) : String :=
  "<!DOCTYPE html>\n<html>\n<head>\n<meta charset=\"utf-8\">\n</head>\n<body>\n" ++ body ++
    "\n</body>\n</html>\n"

/-- Compiles a template and renders it with the data, without any helpers. -/
def renderToHtml (source : String) (data : Value) (fragmentOnly : Bool) :
    Except Failure String := do
  let template ← (CompiledTemplate.compile source).mapError Failure.notCompiled
  let body ← (Render.renderPlain template.nodes data).mapError Failure.notRendered
  .ok (if fragmentOnly then body else page body)

/-- The syntax tree of a template, as it is printed. -/
def printTree (source : String) : Except Failure String := do
  let nodes ← (Template.parse source).mapError Failure.notParsed
  .ok (Template.toJson nodes).print

/-- What a command can read: files by path, and the standard input. What is missing or no UTF-8
cannot be read. -/
structure Sources where
  file? : String → Option String
  input? : Option String

/-- What the program does in the end, if it does not fail. -/
inductive Effect where
  | print (text : String)
  | write (path : String) (content : String)
deriving DecidableEq, Repr

namespace Sources

/-- The text of a file, or the standard input where the path is a dash. -/
def read (sources : Sources) (path : String) : Except Failure String :=
  if path = "-" then sources.input?.elim (.error .unreadableInput) .ok
  else (sources.file? path).elim (.error (.unreadable path)) .ok

/-- The sources after a path has been read: the standard input can be read once. -/
def afterReading (sources : Sources) (path : String) : Sources :=
  if path = "-" then { sources with input? := some "" } else sources

/-- The data for a template: without a path, an empty object. -/
def readData (sources : Sources) : Option String → Except Failure Value
  | none => .ok (.map [])
  | some path => do
      let text ← sources.read path
      (Json.read? text).elim (.error (.invalidJson path)) fun json => .ok json.toValue

end Sources

def versionText : String := "htmlbars 0.1.0"

/-- What a command comes to, where all files are known. -/
def Command.run (sources : Sources) : Command → Except Failure Effect
  | version => .ok (.print (versionText ++ "\n"))
  | parse template => do
      let source ← sources.read template
      let tree ← printTree source
      .ok (.print (tree ++ "\n"))
  | render template data output fragmentOnly => do
      let source ← sources.read template
      let value ← (sources.afterReading template).readData data
      let html ← renderToHtml source value fragmentOnly
      .ok (output.elim (.print html) (.write · html))

end MustacheHtml.Cli
