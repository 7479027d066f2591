import MustacheHtml.Cli.Run

namespace MustacheHtml.Cli

/-- The text of a file, if it can be read and is UTF-8. -/
def readFile? (path : String) : IO (Option String) := do
  match ← (IO.FS.readBinFile path).toBaseIO with
  | .ok bytes => return String.fromUTF8? bytes
  | .error _ => return none

/-- The files that a command reads. -/
def Command.paths : Command → List String
  | version => []
  | parse template => [template]
  | render template data _ _ => template :: data.toList

/-- Reads all files that a command needs, before it is run. -/
def readSources (command : Command) : IO Sources := do
  let paths := command.paths
  let files ← (paths.filter (· ≠ "-")).mapM fun path => return (path, ← readFile? path)
  let input ←
    if paths.contains "-" then
      let bytes ← (← IO.getStdin).readBinToEnd
      pure (String.fromUTF8? bytes)
    else pure (some "")
  return { file? := fun path => (files.lookup path).join, input? := input }

/-- Tells on the standard error why a command failed. -/
def report (failure : Failure) : IO UInt32 := do
  IO.eprintln ("Error: " ++ failure.message)
  match failure.cause? with
  | some cause => IO.eprintln ("\nCaused by:\n    " ++ cause)
  | none => pure ()
  return 1

/-- Does what a command has come to: the exit code. -/
def perform (effect : Effect) : IO UInt32 := do
  match effect with
  | .print text =>
      IO.print text
      return 0
  | .write path content =>
      match ← (IO.FS.writeFile path content).toBaseIO with
      | .ok _ => return 0
      | .error _ => report (.unwritable path)

end MustacheHtml.Cli

open MustacheHtml.Cli in
def main (arguments : List String) : IO UInt32 := do
  match Command.ofArguments? arguments with
  | none =>
      IO.eprintln "Usage: htmlbars render TEMPLATE [-d FILE] [-o FILE] [--fragment-only]"
      IO.eprintln "       htmlbars parse TEMPLATE"
      return 2
  | some command =>
      match command.run (← readSources command) with
      | .error failure => report failure
      | .ok effect => perform effect
