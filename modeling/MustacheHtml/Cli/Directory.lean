import MustacheHtml.Cli.Run
import MustacheHtml.Dict

namespace MustacheHtml.Cli

/-- The files of the working directory, with their bytes. -/
abbrev Directory := Dict ByteArray

namespace Directory

/-- The parts of a path that lead anywhere: neither empty ones nor dots. -/
def pathParts (path : String) : List (List Char) :=
  (Text.runs (· == '/') path.toList).filter (· ≠ ['.'])

/-- The last part of a path that has anything in it. -/
def lastPart? (path : String) : Option (List Char) :=
  (Text.runs (· == '/') path.toList).getLast?

/-- The path under which a file of the directory would be listed. A path from the root, one that
leads out of the directory, and one with a slash at the end list none. -/
def listed? (path : String) : Option String :=
  let parts := pathParts path
  let fromRoot := path.toList.head? == some '/'
  let toFolder := path.toList.getLast? == some '/' || lastPart? path == some ['.']
  if parts.isEmpty || fromRoot || toFolder || parts.contains ['.', '.'] then none
  else some ("/".intercalate (parts.map String.ofList))

/-- Some file lies below the path. -/
def isFolder (directory : Directory) (path : String) : Bool :=
  directory.any fun (name, _) => (path ++ "/").isPrefixOf name

/-- The bytes of the file that a path leads to. -/
def bytes? (directory : Directory) (path : String) : Option ByteArray :=
  (listed? path).bind directory.get?

/-- The text of a file, if its bytes are one. -/
def read? (directory : Directory) (path : String) : Option String :=
  (directory.bytes? path).bind String.fromUTF8?

/-- The folder that a listed path stands in; none for the directory itself. -/
def folder? (name : String) : Option String :=
  match (Text.runs (· == '/') name.toList).dropLast with
  | [] => none
  | parts => some ("/".intercalate (parts.map String.ofList))

/-- The directory with a file written. Folders are not made. -/
def write? (directory : Directory) (path : String) (content : String) : Option Directory :=
  (listed? path).bind fun name =>
    if directory.isFolder name then none
    else if (folder? name).all directory.isFolder then some (directory.set name content.toUTF8)
    else none

end Directory

/-- What is left when the program has ended. -/
structure Report where
  exitCode : Nat
  output : String
  failure : Option Failure
  directory : Directory

namespace Report

def succeeded (directory : Directory) (output : String) : Report :=
  ⟨0, output, none, directory⟩

def failed (directory : Directory) (failure : Failure) : Report :=
  ⟨1, "", some failure, directory⟩

/-- The arguments make no command. -/
def usage (directory : Directory) : Report :=
  ⟨2, "", none, directory⟩

end Report

/-- Runs the program with its arguments in a directory. -/
def run (arguments : List String) (directory : Directory) (input : ByteArray) : Report :=
  match Command.ofArguments? arguments with
  | none => Report.usage directory
  | some command =>
      match command.run { file? := directory.read?, input? := String.fromUTF8? input } with
      | .error failure => Report.failed directory failure
      | .ok (.print text) => Report.succeeded directory text
      | .ok (.write path content) =>
          match directory.write? path content with
          | some written => Report.succeeded written ""
          | none => Report.failed directory (.unwritable path)

end MustacheHtml.Cli
