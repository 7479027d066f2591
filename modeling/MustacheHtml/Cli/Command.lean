namespace MustacheHtml.Cli

/-- What the program is asked to do. -/
inductive Command where
  | version
  /-- Print the syntax tree of a template. -/
  | parse (template : String)
  /-- Render a template with the data of a file, into a file or to the standard output, as a whole
  page or not. -/
  | render (template : String) (data output : Option String) (fragmentOnly : Bool)
deriving DecidableEq, Repr

/-- An option that takes a value. -/
inductive ValueOption where
  | data
  | output
deriving DecidableEq, Repr

/-- The options and flags that a command takes. -/
structure Grammar where
  valueOption? : String → Option ValueOption
  shortOption? : Char → Option ValueOption
  isFlag : String → Bool

/-- The grammar of rendering, the only command with options. -/
def Grammar.render : Grammar where
  valueOption? := fun name =>
    if name = "data" then some .data else if name = "output" then some .output else none
  shortOption? := fun c => if c = 'd' then some .data else if c = 'o' then some .output else none
  isFlag := fun name => name == "fragment-only"

/-- The grammar of parsing, which takes no options. -/
def Grammar.parse : Grammar where
  valueOption? := fun _ => none
  shortOption? := fun _ => none
  isFlag := fun _ => false

/-- The arguments read so far. Nothing may be given twice. -/
structure Arguments where
  template : Option String := none
  data : Option String := none
  output : Option String := none
  flag : Bool := false

namespace Arguments

/-- Takes an operand as the template, unless there is one already. -/
def addTemplate? (arguments : Arguments) (value : String) : Option Arguments :=
  if arguments.template.isSome then none else some { arguments with template := some value }

/-- Takes the value of an option, unless that one has a value already. -/
def addValue? (arguments : Arguments) (option : ValueOption) (value : String) : Option Arguments :=
  match option, arguments.data, arguments.output with
  | .data, none, _ => some { arguments with data := some value }
  | .output, _, none => some { arguments with output := some value }
  | _, _, _ => none

/-- Takes the flag, unless it was given before. -/
def addFlag? (arguments : Arguments) : Option Arguments :=
  if arguments.flag then none else some { arguments with flag := true }

end Arguments

/-- What a single argument of the command line is. -/
inductive Word where
  /-- Two dashes alone: what follows are no options. -/
  | separator
  | operand (text : String)
  | flag
  | assigned (option : ValueOption) (value : String)
  /-- An option whose value is the next argument. -/
  | pending (option : ValueOption)
  | unknown
deriving DecidableEq, Repr

/-- An option by its long name, which the value follows after an equals sign or as the next
argument. -/
def longWord (grammar : Grammar) (text : List Char) : Word :=
  let name := String.ofList (text.takeWhile (· != '='))
  match text.dropWhile (· != '='), grammar.valueOption? name with
  | _ :: value, some option => .assigned option (String.ofList value)
  | [], some option => .pending option
  | [], none => if grammar.isFlag name then .flag else .unknown
  | _ :: _, none => .unknown

/-- An option by its letter, which the value follows at once, after an equals sign, or as the next
argument. -/
def shortWord (grammar : Grammar) (letter : Char) (rest : List Char) : Word :=
  match grammar.shortOption? letter, rest with
  | none, _ => .unknown
  | some option, [] => .pending option
  | some option, '=' :: value => .assigned option (String.ofList value)
  | some option, value => .assigned option (String.ofList value)

def Word.ofText (grammar : Grammar) (text : String) : Word :=
  match text.toList with
  | ['-', '-'] => separator
  | '-' :: '-' :: rest => longWord grammar rest
  | '-' :: letter :: rest => shortWord grammar letter rest
  | _ => operand text

/-- Whether an argument looks like an option; a lone dash does not. -/
def looksLikeOption (text : String) : Bool :=
  match text.toList with
  | '-' :: _ :: _ => true
  | _ => false

/-- Reads the arguments of a command. None is a usage error. -/
def readArguments? (grammar : Grammar) : Arguments → List String → Option Arguments
  | arguments, [] => some arguments
  | arguments, text :: rest =>
      match Word.ofText grammar text with
      | .separator => rest.foldlM Arguments.addTemplate? arguments
      | .operand value => (arguments.addTemplate? value).bind (readArguments? grammar · rest)
      | .flag => arguments.addFlag?.bind (readArguments? grammar · rest)
      | .assigned option value =>
          (arguments.addValue? option value).bind (readArguments? grammar · rest)
      | .pending option =>
          match rest with
          | [] => none
          | value :: others =>
              if looksLikeOption value then none
              else (arguments.addValue? option value).bind (readArguments? grammar · others)
      | .unknown => none

/-- The version is asked for by a long word alone or by a letter, whatever follows it. -/
def asksForVersion (text : String) : Bool :=
  text == "--version" || text.toList.take 2 == ['-', 'V']

/-- The command that the arguments of the program give. None is a usage error. -/
def Command.ofArguments? : List String → Option Command
  | [] => none
  | first :: rest =>
      if asksForVersion first then some version
      else if first = "render" then do
        let arguments ← readArguments? Grammar.render {} rest
        let template ← arguments.template
        some (render template arguments.data arguments.output arguments.flag)
      else if first = "parse" then do
        let arguments ← readArguments? Grammar.parse {} rest
        let template ← arguments.template
        some (parse template)
      else none

end MustacheHtml.Cli
