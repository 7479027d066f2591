import MustacheHtml.Expression
import MustacheHtml.Expression.Fault
import MustacheHtml.Text.Alphanumeric

namespace MustacheHtml.Expression

/-- The token that the text goes on with, and the tokens after it. The first argument is the quote
that is open, if one is. -/
def tokensFrom : Option Char → List Char → Except Fault (List Char × List (List Char))
  | none, [] => .ok ([], [])
  | some _, [] => .error .unterminatedString
  | some quote, c :: rest => do
      let (token, tokens) ← tokensFrom (if c = quote then none else some quote) rest
      .ok (c :: token, tokens)
  | none, c :: rest =>
      if Text.isQuote c then do
        let (token, tokens) ← tokensFrom (some c) rest
        .ok (c :: token, tokens)
      else if Text.isBlank c then do
        let (token, tokens) ← tokensFrom none rest
        .ok ([], Text.consRun token tokens)
      else do
        let (token, tokens) ← tokensFrom none rest
        .ok (c :: token, tokens)

/-- The maximal runs of characters that are no blanks outside quotes. -/
def tokens (text : List Char) : Except Fault (List (List Char)) := do
  let (token, others) ← tokensFrom none text
  .ok (Text.consRun token others)

def isKeyChar (c : Char) : Bool :=
  Text.isAlphanumeric c || c == '_' || c == '-' || c == '.'

/-- The key and the value of a token `key=value`. -/
def hashPair? (token : List Char) : Option (List Char × List Char) :=
  (Text.cut? ['='] token).bind fun (key, value) =>
    if !key.isEmpty && key.all isKeyChar then some (key, value) else none

/-- The arguments of a call as far as they have been read. -/
structure Arguments where
  params : List Param := []
  hash : Dict Param := []

/-- Reads one more argument. Positional ones come first; the last value of a key counts. -/
def Arguments.add (arguments : Arguments) (token : List Char) : Except Fault Arguments :=
  match hashPair? token with
  | some (key, value) =>
      if value.isEmpty then .error (.missingValue (String.ofList key))
      else
        let hash := arguments.hash.set (String.ofList key) (Param.classify value)
        .ok { arguments with hash := hash }
  | none =>
      if arguments.hash.isEmpty then
        .ok { arguments with params := arguments.params ++ [Param.classify token] }
      else .error (.positionalAfterHash (String.ofList token))

/-- A helper's name has to be a path with at least one segment. -/
def isCallName (token : List Char) : Bool :=
  match Param.classify token with
  | .id (_ :: _) => true
  | _ => false

/-- The expression that tokens come to: a value alone, or a name with arguments. -/
def ofTokens : List (List Char) → Except Fault Expression
  | [] => .error .empty
  | first :: rest =>
      if (hashPair? first).isSome then .error (.pairForName (String.ofList first))
      else if rest.isEmpty then .ok (ofParam (Param.classify first))
      else if isCallName first then do
        let arguments ← rest.foldlM Arguments.add {}
        .ok (call (String.ofList first) arguments.params arguments.hash)
      else .error (.noPathForName (String.ofList first))

/-- Reads what stands between the braces of a mustache. -/
def read (text : List Char) : Except Fault Expression := do
  ofTokens (← tokens text)

end MustacheHtml.Expression
