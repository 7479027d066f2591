namespace MustacheHtml.Expression

/-- Why an expression cannot be read. -/
inductive Fault where
  | empty
  | unterminatedString
  | pairForName (token : String)
  | noPathForName (token : String)
  | missingValue (key : String)
  | positionalAfterHash (token : String)
deriving DecidableEq, Repr

def Fault.message : Fault → String
  | empty => "empty mustache"
  | unterminatedString => "unterminated string literal"
  | pairForName token => "expected a helper name before '" ++ token ++ "'"
  | noPathForName token => "expected a helper name, found '" ++ token ++ "'"
  | missingValue key => "missing value for hash argument '" ++ key ++ "'"
  | positionalAfterHash token =>
      "positional argument '" ++ token ++ "' must come before hash arguments"

end MustacheHtml.Expression
