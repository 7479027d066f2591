namespace MustacheHtml

/-- Entries in increasing key order. -/
abbrev Dict (α : Type) := List (String × α)

namespace Dict

variable {α : Type}

/-- The value of a key, if the dictionary has it. -/
def get? : Dict α → String → Option α
  | [], _ => none
  | (key, value) :: rest, wanted => if key = wanted then some value else get? rest wanted

/-- Replaces the entry of the key, or adds one where the key belongs. -/
def set : Dict α → String → α → Dict α
  | [], key, value => [(key, value)]
  | (first, held) :: rest, key, value =>
      if first < key then (first, held) :: set rest key value
      else if first = key then (key, value) :: rest
      else (key, value) :: (first, held) :: rest

/-- The dictionary without a key. -/
def erase (dict : Dict α) (key : String) : Dict α :=
  dict.filter fun entry => entry.1 ≠ key

def contains (dict : Dict α) (key : String) : Bool :=
  (dict.get? key).isSome

def keys (dict : Dict α) : List String :=
  dict.map (·.1)

/-- The dictionary of some entries, of which later ones replace earlier ones of their key. -/
def ofList (entries : List (String × α)) : Dict α :=
  entries.foldl (fun dict entry => dict.set entry.1 entry.2) []

end Dict

end MustacheHtml
