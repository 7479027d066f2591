namespace MustacheHtml.Text

/-- How many bytes of UTF-8 a text takes. -/
def byteLength : List Char → Nat
  | [] => 0
  | c :: rest => c.utf8Size + byteLength rest

@[simp] theorem byteLength_append (left right : List Char) :
    byteLength (left ++ right) = byteLength left + byteLength right := by
  induction left with
  | nil => simp [byteLength]
  | cons c rest ih => simp [byteLength, ih, Nat.add_assoc]

theorem byteLength_pos {text : List Char} (nonempty : text ≠ []) : 0 < byteLength text := by
  obtain ⟨c, rest, rfl⟩ := List.exists_cons_of_ne_nil nonempty
  exact Nat.add_pos_left c.utf8Size_pos _

/-- The characters in the first `bytes` bytes, if the cut falls between two characters. -/
def takeBytes? : List Char → Nat → Option (List Char)
  | _, 0 => some []
  | [], _ + 1 => some []
  | c :: rest, bytes + 1 =>
      if c.utf8Size ≤ bytes + 1 then (takeBytes? rest (bytes + 1 - c.utf8Size)).map (c :: ·)
      else none

theorem takeBytes?_byteLength (before after : List Char) :
    takeBytes? (before ++ after) (byteLength before) = some before := by
  induction before with
  | nil => simp [byteLength, takeBytes?]
  | cons c rest ih =>
      have width := c.utf8Size_pos
      obtain ⟨n, positive⟩ : ∃ n, c.utf8Size + byteLength rest = n + 1 :=
        ⟨_, (Nat.succ_pred (by omega)).symm⟩
      have remaining : n + 1 - c.utf8Size = byteLength rest := by omega
      simp only [List.cons_append, byteLength, positive, takeBytes?, remaining, ih]
      rw [if_pos (by omega)]
      rfl

/-- A place in a text, with line and column counted from one. -/
structure Location where
  line : Nat
  column : Nat
deriving DecidableEq, Repr

namespace Location

def start : Location := ⟨1, 1⟩

/-- The place behind a character. -/
def advance (location : Location) (c : Char) : Location :=
  if c = '\n' then ⟨location.line + 1, 1⟩ else ⟨location.line, location.column + 1⟩

/-- The place behind a text. -/
def after (text : List Char) : Location :=
  text.foldl advance start

/-- The place of a byte offset. One past the end, or inside a character, counts as the end. -/
def ofOffset (source : List Char) (offset : Nat) : Location :=
  after ((takeBytes? source offset).getD source)

end Location

end MustacheHtml.Text
