import MustacheHtml.Markup.Building
import MustacheHtml.Proofs.Tree.Merging

namespace MustacheHtml.Markup

/-- What a reader of a forest comes upon in document order. -/
inductive Item where
  | element (tag : String) (attributes : Attributes)
  | text (content : String)
deriving DecidableEq, Repr

mutual

/-- The items of a tree, the element before what is in it. -/
def treeItems : Tree → List Item
  | .text content => [.text content]
  | .element tag attributes children => .element tag attributes :: items children

/-- The items of a forest in document order. -/
def items : List Tree → List Item
  | [] => []
  | tree :: rest => treeItems tree ++ items rest

end

/-- A text that is kept back until it is known to be whole; an empty one is nothing. -/
def heldBack (content : String) : List Item :=
  if content.isEmpty then [] else [.text content]

/-- What tokens say in their order. Texts become one unless a start tag stands between them, or an
end tag that closes an element; for that the names of the open elements are kept, innermost first,
and with them the text held back. -/
def said : List String → String → List Token → List Item
  | _, held, [] => heldBack held
  | names, held, .startTag written attributes selfClosing :: rest =>
      let name := TagName.fold written
      let left := names.dropWhile (closesImplicitly · name)
      heldBack held ++ .element name attributes ::
        said (if selfClosing || TagName.isVoid name then left else name :: left) "" rest
  | names, held, .endTag written :: rest =>
      let name := TagName.fold written
      if name ∈ names then heldBack held ++ said (names.dropWhile (· != name)).tail "" rest
      else said names held rest
  | names, held, .text content :: rest => said names (held ++ content) rest
  | names, held, .comment _ :: rest => said names held rest
  | names, held, .doctype _ :: rest => said names held rest
  | names, held, .error _ :: rest => said names held rest

@[simp] theorem items_append (left right : Forest) :
    items (left ++ right) = items left ++ items right := by
  induction left with
  | nil => rfl
  | cons tree rest ih => simp [items, ih]

/-- What has been read so far in document order, with the elements still open. -/
def readSoFar (siblings : Forest) : List Frame → List Item
  | [] => items siblings.reverse
  | frame :: outer =>
      readSoFar frame.before outer ++ .element frame.tag frame.attributes :: items siblings.reverse

theorem readSoFar_cons (tree : Tree) (siblings : Forest) (frames : List Frame) :
    readSoFar (tree :: siblings) frames = readSoFar siblings frames ++ treeItems tree := by
  cases frames <;> simp [readSoFar, items]

theorem readSoFar_close (frame : Frame) (siblings : Forest) (outer : List Frame) :
    readSoFar (frame.close siblings) outer = readSoFar siblings (frame :: outer) := by
  rw [Frame.close, readSoFar_cons, treeItems, readSoFar]

/-- The names of the open elements, innermost first. -/
def tags (frames : List Frame) : List String :=
  frames.map Frame.tag

@[simp] theorem tags_cons (frame : Frame) (outer : List Frame) :
    tags (frame :: outer) = frame.tag :: tags outer := rfl

theorem items_closeAll (siblings : Forest) (frames : List Frame) :
    items (closeAll siblings frames) = readSoFar siblings frames := by
  induction frames generalizing siblings with
  | nil => rfl
  | cons frame outer ih => rw [closeAll, ih, readSoFar_close]

theorem closeImplied_keeps (incoming : String) (siblings : Forest) (frames : List Frame) :
    let opened := closeImplied incoming siblings frames
    readSoFar opened.siblings opened.openElements = readSoFar siblings frames ∧
      tags opened.openElements = (tags frames).dropWhile (closesImplicitly · incoming) := by
  induction frames generalizing siblings with
  | nil => exact ⟨rfl, rfl⟩
  | cons frame outer ih =>
      obtain ⟨hread, htags⟩ := ih (frame.close siblings)
      unfold closeImplied
      split
      · next hcloses =>
          refine ⟨hread.trans (readSoFar_close frame siblings outer), ?_⟩
          rw [tags_cons, List.dropWhile_cons_of_pos (by simpa using hcloses)]
          exact htags
      · next hkept =>
          refine ⟨rfl, ?_⟩
          rw [tags_cons, List.dropWhile_cons_of_neg (by simpa using hkept)]

theorem closeThrough_keeps {name : String} (siblings : Forest) {frames : List Frame}
    (hopen : name ∈ tags frames) :
    let closed := closeThrough name siblings frames
    readSoFar closed.siblings closed.openElements = readSoFar siblings frames ∧
      tags closed.openElements = ((tags frames).dropWhile (· != name)).tail ∧
      ¬ Tree.StartsWithText closed.siblings := by
  induction frames generalizing siblings with
  | nil => exact absurd hopen List.not_mem_nil
  | cons frame outer ih =>
      unfold closeThrough
      split
      · next hname =>
          refine ⟨readSoFar_close frame siblings outer, ?_, id⟩
          rw [tags_cons, List.dropWhile_cons_of_neg (by simpa using hname)]
          rfl
      · next hother =>
          have houter : name ∈ tags outer := by
            rw [tags_cons, List.mem_cons] at hopen
            exact hopen.resolve_left (Ne.symm hother)
          obtain ⟨hread, htags, hapart⟩ := ih (frame.close siblings) houter
          refine ⟨hread.trans (readSoFar_close frame siblings outer), ?_, hapart⟩
          rw [tags_cons, List.dropWhile_cons_of_pos (by simpa using hother)]
          exact htags

/-- The siblings with the text that is held back among them. -/
def withHeld (held : String) (older : Forest) : Forest :=
  if held.isEmpty then older else .text held :: older

theorem readSoFar_withHeld (held : String) (older : Forest) (frames : List Frame) :
    readSoFar (withHeld held older) frames = readSoFar older frames ++ heldBack held := by
  unfold withHeld heldBack
  split
  · rw [List.append_nil]
  · rw [readSoFar_cons, treeItems]

theorem addText_of_apart {older : Forest} (hapart : ¬ Tree.StartsWithText older)
    (content : String) : addText content older = withHeld content older := by
  unfold addText withHeld
  split
  · rfl
  · split
    · next before older => exact absurd trivial hapart
    · rfl

theorem addText_withHeld {older : Forest} (hapart : ¬ Tree.StartsWithText older)
    (held content : String) :
    addText content (withHeld held older) = withHeld (held ++ content) older := by
  by_cases hheld : held = ""
  · rw [hheld, String.empty_append]
    exact addText_of_apart hapart content
  · by_cases hcontent : content = ""
    · simp [hcontent, addText]
    · simp [withHeld, addText, hheld, hcontent]

/-- Whatever has been read, the tokens that follow add what they say. -/
theorem items_finish (tokens : List Token) {older : Forest}
    (hapart : ¬ Tree.StartsWithText older) (held : String) (frames : List Frame) :
    items (tokens.foldl Builder.add ⟨withHeld held older, frames⟩).finish =
      readSoFar older frames ++ said (tags frames) held tokens := by
  induction tokens generalizing older held frames with
  | nil => rw [List.foldl_nil, Builder.finish, items_closeAll, readSoFar_withHeld, said]
  | cons token rest ih =>
      have hnothing : ∀ {siblings : Forest}, ¬ Tree.StartsWithText siblings → ∀ frames,
          items (rest.foldl Builder.add ⟨siblings, frames⟩).finish =
            readSoFar siblings frames ++ said (tags frames) "" rest :=
        fun hsiblings frames => ih hsiblings "" frames
      rw [List.foldl_cons]
      cases token with
      | startTag written attributes selfClosing =>
          obtain ⟨hread, htags⟩ := closeImplied_keeps (TagName.fold written) (withHeld held older)
            frames
          rw [readSoFar_withHeld] at hread
          rw [Builder.add, said]
          dsimp only
          split
          · rw [hnothing id, readSoFar_cons, hread, htags]
            simp [treeItems, items]
          · rw [hnothing id]
            simp [readSoFar, hread, htags, items]
      | endTag written =>
          have hopen : frames.any (·.tag == TagName.fold written) = true ↔
              TagName.fold written ∈ tags frames := by
            simp [tags]
          rw [Builder.add, said]
          dsimp only
          by_cases hname : TagName.fold written ∈ tags frames
          · obtain ⟨hread, htags, hclosed⟩ := closeThrough_keeps (withHeld held older) hname
            rw [if_pos (hopen.mpr hname), if_pos hname, hnothing hclosed, hread, htags,
              readSoFar_withHeld, List.append_assoc]
          · rw [if_neg (hname ∘ hopen.mp), if_neg hname]
            exact ih hapart held frames
      | text content =>
          rw [Builder.add, addText_withHeld hapart, said]
          exact ih hapart _ frames
      | comment content => exact ih hapart held frames
      | doctype content => exact ih hapart held frames
      | error content => exact ih hapart held frames

/-- The element that an item is, if it is one. -/
def Item.element? : Item → Option (String × Attributes)
  | element tag attributes => some (tag, attributes)
  | text _ => none

/-- The text that an item is, if it is one. -/
def Item.content? : Item → Option String
  | element _ _ => none
  | text content => some content

/-- The element that a token begins, if it begins one. -/
def Token.element? : Token → Option (String × Attributes)
  | startTag written attributes _ => some (TagName.fold written, attributes)
  | _ => none

/-- The text that a token is, if it is one. -/
def Token.content? : Token → Option String
  | text content => some content
  | _ => none

theorem elements_heldBack (held : String) : (heldBack held).filterMap Item.element? = [] := by
  unfold heldBack
  split <;> rfl

theorem elements_said (tokens : List Token) (names : List String) (held : String) :
    (said names held tokens).filterMap Item.element? = tokens.filterMap Token.element? := by
  induction tokens generalizing names held with
  | nil => exact elements_heldBack held
  | cons token rest ih =>
      cases token with
      | startTag written attributes selfClosing =>
          simp [said, elements_heldBack, Item.element?, Token.element?, ih]
      | endTag written =>
          have hrest : (Token.endTag written :: rest).filterMap Token.element? =
              rest.filterMap Token.element? := rfl
          rw [said, hrest]
          split
          · rw [List.filterMap_append, elements_heldBack, ih, List.nil_append]
          · exact ih names held
      | text content => exact ih names _
      | comment content => exact ih names held
      | doctype content => exact ih names held
      | error content => exact ih names held

/-- The texts among the items, as one. -/
def contents (items : List Item) : String :=
  String.join (items.filterMap Item.content?)

@[simp] theorem contents_append (left right : List Item) :
    contents (left ++ right) = contents left ++ contents right := by
  simp [contents]

@[simp] theorem contents_element (tag : String) (attributes : Attributes) (rest : List Item) :
    contents (.element tag attributes :: rest) = contents rest := rfl

@[simp] theorem contents_heldBack (held : String) : contents (heldBack held) = held := by
  unfold heldBack
  split
  · next hempty =>
      rw [String.isEmpty_iff.mp hempty]
      rfl
  · simp [contents, Item.content?]

theorem contents_said (tokens : List Token) (names : List String) (held : String) :
    contents (said names held tokens) = held ++ String.join (tokens.filterMap Token.content?) := by
  induction tokens generalizing names held with
  | nil => simp [said]
  | cons token rest ih =>
      cases token with
      | startTag written attributes selfClosing =>
          have hrest : (Token.startTag written attributes selfClosing :: rest).filterMap
              Token.content? = rest.filterMap Token.content? := rfl
          rw [said, hrest, contents_append, contents_heldBack, contents_element, ih,
            String.empty_append]
      | endTag written =>
          have hrest : (Token.endTag written :: rest).filterMap Token.content? =
              rest.filterMap Token.content? := rfl
          rw [said, hrest]
          split
          · rw [contents_append, contents_heldBack, ih, String.empty_append]
          · exact ih names held
      | text content => simp [said, Token.content?, ih, String.append_assoc]
      | comment content => exact ih names held
      | doctype content => exact ih names held
      | error content => exact ih names held

theorem forestText_eq (forest : Forest) : Tree.forestText forest = contents (items forest) := by
  induction forest using Tree.forest_induction with
  | nil => rfl
  | text content rest ih =>
      rw [Tree.forestText, Tree.textContent, ih, items, treeItems]
      simp [contents, Item.content?]
  | element tag attributes children rest ihChildren ih =>
      rw [Tree.forestText, Tree.textContent, ih, ihChildren, items, treeItems, contents_append,
        contents_element]

/-- Read in document order, the forest of markup says what its tokens say: its elements are the
start tags, in their order and as they were written but for the letter case of the name, and its
texts are the texts between them. Trees hold no mustaches. -/
theorem forestOfTokens_in_order (tokens : List Token) :
    items (forestOfTokens tokens) = said [] "" tokens ∧
      (items (forestOfTokens tokens)).filterMap Item.element? =
        tokens.filterMap Token.element? ∧
      Tree.forestText (forestOfTokens tokens) = String.join (tokens.filterMap Token.content?) := by
  have hitems : items (forestOfTokens tokens) = said [] "" tokens :=
    items_finish tokens id "" []
  refine ⟨hitems, ?_, ?_⟩
  · rw [hitems, elements_said]
  · rw [forestText_eq, hitems, contents_said, String.empty_append]

/-- An end tag that closes nothing does not part two texts; one that closes an element does. -/
example : items (forestOfTokens [.startTag "UL" [] false, .startTag "li" [] false, .text "a",
      .endTag "b", .text "b", .startTag "Li" [("c", "d")] false, .endTag "ul", .text "", .text "e",
      .comment "f", .text "g"]) =
    [.element "ul" [], .element "li" [], .text "ab", .element "li" [("c", "d")], .text "eg"] := by
  decide

end MustacheHtml.Markup
