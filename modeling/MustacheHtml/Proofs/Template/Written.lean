import MustacheHtml.Proofs.Template.Balanced

namespace MustacheHtml.Template

/-- What a token says, without where it stands, and without what is lost on purpose: the case of
end tags, and how an element without children was closed. -/
inductive Mark where
  | text (content : String)
  | mustache (mustache : Mustache)
  | start (tag : String) (attributes : List Attribute)
  | stop (foldedTag : String)

/-- What a token says. A self-closing tag says that the element ends, unless the element has no end
tag anyway. -/
inductive Token.Says : Token → List Mark → Prop where
  | text (content : String) (offset : Nat) : Says (.text content offset) [.text content]
  | mustache {raw : RawMustache} {mustache : Mustache} (hspelled : raw.Says mustache) :
      Says (.mustache raw) [.mustache mustache]
  | startTag {raw : List RawAttribute} {attributes : List Attribute} (name : String)
      (selfClosing : Bool) (offset : Nat)
      (hattributes : List.Forall₂ RawAttribute.Says raw attributes) :
      Says (.startTag name raw selfClosing offset) (.start name attributes ::
        if selfClosing && !TagName.isVoid name then [.stop (TagName.fold name)] else [])
  | endTag (name : String) (offset : Nat) : Says (.endTag name offset) [.stop (TagName.fold name)]

namespace Mark

/-- Puts a mark after older ones, newest first. Neighbouring texts become one. -/
def push (older : List Mark) : Mark → List Mark
  | .text content =>
      match older with
      | .text before :: others => .text (before ++ content) :: others
      | others => .text content :: others
  | mark => mark :: older

/-- Marks with neighbouring texts made one. -/
def joinTexts (marks : List Mark) : List Mark :=
  (marks.foldl push []).reverse

end Mark

mutual

/-- The marks of a node: an element that needs no end tag has none. -/
def Node.written : Node → List Mark
  | .text content => [.text content]
  | .mustache mustache => [.mustache mustache]
  | .element tag attributes children =>
      .start tag attributes ::
        if TagName.isVoid tag && children.isEmpty then []
        else written children ++ [.stop (TagName.fold tag)]

/-- The marks of a tree in document order. -/
def written : List Node → List Mark
  | [] => []
  | node :: rest => node.written ++ written rest

end

namespace Mark

variable {older : List Mark}

@[simp]
theorem push_mustache (mustache : Mustache) :
    push older (.mustache mustache) = .mustache mustache :: older :=
  rfl

@[simp]
theorem push_start (tag : String) (attributes : List Attribute) :
    push older (.start tag attributes) = .start tag attributes :: older :=
  rfl

@[simp]
theorem push_stop (tag : String) : push older (.stop tag) = .stop tag :: older :=
  rfl

end Mark

/-- The marks of siblings that come newest first, themselves newest first. -/
def writtenBack (siblings : List Node) : List Mark :=
  (written siblings.reverse).reverse

theorem written_append (left right : List Node) :
    written (left ++ right) = written left ++ written right := by
  induction left with
  | nil => rfl
  | cons node rest ih => rw [List.cons_append, written, written, ih, List.append_assoc]

@[simp]
theorem writtenBack_nil : writtenBack [] = [] :=
  rfl

@[simp]
theorem writtenBack_cons (node : Node) (older : List Node) :
    writtenBack (node :: older) = node.written.reverse ++ writtenBack older := by
  rw [writtenBack, writtenBack, List.reverse_cons, written_append, List.reverse_append, written,
    written, List.append_nil]

namespace Builder

variable {builder after : Builder} {token : Token} {tokens : List Token}

/-- The marks of all that was read, newest first. -/
def written (builder : Builder) : List Mark :=
  writtenBack builder.siblings ++ builder.openElements.flatMap fun frame =>
    .start frame.tag frame.attributes :: writtenBack frame.before

/-- No element stays open that will never be closed. -/
def Waiting (builder : Builder) : Prop :=
  ∀ frame ∈ builder.openElements, TagName.isVoid frame.tag = false

theorem written_push (node : Node) :
    (builder.push node).written = node.written.reverse ++ builder.written := by
  simp [written, push]

theorem written_addText (content : String) :
    written { builder with siblings := addText content builder.siblings } =
      Mark.push builder.written (.text content) := by
  obtain ⟨siblings, frames⟩ := builder
  cases siblings with
  | nil => cases frames <;> rfl
  | cons node older =>
      cases node with
      | text before => simp [written, addText, Node.written, Mark.push]
      | mustache mustache => simp [written, addText, Node.written, Mark.push]
      | element tag attributes children =>
          -- An element ends with its end tag, or it is its start tag.
          cases halone : TagName.isVoid tag && children.isEmpty <;>
            simp [written, addText, Node.written, Mark.push, halone]

/-- What is written after a token is what was written before, and what the token says. -/
theorem Takes.written_eq (htakes : builder.Takes token after) (hwaiting : builder.Waiting) :
    after.Waiting ∧ ∃ marks, token.Says marks ∧
      after.written = marks.foldl Mark.push builder.written := by
  cases htakes with
  | text content offset => exact ⟨hwaiting, _, .text content offset, written_addText content⟩
  | mustache hmustache =>
      refine ⟨hwaiting, _, .mustache (says_of_readMustache hmustache), ?_⟩
      rw [written_push]
      rfl
  | @alone name raw attributes selfClosing offset hattributes halone =>
      have hspelled := says_of_readAttributes hattributes
      refine ⟨hwaiting, _, .startTag name selfClosing offset hspelled, ?_⟩
      rw [written_push]
      rw [standsAlone] at halone
      cases hvoid : TagName.isVoid name with
      | false =>
          have hself : selfClosing = true := by simpa [hvoid] using halone
          simp [Node.written, Template.written, hvoid, hself]
      | true => simp [Node.written, hvoid]
  | @opened name raw attributes selfClosing offset hattributes hopen =>
      obtain ⟨hself, hvoid⟩ : selfClosing = false ∧ TagName.isVoid name = false :=
        Bool.or_eq_false_iff.mp hopen
      have hspelled := says_of_readAttributes hattributes
      refine ⟨List.forall_mem_cons.mpr ⟨hvoid, hwaiting⟩, _,
        .startTag name selfClosing offset hspelled, ?_⟩
      simp [written, hself]
  | @closed name frame outer offset hframes hsame =>
      rw [Waiting, hframes] at hwaiting
      obtain ⟨hvoid, houter⟩ := List.forall_mem_cons.mp hwaiting
      have hfold : TagName.fold frame.tag = TagName.fold name := eq_of_beq hsame
      refine ⟨houter, _, .endTag name offset, ?_⟩
      have hback : writtenBack builder.siblings =
          (Template.written builder.siblings.reverse).reverse := rfl
      simp [written, Frame.close, hframes, hvoid, hfold, Node.written, hback]

theorem Reads.written_eq (hreads : builder.Reads tokens after) (hwaiting : builder.Waiting) :
    ∃ marks, List.Forall₂ Token.Says tokens marks ∧
      after.written = marks.flatten.foldl Mark.push builder.written := by
  induction hreads with
  | nil builder => exact ⟨[], .nil, rfl⟩
  | cons htakes hrest ih =>
      obtain ⟨hnext, own, hown, hwritten⟩ := htakes.written_eq hwaiting
      obtain ⟨others, hothers, hafter⟩ := ih hnext
      refine ⟨own :: others, .cons hown hothers, ?_⟩
      rw [hafter, hwritten, List.flatten_cons, List.foldl_append]

end Builder

theorem written_nodesOfTokens {tokens : List Token} {nodes : List Node}
    (hnodes : nodesOfTokens tokens = .ok nodes) :
    ∃ marks, List.Forall₂ Token.Says tokens marks ∧
      written nodes = Mark.joinTexts marks.flatten := by
  obtain ⟨marks, hmarks, hwritten⟩ :=
    (nodesOfTokens_eq_ok_iff.mp hnodes).written_eq fun _ hframe => nomatch hframe
  refine ⟨marks, hmarks, ?_⟩
  have hwritten : (written nodes).reverse = marks.flatten.foldl Mark.push [] := by
    simpa [Builder.written, writtenBack, written] using hwritten
  rw [Mark.joinTexts, ← hwritten, List.reverse_reverse]

/-- A source that falls into tokens is a template just if the tokens are balanced and all its
mustaches can be read, and then its tree, written out, gives back the tokens. -/
theorem parse_iff_balanced {source : String} {tokens : List Token}
    (htokens : tokenize source = .ok tokens) :
    ((∃ nodes, parse source = .ok nodes) ↔
        Balanced tokens ∧ ∀ token ∈ tokens, ∀ raw ∈ token.mustaches, raw.Readable) ∧
      ∀ nodes, parse source = .ok nodes → ∃ marks, List.Forall₂ Token.Says tokens marks ∧
        written nodes = Mark.joinTexts marks.flatten := by
  have hparse : ∀ nodes, parse source = .ok nodes ↔ nodesOfTokens tokens = .ok nodes := by
    intro nodes
    rw [parse, mapError_eq_ok_iff.mp htokens]
    exact mapError_eq_ok_iff
  simp only [hparse]
  exact ⟨nodesOfTokens_ok_iff_balanced, fun nodes hnodes => written_nodesOfTokens hnodes⟩

def listSource : String :=
  "<ul id={{a}}><LI>x<b/></li>{{b}}<br></ul>"

def listTokens : List Token :=
  [.startTag "ul" [⟨"id", [.mustache ⟨"a", true, 7⟩], 4⟩] false 0, .startTag "LI" [] false 13,
    .text "x" 17, .startTag "b" [] true 18, .endTag "li" 22, .mustache ⟨"b", true, 27⟩,
    .startTag "br" [] false 32, .endTag "ul" 36]

def listTree : List Node :=
  [.element "ul" [⟨"id", [.mustache ⟨.path ["a"], true⟩]⟩]
    [.element "LI" [] [.text "x", .element "b" [] []], .mustache ⟨.path ["b"], true⟩,
      .element "br" [] []]]

def listMarks : List Mark :=
  [.start "ul" [⟨"id", [.mustache ⟨.path ["a"], true⟩]⟩], .start "LI" [], .text "x",
    .start "b" [], .stop "b", .stop "li", .mustache ⟨.path ["b"], true⟩, .start "br" [],
    .stop "ul"]

theorem parse_iff_balanced_list : tokenize listSource = .ok listTokens ∧
    parse listSource = .ok listTree ∧
    ∃ marks, List.Forall₂ Token.Says listTokens marks ∧
      Mark.joinTexts marks.flatten = listMarks := by
  have htokens : tokenize listSource = .ok listTokens := by decide +kernel
  have hlist := parse_iff_balanced htokens
  have hitem : Balanced [.text "x" 17, .startTag "b" [] true 18] :=
    .text "x" 17 (.alone [] 18 (by decide) .nil)
  have hrest : Balanced [.mustache ⟨"b", true, 27⟩, .startTag "br" [] false 32] :=
    .mustache _ (.alone [] 32 (by decide) .nil)
  have hbalanced : Balanced listTokens :=
    .pair _ 0 36 (by decide) (by decide) (.pair [] 13 22 (by decide) (by decide) hitem hrest) .nil
  have hreadable : ∀ token ∈ listTokens, ∀ raw ∈ token.mustaches, raw.Readable := by
    have ha : RawMustache.Readable ⟨"a", true, 7⟩ := ⟨.path ["a"], rfl⟩
    have hb : RawMustache.Readable ⟨"b", true, 27⟩ := ⟨.path ["b"], rfl⟩
    simp [listTokens, Token.mustaches, RawPart.mustache?, ha, hb]
  obtain ⟨nodes, hnodes⟩ := hlist.1.mpr ⟨hbalanced, hreadable⟩
  obtain rfl : listTree = nodes := by
    rw [parse, mapError_eq_ok_iff.mp htokens] at hnodes
    exact Except.ok.inj (mapError_eq_ok_iff.mp hnodes)
  obtain ⟨marks, hmarks, hwritten⟩ := hlist.2 listTree hnodes
  exact ⟨htokens, hnodes, marks, hmarks, hwritten.symm⟩

end MustacheHtml.Template
