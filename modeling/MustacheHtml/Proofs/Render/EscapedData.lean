import MustacheHtml.Proofs.Render.RoundTrip
import MustacheHtml.Proofs.Template.Outline
import MustacheHtml.Proofs.Template.WellNamed

namespace MustacheHtml.Render

open MustacheHtml.Escape (HasBraces)
open MustacheHtml.Template
open MustacheHtml.Tree (forestHtml merge)

/-- The forest that nodes stand for when there are no helpers and no hooks. -/
def Yields (data : Value) (nodes : List Node) (forest : Forest) : Prop :=
  ({} : Answers).forest data (fun _ => none) nodes = .ok forest

section Drawing

variable {data left right : Value} {nodes : List Node}

theorem total_nothing : ({} : Answers).Total where
  helper := nofun
  hook := fun kind answer hanswer => by cases kind <;> cases hanswer

theorem yields_text {content : String} {rest : List Node} {forest : Forest}
    (hyields : Yields data (.text content :: rest) forest) :
    ∃ others, Yields data rest others ∧ forest = .text content :: others := by
  obtain ⟨own, hown, hjoin⟩ := bind_eq_ok_iff.mp hyields
  obtain ⟨others, hothers, hresult⟩ := bind_eq_ok_iff.mp hjoin
  cases hown
  cases hresult
  exact ⟨others, hothers, rfl⟩

theorem yields_mustache {mustache : Mustache} {rest : List Node} {forest : Forest}
    (hescaped : mustache.escaped = true)
    (hyields : Yields data (.mustache mustache :: rest) forest) :
    ∃ value others, Yields data rest others ∧ forest = .text value :: others := by
  obtain ⟨own, hown, hjoin⟩ := bind_eq_ok_iff.mp hyields
  obtain ⟨others, hothers, hresult⟩ := bind_eq_ok_iff.mp hjoin
  obtain ⟨value, -, hinserted⟩ := bind_eq_ok_iff.mp hown
  rw [Answers.inserted, hescaped] at hinserted
  cases hinserted
  cases hresult
  exact ⟨value, others, hothers, rfl⟩

theorem yields_element {tag : String} {attributes : List Attribute} {children rest : List Node}
    {forest : Forest} (hyields : Yields data (.element tag attributes children :: rest) forest) :
    ∃ settled inner others, ({} : Answers).setAttributes data [] attributes = .ok settled ∧
      Yields data children inner ∧ Yields data rest others ∧
        forest = .element tag settled inner :: others := by
  obtain ⟨own, hown, hjoin⟩ := bind_eq_ok_iff.mp hyields
  obtain ⟨others, hothers, hresult⟩ := bind_eq_ok_iff.mp hjoin
  obtain ⟨settled, hsettled, hrest⟩ := bind_eq_ok_iff.mp hown
  obtain ⟨inner, hinner, hown⟩ := bind_eq_ok_iff.mp hrest
  cases hown
  cases hresult
  exact ⟨settled, inner, others, hsettled, hinner, hothers, rfl⟩

theorem exists_yields (data : Value) (nodes : List Node) : ∃ forest, Yields data nodes forest :=
  total_nothing.forest (fun _ => rfl) data nodes

theorem names_set (held : Attributes) (name value : String) :
    (held.set name value).map Prod.fst =
      if name ∈ held.map Prod.fst then held.map Prod.fst else held.map Prod.fst ++ [name] := by
  induction held with
  | nil => rfl
  | cons first rest ih =>
      obtain ⟨other, old⟩ := first
      by_cases hsame : other = name
      · simp [Attributes.set, hsame]
      · simp only [Attributes.set, if_neg hsame, List.map_cons, ih, List.mem_cons, Ne.symm hsame,
          false_or]
        split
        · rfl
        · rfl

theorem names_setAttributes {attributes : List Attribute} {leftHeld rightHeld : Attributes}
    {leftSettled rightSettled : Attributes}
    (hheld : leftHeld.map Prod.fst = rightHeld.map Prod.fst)
    (hleft : ({} : Answers).setAttributes left leftHeld attributes = .ok leftSettled)
    (hright : ({} : Answers).setAttributes right rightHeld attributes = .ok rightSettled) :
    leftSettled.map Prod.fst = rightSettled.map Prod.fst := by
  induction attributes generalizing leftHeld rightHeld with
  | nil =>
      cases hleft
      cases hright
      exact hheld
  | cons attr rest ih =>
      obtain ⟨leftValue, -, hleft⟩ := bind_eq_ok_iff.mp hleft
      obtain ⟨rightValue, -, hright⟩ := bind_eq_ok_iff.mp hright
      refine ih ?_ hleft hright
      rw [names_set, names_set, hheld]

theorem isAttributeName_setAttributes {attributes : List Attribute} {held settled : Attributes}
    (hattributes : ∀ attr ∈ attributes, IsAttributeName attr.name.toList)
    (hheld : ∀ attr ∈ held, IsAttributeName attr.1.toList)
    (hsettled : ({} : Answers).setAttributes data held attributes = .ok settled) :
    ∀ attr ∈ settled, IsAttributeName attr.1.toList := by
  induction attributes generalizing held with
  | nil =>
      cases hsettled
      exact hheld
  | cons attr rest ih =>
      obtain ⟨hattr, hrest⟩ := List.forall_mem_cons.mp hattributes
      obtain ⟨value, -, hsettled⟩ := bind_eq_ok_iff.mp hsettled
      refine ih hrest ?_ hsettled
      intro other hother
      rcases Attributes.mem_names_set.mp (List.mem_map_of_mem hother) with hsame | hmem
      · rw [hsame]
        exact hattr
      · obtain ⟨first, hfirst, hname⟩ := List.mem_map.mp hmem
        exact hname ▸ hheld first hfirst

theorem named_of_yields {forest : Forest} (hnodes : ∀ node ∈ nodes, node.WellNamed)
    (hescaped : ∀ mustache ∈ mustaches nodes, mustache.escaped = true)
    (hyields : Yields data nodes forest) : Named forest := by
  induction nodes using Node.forest_induction generalizing forest with
  | nil =>
      cases hyields
      exact .nil
  | text content rest ih =>
      obtain ⟨others, hothers, rfl⟩ := yields_text hyields
      exact .text content (ih (List.forall_mem_cons.mp hnodes).2 hescaped hothers)
  | mustache mustache rest ih =>
      obtain ⟨hfirst, hrest⟩ := List.forall_mem_append.mp hescaped
      obtain ⟨value, others, hothers, rfl⟩ :=
        yields_mustache (hfirst mustache List.mem_cons_self) hyields
      exact .text value (ih (List.forall_mem_cons.mp hnodes).2 hrest hothers)
  | element tag attributes children rest ihChildren ih =>
      obtain ⟨hown, hrest⟩ := List.forall_mem_append.mp hescaped
      obtain ⟨-, hinside⟩ := List.forall_mem_append.mp hown
      obtain ⟨hnode, hothers⟩ := List.forall_mem_cons.mp hnodes
      obtain ⟨settled, inner, others, hsettled, hinner, hafter, rfl⟩ := yields_element hyields
      cases hnode with
      | element htag hattributes hvoid hchildren =>
          refine .element htag ?_ ?_ (ihChildren hchildren hinside hinner) (ih hothers hrest hafter)
          · intro hkind
            rw [hvoid hkind] at hinner
            cases hinner
            rfl
          · exact isAttributeName_setAttributes hattributes (List.forall_mem_nil _) hsettled

/-- With any two data, the nodes stand for forests with the same tags. -/
theorem outline_of_yields {leftForest rightForest : Forest}
    (hescaped : ∀ mustache ∈ mustaches nodes, mustache.escaped = true)
    (hleft : Yields left nodes leftForest) (hright : Yields right nodes rightForest) :
    outline leftForest = outline rightForest := by
  induction nodes using Node.forest_induction generalizing leftForest rightForest with
  | nil =>
      cases hleft
      cases hright
      rfl
  | text content rest ih =>
      obtain ⟨leftOthers, hleftRest, rfl⟩ := yields_text hleft
      obtain ⟨rightOthers, hrightRest, rfl⟩ := yields_text hright
      rw [outline, outline, ih hescaped hleftRest hrightRest]
  | mustache mustache rest ih =>
      obtain ⟨hfirst, hrest⟩ := List.forall_mem_append.mp hescaped
      have hown := hfirst mustache List.mem_cons_self
      obtain ⟨leftValue, leftOthers, hleftRest, rfl⟩ := yields_mustache hown hleft
      obtain ⟨rightValue, rightOthers, hrightRest, rfl⟩ := yields_mustache hown hright
      rw [outline, outline, treeOutline, treeOutline, ih hrest hleftRest hrightRest]
  | element tag attributes children rest ihChildren ih =>
      obtain ⟨hown, hrest⟩ := List.forall_mem_append.mp hescaped
      obtain ⟨-, hinside⟩ := List.forall_mem_append.mp hown
      obtain ⟨leftSettled, leftInner, leftOthers, hleftSet, hleftInner, hleftRest, rfl⟩ :=
        yields_element hleft
      obtain ⟨rightSettled, rightInner, rightOthers, hrightSet, hrightInner, hrightRest, rfl⟩ :=
        yields_element hright
      rw [outline, outline, treeOutline, treeOutline, names_setAttributes rfl hleftSet hrightSet,
        ihChildren hinside hleftInner hrightInner, ih hrest hleftRest hrightRest]

end Drawing

/-- The text that stands directly in elements which take it without escapes opens no markup;
neighbouring texts count as one. -/
def PlainRawText (nodes : List Node) (data : Value) : Prop :=
  ∀ forest, Yields data nodes forest → PlainForest false (merge forest)

/-- Rendering succeeds with both data, and unless a mustache is in an output, both outputs read
back to the same tags. -/
def SameTags (nodes : List Node) (left right : Value) : Prop :=
  ∃ leftHtml rightHtml, renderPlain nodes left = .ok leftHtml ∧
    renderPlain nodes right = .ok rightHtml ∧
    (¬ HasBraces leftHtml.toList → ¬ HasBraces rightHtml.toList →
      ∃ leftTokens rightTokens, tokenize leftHtml = .ok leftTokens ∧
        tokenize rightHtml = .ok rightTokens ∧ tags leftTokens = tags rightTokens)

theorem tokenize_of_yields {nodes : List Node} {data : Value} {forest : Forest}
    (hnodes : ∀ node ∈ nodes, node.WellNamed)
    (hescaped : ∀ mustache ∈ mustaches nodes, mustache.escaped = true)
    (hplain : PlainRawText nodes data) (hyields : Yields data nodes forest)
    (hbraces : ¬ HasBraces (forestHtml false forest)) :
    ∃ tokens, tokenize (String.ofList (forestHtml false forest)) = .ok tokens ∧
      tags tokens = outline forest := by
  apply tokenize_outline
  apply (named_of_yields hnodes hescaped hyields).merge.legible (hplain forest hyields)
  rwa [Tree.forestHtml_merge]

/-- Escaped data creates no markup in the output. -/
theorem sameTags_of_escaped {source : String} {nodes : List Node} {left right : Value}
    (hparse : parse source = .ok nodes)
    (hescaped : ∀ mustache ∈ mustaches nodes, mustache.escaped = true)
    (hleft : PlainRawText nodes left) (hright : PlainRawText nodes right) :
    SameTags nodes left right := by
  have hnodes := wellNamed_of_parse hparse
  obtain ⟨leftForest, hleftYields⟩ := exists_yields left nodes
  obtain ⟨rightForest, hrightYields⟩ := exists_yields right nodes
  refine ⟨_, _, renderPlain_of_forest hleftYields, renderPlain_of_forest hrightYields, ?_⟩
  rw [String.toList_ofList, String.toList_ofList]
  intro hleftBraces hrightBraces
  obtain ⟨leftTokens, hleftTokens, hleftTags⟩ :=
    tokenize_of_yields hnodes hescaped hleft hleftYields hleftBraces
  obtain ⟨rightTokens, hrightTokens, hrightTags⟩ :=
    tokenize_of_yields hnodes hescaped hright hrightYields hrightBraces
  refine ⟨leftTokens, rightTokens, hleftTokens, hrightTokens, ?_⟩
  rw [hleftTags, hrightTags, outline_of_yields hescaped hleftYields hrightYields]

def styledNodes : List Node :=
  [.element "p" [⟨"title", [.text "x ", .mustache ⟨.path ["a"], true⟩]⟩]
    [.mustache ⟨.path ["a"], true⟩, .element "br" [] [],
      .element "style" [] [.text "i > ", .mustache ⟨.path ["b"], true⟩]]]

theorem parse_styled :
    parse "<p title='x {{a}}'>{{a}}<br><style>i &gt; {{b}}</style></p>" = .ok styledNodes := by
  have htokens : tokens "<p title='x {{a}}'>{{a}}<br><style>i &gt; {{b}}</style></p>".toList = .ok
      [.startTag "p" [⟨"title", [.text "x ", .mustache ⟨"a", true, 12⟩], 3⟩] false 0,
        .mustache ⟨"a", true, 19⟩, .startTag "br" [] false 24, .startTag "style" [] false 28,
        .text "i > " 35, .mustache ⟨"b", true, 42⟩, .endTag "style" 47, .endTag "p" 55] := by
    decide +kernel
  exact mapError_eq_ok_iff.mpr (bind_eq_ok_iff.mpr ⟨_, htokens, rfl⟩)

theorem sameTags_of_escaped_styled :
    let left : Value := .map [("a", .string "\"><b>&"), ("b", .string "b < 1")]
    let right : Value := .map [("a", .string ""), ("b", .string "u")]
    parse "<p title='x {{a}}'>{{a}}<br><style>i &gt; {{b}}</style></p>" = .ok styledNodes ∧
      (∀ mustache ∈ mustaches styledNodes, mustache.escaped = true) ∧
      PlainRawText styledNodes left ∧ PlainRawText styledNodes right ∧
      SameTags styledNodes left right := by
  intro left right
  have hescaped : ∀ mustache ∈ mustaches styledNodes, mustache.escaped = true := by decide
  have hplain {content : String} : PlainTree false (.text content) := nofun
  have hleft : PlainRawText styledNodes left := by
    have hdrawn : Yields left styledNodes [.element "p" [("title", "x \"><b>&")]
        [.text "\"><b>&", .element "br" [] [],
          .element "style" [] [.text "i > ", .text "b < 1"]]] := rfl
    intro forest hyields
    cases hdrawn.symm.trans hyields
    have hstyle : OpensNothing "i > b < 1".toList := by decide
    exact ⟨⟨hplain, trivial, ⟨fun _ => hstyle, trivial⟩, trivial⟩, trivial⟩
  have hright : PlainRawText styledNodes right := by
    have hdrawn : Yields right styledNodes [.element "p" [("title", "x ")]
        [.text "", .element "br" [] [], .element "style" [] [.text "i > ", .text "u"]]] := rfl
    intro forest hyields
    cases hdrawn.symm.trans hyields
    have hstyle : OpensNothing "i > u".toList := by decide
    exact ⟨⟨trivial, ⟨fun _ => hstyle, trivial⟩, trivial⟩, trivial⟩
  exact ⟨parse_styled, hescaped, hleft, hright,
    sameTags_of_escaped parse_styled hescaped hleft hright⟩

def scriptNodes : List Node :=
  [.element "script" [] [.mustache ⟨.path ["x"], true⟩]]

/-- A script takes its text without escapes, and so data may open a tag in it. -/
theorem not_sameTags_script :
    parse "<script>{{x}}</script>" = .ok scriptNodes ∧
      (∀ mustache ∈ mustaches scriptNodes, mustache.escaped = true) ∧
      ¬ SameTags scriptNodes (.map [("x", .string "<b>")]) (.map [("x", .string "")]) := by
  have htokens : tokens "<script>{{x}}</script>".toList = .ok
      [.startTag "script" [] false 0, .mustache ⟨"x", true, 8⟩, .endTag "script" 13] := by
    decide +kernel
  refine ⟨mapError_eq_ok_iff.mpr (bind_eq_ok_iff.mpr ⟨_, htokens, rfl⟩), ?_, ?_⟩
  · decide
  · rintro ⟨leftHtml, rightHtml, hleft, hright, hread⟩
    have hleftDrawn : Yields (.map [("x", .string "<b>")]) scriptNodes
        [.element "script" [] [.text "<b>"]] := rfl
    have hrightDrawn : Yields (.map [("x", .string "")]) scriptNodes
        [.element "script" [] [.text ""]] := rfl
    cases (renderPlain_of_forest hleftDrawn).symm.trans hleft
    cases (renderPlain_of_forest hrightDrawn).symm.trans hright
    obtain ⟨leftTokens, rightTokens, hleftTokens, hrightTokens, hsame⟩ :=
      hread (by decide) (by decide)
    have hopened : tokenize "<script><b></script>" = .ok
        [.startTag "script" [] false 0, .startTag "b" [] false 8, .endTag "script" 11] := by
      decide +kernel
    have hempty : tokenize "<script></script>" = .ok
        [.startTag "script" [] false 0, .endTag "script" 8] := by
      decide +kernel
    cases hopened.symm.trans hleftTokens
    cases hempty.symm.trans hrightTokens
    exact absurd hsame (by decide)

end MustacheHtml.Render
