import MustacheHtml.Proofs.Template.Balanced
import MustacheHtml.Proofs.Template.Scanning
import MustacheHtml.Proofs.Tree.Merging

namespace MustacheHtml.Template

open MustacheHtml.Escape (HasBraces)
open MustacheHtml.Tree (forestHtml Merged StartsWithText merge)

/-- The attribute of a template that stands for an attribute of a tree. -/
def Attribute.ofPair (attr : String × String) : Attribute :=
  ⟨attr.1, if attr.2 = "" then [] else [.text attr.2]⟩

mutual

/-- The node of a template that renders to the tree. -/
def Node.ofTree : Tree → Node
  | .text content => .text content
  | .element tag attributes children =>
      .element tag (attributes.map Attribute.ofPair) (nodesOfForest children)

/-- The template that renders to the forest. -/
def nodesOfForest : List Tree → List Node
  | [] => []
  | tree :: rest => Node.ofTree tree :: nodesOfForest rest

end

def Part.mustache? : Part → Option Mustache
  | .text _ => none
  | .mustache held => some held

mutual

/-- All mustaches in a node. -/
def Node.mustaches : Node → List Mustache
  | .text _ => []
  | .mustache mustache => [mustache]
  | .element _ attributes children =>
      attributes.flatMap (fun attr => attr.value.filterMap Part.mustache?) ++ mustaches children

/-- The mustaches of nodes, in content and in attribute values. -/
def mustaches : List Node → List Mustache
  | [] => []
  | node :: rest => node.mustaches ++ mustaches rest

end

/-- What can be said in a template, for a forest whose text runs are merged. -/
inductive Spellable : Forest → Prop where
  | nil : Spellable []
  | text {content : String} {rest : Forest} (hbraces : ¬ HasBraces content.toList)
      (hrest : Spellable rest) : Spellable (.text content :: rest)
  | element {tag : String} {attributes : Attributes} {children rest : Forest}
      (htag : IsTagName tag.toList) (hraw : TagName.isRawText tag = false)
      (hvoid : TagName.isVoid tag = true → children = [])
      (hattributes : ∀ attr ∈ attributes,
        IsAttributeName attr.1.toList ∧ ¬ HasBraces attr.2.toList)
      (hchildren : Spellable children) (hrest : Spellable rest) :
      Spellable (.element tag attributes children :: rest)

theorem mustaches_nodesOfForest (forest : Forest) : mustaches (nodesOfForest forest) = [] := by
  induction forest using Tree.forest_induction with
  | nil => rfl
  | text content rest ih =>
      rw [nodesOfForest, mustaches, ih, Node.ofTree, Node.mustaches, List.append_nil]
  | element tag attributes children rest ihChildren ih =>
      rw [nodesOfForest, mustaches, ih, Node.ofTree, Node.mustaches, ihChildren]
      simp only [List.append_nil, List.flatMap_map, List.flatMap_eq_nil_iff]
      intro attr _
      unfold Attribute.ofPair
      split <;> rfl

theorem readAttribute_literal (name value : String) (offset : Nat) :
    readAttribute ⟨name, literalParts value.toList, offset⟩ =
      .ok (Attribute.ofPair (name, value)) := by
  by_cases hvalue : value = ""
  · subst hvalue
    rfl
  · have hchars : value.toList ≠ [] := by simpa using hvalue
    simp only [literalParts, if_neg hchars, String.ofList_toList, Attribute.ofPair, if_neg hvalue]
    rfl

theorem readAttributes_literal {raw : List RawAttribute} {attributes : Attributes}
    (hraw : raw.map (fun attr => (attr.name, attr.value)) =
      attributes.map fun attr => (attr.1, literalParts attr.2.toList)) :
    raw.mapM readAttribute = .ok (attributes.map Attribute.ofPair) := by
  induction attributes generalizing raw with
  | nil =>
      rw [List.map_eq_nil_iff.mp hraw]
      rfl
  | cons attr others ih =>
      obtain ⟨⟨name, value, offset⟩, more, rfl, hfirst, hmore⟩ := List.map_eq_cons_iff.mp hraw
      cases hfirst
      exact mapM_cons_eq_ok_iff.mpr ⟨_, _, readAttribute_literal _ _ offset, ih hmore, rfl⟩

section Reading

variable {forest : Forest} {cursor : Cursor} {rest : List Char}

theorem atTag_forestHtml (hspellable : Spellable forest) (hapart : ¬ StartsWithText forest)
    (hrest : AtTag rest) : AtTag (forestHtml false forest ++ rest) := by
  cases hspellable with
  | nil => exact hrest
  | text => exact absurd trivial hapart
  | element htag hraw hvoid hattributes hchildren hmore =>
      obtain ⟨c, others, hname, halpha⟩ := htag.letter
      rw [forestHtml, Tree.html, hname]
      simp only [List.append_assoc, List.cons_append, List.nil_append]
      exact .inr ⟨c, _, rfl, .inr halpha⟩

/-- The siblings do not end with a text that a next one would be joined to. -/
def EndsApart : List Node → Prop
  | .text _ :: _ => False
  | _ => True

theorem addText_of_endsApart {siblings : List Node} (hapart : EndsApart siblings)
    (content : String) : addText content siblings = .text content :: siblings := by
  unfold addText
  split
  · exact hapart.elim
  · rfl

/-- Tokens put a forest behind whatever has been built, unless a text would meet a text. -/
def Adds (tokens : List Token) (forest : Forest) : Prop :=
  ∀ builder : Builder, (StartsWithText forest → EndsApart builder.siblings) →
    tokens.foldlM Builder.add builder =
      .ok ⟨(nodesOfForest forest).reverse ++ builder.siblings, builder.openElements⟩

namespace Adds

variable {others children : Forest} {tokens inner : List Token} {tag : String}
  {raw : List RawAttribute} {attributes : Attributes}

theorem nil : Adds [] [] :=
  fun _ _ => rfl

theorem text (content : String) (offset : Nat) (hapart : ¬ StartsWithText others)
    (hadds : Adds tokens others) :
    Adds (.text content offset :: tokens) (.text content :: others) := by
  intro builder hsiblings
  rw [(Builder.Takes.text content offset).foldlM_cons, addText_of_endsApart (hsiblings trivial),
    hadds _ fun hstarts => absurd hstarts hapart]
  simp [nodesOfForest, Node.ofTree]

theorem alone (offset : Nat) (hraw : raw.mapM readAttribute = .ok (attributes.map Attribute.ofPair))
    (hvoid : TagName.isVoid tag = true) (hadds : Adds tokens others) :
    Adds (.startTag tag raw false offset :: tokens) (.element tag attributes [] :: others) := by
  intro builder _
  have halone : standsAlone tag false = true := hvoid
  rw [(Builder.Takes.alone offset hraw halone).foldlM_cons, hadds]
  · simp [nodesOfForest, Node.ofTree, Builder.push]
  · exact fun _ => trivial

theorem pair (offset closingOffset : Nat)
    (hraw : raw.mapM readAttribute = .ok (attributes.map Attribute.ofPair))
    (hvoid : TagName.isVoid tag = false) (hinner : Adds inner children)
    (hadds : Adds tokens others) :
    Adds (.startTag tag raw false offset :: (inner ++ .endTag tag closingOffset :: tokens))
      (.element tag attributes children :: others) := by
  intro builder _
  let frame : Frame := ⟨tag, attributes.map Attribute.ofPair, offset, builder.siblings⟩
  have hsame : TagName.same frame.tag tag = true := beq_self_eq_true _
  have hclosed : Builder.Takes
      ⟨(nodesOfForest children).reverse ++ [], frame :: builder.openElements⟩
      (.endTag tag closingOffset)
      ⟨frame.close ((nodesOfForest children).reverse ++ []), builder.openElements⟩ :=
    .closed closingOffset rfl hsame
  have hopen : standsAlone tag false = false := hvoid
  rw [(Builder.Takes.opened offset hraw hopen).foldlM_cons, List.foldlM_append,
    hinner]
  · refine hclosed.foldlM_cons.trans ?_
    rw [hadds]
    · simp [nodesOfForest, Node.ofTree, Frame.close, frame]
    · exact fun _ => trivial
  · exact fun _ => trivial

end Adds

/-- Scanning the HTML of a forest ends after it and yields tokens that make its nodes. -/
theorem scans_forestHtml (hmerged : Merged forest) (hspellable : Spellable forest)
    (hcursor : cursor.rest = forestHtml false forest ++ rest) (hrest : AtTag rest) :
    ∃ tokens last, Scans cursor tokens last ∧ last.rest = rest ∧ Adds tokens forest := by
  induction hmerged generalizing cursor rest with
  | nil => exact ⟨[], cursor, .done cursor, hcursor, .nil⟩
  | @text content others hcontent hapart hmerged ih =>
      cases hspellable with
      | text hbraces hspellable =>
          rw [forestHtml, Tree.html, if_neg (by decide), List.append_assoc] at hcursor
          have hchars : content.toList ≠ [] := by simpa using hcontent
          obtain ⟨next, hscan, hnext⟩ := scan_text hcursor hchars hbraces
            (atTag_forestHtml hspellable hapart hrest)
          obtain ⟨tokens, last, hscans, hlast, hadds⟩ := ih hspellable hnext hrest
          rw [String.ofList_toList] at hscan
          exact ⟨_, last, hscan.append hscans, hlast, .text content _ hapart hadds⟩
  | @element tag attributes children others hchildren hmerged ihChildren ih =>
      cases hspellable with
      | element htag hraw hvoid hattributes hinner hspellable =>
          rw [forestHtml, Tree.html, hraw] at hcursor
          simp only [List.append_assoc, List.cons_append, List.nil_append] at hcursor
          obtain ⟨raw, next, hstart, hnext, hpairs⟩ := scan_startTag hcursor htag hattributes
          have hread := readAttributes_literal hpairs
          cases hkind : TagName.isVoid tag with
          | true =>
              rw [hkind, if_pos rfl, List.nil_append] at hnext
              obtain ⟨tokens, last, hscans, hlast, hadds⟩ := ih hspellable hnext hrest
              rw [hvoid hkind]
              exact ⟨_, last, hstart.append hscans, hlast, .alone _ hread hkind hadds⟩
          | false =>
              rw [hkind, if_neg (by decide)] at hnext
              simp only [List.append_assoc, List.cons_append, List.nil_append] at hnext
              obtain ⟨inner, middle, hinside, hmiddle, hwithin⟩ :=
                ihChildren hinner hnext (.inr ⟨'/', _, rfl, .inl rfl⟩)
              obtain ⟨after, hstop, hafter⟩ := scan_endTag hmiddle htag
              obtain ⟨tokens, last, hscans, hlast, hadds⟩ := ih hspellable hafter hrest
              refine ⟨_, last, hstart.append (hinside.append (hstop.append hscans)), hlast, ?_⟩
              exact .pair _ _ hread hkind hwithin hadds

end Reading

/-- The HTML of a forest is a template for that forest, with its text runs merged. -/
theorem parse_forestHtml {forest : Forest} (hspellable : Spellable (merge forest)) :
    parse (String.ofList (forestHtml false forest)) = .ok (nodesOfForest (merge forest)) := by
  have hcursor : (Cursor.start (forestHtml false forest)).rest =
      forestHtml false (merge forest) ++ [] := by
    rw [Tree.forestHtml_merge, List.append_nil]
    rfl
  obtain ⟨tokens, last, hscans, hlast, hadds⟩ :=
    scans_forestHtml (Tree.merged_merge forest) hspellable hcursor (.inl rfl)
  have hnodes : nodesOfTokens tokens = .ok (nodesOfForest (merge forest)) := by
    rw [nodesOfTokens_eq_ok_iff, Builder.reads_iff, hadds {} fun _ => trivial, List.append_nil]
  rw [parse, mapError_eq_ok_iff, String.toList_ofList]
  exact bind_eq_ok_iff.mpr ⟨tokens, hscans.tokensFrom_eq hlast, hnodes⟩

end MustacheHtml.Template
