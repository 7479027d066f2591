import MustacheHtml.Proofs.Template.Balanced
import MustacheHtml.Proofs.Template.Nodes
import MustacheHtml.Proofs.Template.Spans

namespace MustacheHtml.Template

section Scanning

variable {cursor next : Cursor}

theorem Cursor.Names.isAttributeName {name : List Char} {named : Cursor}
    (hnamed : cursor.Names name named) (hbraces : ¬ ['{', '{'] <+: cursor.rest) :
    IsAttributeName name := by
  have hname := hnamed.name_eq
  refine ⟨hnamed.nonempty, ?_, ?_⟩
  · intro c hc
    rw [hname] at hc
    have hchar : isAttributeNameChar c = true := List.all_eq_true.mp List.all_takeWhile c hc
    simpa [isAttributeNameChar, and_assoc] using hchar
  · intro hopens
    rw [hname] at hopens
    exact hbraces (hopens.trans (List.takeWhile_prefix isAttributeNameChar))

theorem Cursor.FindsAttribute.isAttributeName {attr : RawAttribute}
    (hfinds : cursor.FindsAttribute attr next) (hbraces : ¬ ['{', '{'] <+: cursor.rest) :
    IsAttributeName attr.name.toList := by
  cases hfinds with
  | bare hnamed hbare =>
      rw [String.toList_ofList]
      exact hnamed.isAttributeName hbraces
  | assigned hnamed hequals hvalue =>
      rw [String.toList_ofList]
      exact hnamed.isAttributeName hbraces

theorem Cursor.FindsTagEnd.isAttributeName {tagEnd : TagEnd}
    (hfinds : cursor.FindsTagEnd tagEnd next) :
    ∀ attr ∈ tagEnd.attributes, IsAttributeName attr.name.toList := by
  induction hfinds with
  | closed hrest => exact List.forall_mem_nil _
  | selfClosed hrest => exact List.forall_mem_nil _
  | cons hplain hattr _ ih => exact List.forall_mem_cons.mpr ⟨hattr.isAttributeName hplain, ih⟩

/-- The names in a start tag can be written. -/
def Token.WellNamed : Token → Prop
  | .startTag name attributes _ _ =>
      IsTagName name.toList ∧ ∀ attr ∈ attributes, IsAttributeName attr.name.toList
  | _ => True

theorem Cursor.Finds.wellNamed {token? : Option Token} (hfinds : cursor.Finds token? next) :
    ∀ token ∈ token?, token.WellNamed := by
  intro token htoken
  cases hfinds with
  | mustache hrest hscan =>
      obtain ⟨raw, -, rfl⟩ := Option.map_eq_some_iff.mp htoken
      trivial
  | comment hrest hskip => cases htoken
  | declaration hrest hplain hskip => cases htoken
  | startTag hrest hletter hname hend =>
      cases htoken
      refine ⟨?_, hend.isAttributeName⟩
      rw [String.toList_ofList, hname]
      exact isTagName_takeWhile _ hletter
  | endTag hrest hname hnonempty hnamed hclosed =>
      cases htoken
      trivial
  | text hplain =>
      cases htoken
      trivial

theorem wellNamed_tokensFrom {tokens : List Token} (hscan : tokensFrom cursor = .ok tokens) :
    ∀ token ∈ tokens, token.WellNamed := by
  intro token htoken
  obtain ⟨span, place, next, -, hfinds⟩ := exists_finds hscan htoken
  exact hfinds.wellNamed token rfl

end Scanning

section Building

/-- The names of an element can be written, in all of the node, and void elements are empty. -/
inductive Node.WellNamed : Node → Prop where
  | text (content : String) : WellNamed (.text content)
  | mustache (mustache : Mustache) : WellNamed (.mustache mustache)
  | element {tag : String} {attributes : List Attribute} {children : List Node}
      (htag : IsTagName tag.toList)
      (hattributes : ∀ attr ∈ attributes, IsAttributeName attr.name.toList)
      (hvoid : TagName.isVoid tag = true → children = [])
      (hchildren : ∀ child ∈ children, child.WellNamed) :
      WellNamed (.element tag attributes children)

/-- The names read so far can be written, and none of the open elements is void. -/
structure Builder.WellNamed (builder : Builder) : Prop where
  siblings : ∀ node ∈ builder.siblings, node.WellNamed
  frames : ∀ frame ∈ builder.openElements, IsTagName frame.tag.toList ∧
    (∀ attr ∈ frame.attributes, IsAttributeName attr.name.toList) ∧
    TagName.isVoid frame.tag = false ∧ ∀ node ∈ frame.before, node.WellNamed

theorem isAttributeName_readAttributes {raw : List RawAttribute} {attributes : List Attribute}
    (hread : raw.mapM readAttribute = .ok attributes)
    (hraw : ∀ attr ∈ raw, IsAttributeName attr.name.toList) :
    ∀ attr ∈ attributes, IsAttributeName attr.name.toList := by
  intro attr hattr
  obtain ⟨held, hheld, hspelled⟩ := exists_of_forall₂ (says_of_readAttributes hread) attr hattr
  exact hspelled.name_eq ▸ hraw held hheld

variable {builder after : Builder} {token : Token}

theorem wellNamed_addText {siblings : List Node} (content : String)
    (hsiblings : ∀ node ∈ siblings, node.WellNamed) :
    ∀ node ∈ addText content siblings, node.WellNamed := by
  unfold addText
  split
  · exact List.forall_mem_cons.mpr ⟨.text _, (List.forall_mem_cons.mp hsiblings).2⟩
  · exact List.forall_mem_cons.mpr ⟨.text _, hsiblings⟩

theorem Builder.Takes.wellNamed (htakes : builder.Takes token after) (htoken : token.WellNamed)
    (hbuilder : builder.WellNamed) : after.WellNamed := by
  cases htakes with
  | text content offset => exact ⟨wellNamed_addText content hbuilder.siblings, hbuilder.frames⟩
  | mustache hmustache =>
      exact ⟨List.forall_mem_cons.mpr ⟨.mustache _, hbuilder.siblings⟩, hbuilder.frames⟩
  | alone offset hattributes halone =>
      have hnode := Node.WellNamed.element htoken.1
        (isAttributeName_readAttributes hattributes htoken.2) (fun _ => rfl) (List.forall_mem_nil _)
      exact ⟨List.forall_mem_cons.mpr ⟨hnode, hbuilder.siblings⟩, hbuilder.frames⟩
  | opened offset hattributes hopen =>
      refine ⟨List.forall_mem_nil _, List.forall_mem_cons.mpr ⟨?_, hbuilder.frames⟩⟩
      exact ⟨htoken.1, isAttributeName_readAttributes hattributes htoken.2,
        (Bool.or_eq_false_iff.mp hopen).2, hbuilder.siblings⟩
  | @closed name frame outer offset hframes hsame =>
      have hall := hbuilder.frames
      rw [hframes] at hall
      obtain ⟨⟨htag, hattributes, hvoid, hbefore⟩, houter⟩ := List.forall_mem_cons.mp hall
      refine ⟨List.forall_mem_cons.mpr ⟨?_, hbefore⟩, houter⟩
      refine .element htag hattributes ?_ ?_
      · intro hfalse
        exact absurd (hvoid.symm.trans hfalse) Bool.false_ne_true
      · exact fun child hchild => hbuilder.siblings child (List.mem_reverse.mp hchild)

end Building

/-- Whatever names a source gives its elements, they can be written again. -/
theorem wellNamed_of_parse {source : String} {nodes : List Node}
    (hparse : parse source = .ok nodes) :
    ∀ node ∈ nodes, node.WellNamed := by
  obtain ⟨tokens, htokens, hnodes⟩ := bind_eq_ok_iff.mp (mapError_eq_ok_iff.mp hparse)
  have hempty : Builder.WellNamed {} := ⟨List.forall_mem_nil _, List.forall_mem_nil _⟩
  have hall := (nodesOfTokens_eq_ok_iff.mp hnodes).preserves
    (fun htoken htakes => htakes.wellNamed (wellNamed_tokensFrom htokens _ htoken)) hempty
  exact fun node hnode => hall.siblings node (List.mem_reverse.mpr hnode)

end MustacheHtml.Template
