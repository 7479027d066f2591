import Mathlib.Data.Set.List
import MustacheHtml.Proofs.Expression.Grammar
import MustacheHtml.Proofs.Template.Braces

namespace MustacheHtml

namespace Expression

/-- A call has an argument, and what it is a call of is a path with a segment. -/
def CallsPath : Expression → Prop
  | .call name params hash => (params ≠ [] ∨ hash ≠ []) ∧ splitPath name.toList ≠ []
  | _ => True

theorem ne_nil_of_lookup {entries : List (String × Param)} {hash : Dict Param}
    (hlast : ∀ key, hash.get? key = entries.reverse.lookup key) (hentries : entries ≠ []) :
    hash ≠ [] := by
  rintro rfl
  obtain ⟨⟨key, param⟩, others, hreverse⟩ :=
    List.exists_cons_of_ne_nil (fun hnil => hentries (List.reverse_eq_nil_iff.mp hnil))
  have hfound := hlast key
  rw [hreverse, List.lookup_cons_self] at hfound
  cases hfound

theorem callsPath_of_denotes {words : List (List Char)} {expression : Expression}
    (hdenotes : Denotes words expression) : expression.CallsPath := by
  cases hdenotes with
  | @single token param htoken => cases param <;> trivial
  | @call name segments positional assigned params entries hash hname hsegments harguments
      hparams hentries hsorted hlast =>
      refine ⟨?_, ?_⟩
      · cases hparams with
        | nil =>
            refine .inr (ne_nil_of_lookup hlast ?_)
            rintro rfl
            cases hentries
            exact harguments rfl
        | cons hfirst hothers => exact .inl (List.cons_ne_nil _ _)
      · rw [String.toList_ofList]
        cases hname.means with
        | path => exact hsegments

theorem callsPath_of_read {text : List Char} {expression : Expression}
    (hread : read text = .ok expression) : expression.CallsPath := by
  obtain ⟨words, -, hwords⟩ := bind_eq_ok_iff.mp hread
  exact callsPath_of_denotes (ofTokens_eq_ok_iff.mp hwords)

end Expression

theorem Reference.decode_ne_nil {text : List Char} (hnonempty : text ≠ []) :
    Reference.decode text ≠ [] := by
  cases text with
  | nil => exact absurd rfl hnonempty
  | cons c rest =>
      rw [decode]
      split
      · split <;> exact List.cons_ne_nil _ _
      · exact List.cons_ne_nil _ _

namespace Template

section Values

/-- The three kinds of attribute values: without a mustache, a mustache alone, and others with a
mustache among them. -/
inductive ValueKind where
  | static
  | sole
  | mixed
deriving DecidableEq, Repr

/-- The value of the attribute is of the kind. -/
def Attribute.IsOf (attr : Attribute) : ValueKind → Prop
  | .static => ∃ value, attr.staticValue? = some value
  | .sole => ∃ mustache, attr.soleMustache? = some mustache
  | .mixed => 2 ≤ attr.value.length ∧ ∃ mustache, .mustache mustache ∈ attr.value

theorem Attribute.isOf_static_iff {attr : Attribute} :
    attr.IsOf .static ↔ ∀ mustache, .mustache mustache ∉ attr.value := by
  simp only [IsOf, staticValue?_eq_some_iff]
  constructor
  · rintro ⟨value, literals, hvalue, -⟩ mustache hmem
    rw [hvalue] at hmem
    obtain ⟨literal, -, hliteral⟩ := List.mem_map.mp hmem
    cases hliteral
  · intro hplain
    have hliterals : attr.value ∈ Set.range (List.map Part.text) := by
      rw [Set.range_list_map]
      intro part hpart
      cases part with
      | text literal => exact ⟨literal, rfl⟩
      | mustache mustache => exact absurd hpart (hplain mustache)
    obtain ⟨literals, hvalue⟩ := hliterals
    exact ⟨_, literals, hvalue.symm, rfl⟩

theorem Attribute.isOf_sole_iff {attr : Attribute} :
    attr.IsOf .sole ↔ ∃ mustache, attr.value = [.mustache mustache] :=
  exists_congr fun _ => soleMustache?_eq_some_iff

/-- Every value is of one kind and of no other. -/
theorem Attribute.existsUnique_kind (attr : Attribute) : ∃! kind, attr.IsOf kind := by
  by_cases hplain : ∀ mustache, .mustache mustache ∉ attr.value
  · refine ⟨.static, isOf_static_iff.mpr hplain, ?_⟩
    intro kind hkind
    cases kind with
    | static => rfl
    | sole =>
        obtain ⟨mustache, hvalue⟩ := isOf_sole_iff.mp hkind
        exact absurd (hvalue ▸ List.mem_cons_self) (hplain mustache)
    | mixed =>
        obtain ⟨-, mustache, hmem⟩ := hkind
        exact absurd hmem (hplain mustache)
  · have hstatic : ¬ attr.IsOf .static := fun hkind => hplain (isOf_static_iff.mp hkind)
    obtain ⟨mustache, hmem⟩ := not_forall_not.mp hplain
    by_cases hlong : 2 ≤ attr.value.length
    · refine ⟨.mixed, ⟨hlong, mustache, hmem⟩, ?_⟩
      intro kind hkind
      cases kind with
      | static => exact absurd hkind hstatic
      | sole =>
          obtain ⟨held, hvalue⟩ := isOf_sole_iff.mp hkind
          rw [hvalue] at hlong
          exact absurd hlong (Nat.not_succ_le_self 1)
      | mixed => rfl
    · have hvalue : attr.value = [.mustache mustache] := by
        have hlength := List.length_pos_of_mem hmem
        obtain ⟨part, hpart⟩ := List.length_eq_one_iff.mp (by omega : attr.value.length = 1)
        rw [hpart] at hmem ⊢
        rw [List.mem_singleton.mp hmem]
      refine ⟨.sole, isOf_sole_iff.mpr ⟨mustache, hvalue⟩, ?_⟩
      intro kind hkind
      cases kind with
      | static => exact absurd hkind hstatic
      | sole => rfl
      | mixed => exact absurd hkind.1 hlong

/-- No literal part of the value is empty, each call in it has an argument and the path of a name,
and the value is of one kind. -/
structure Attribute.Compact (attr : Attribute) : Prop where
  literals : ∀ literal, .text literal ∈ attr.value → literal ≠ ""
  mustaches : ∀ mustache, .mustache mustache ∈ attr.value → mustache.expression.CallsPath
  kind : ∃! kind, attr.IsOf kind

end Values

section Tokens

/-- No text and no literal part of an attribute value in the token is empty. -/
def Token.Filled : Token → Prop
  | .text content _ => content ≠ ""
  | .startTag _ attributes _ _ =>
      ∀ attr ∈ attributes, ∀ literal, .text literal ∈ attr.value → literal ≠ ""
  | _ => True

variable {rest : List Char} {offset : Nat} {segments : List Segment}

theorem decoded_ne {span : List Char} (hnonempty : span ≠ []) :
    String.ofList (Reference.decode span) ≠ "" := by
  intro hempty
  have hdecoded := congrArg String.toList hempty
  rw [String.toList_ofList] at hdecoded
  exact Reference.decode_ne_nil hnonempty hdecoded

theorem ValueSegments.filled {parts : List RawPart}
    (hvalue : ValueSegments rest offset parts segments) :
    ∀ literal, .text literal ∈ parts → literal ≠ "" := by
  induction hvalue with
  | nil => exact nofun
  | literal hnonempty hclear hothers ih =>
      intro literal hmem
      rcases List.mem_cons.mp hmem with hfirst | hlater
      · cases hfirst
        exact decoded_ne hnonempty
      · exact ih literal hlater
  | mustache hspan hothers ih =>
      intro literal hmem
      rcases List.mem_cons.mp hmem with hfirst | hlater
      · cases hfirst
      · exact ih literal hlater
  | comment hspan hothers ih => exact ih

theorem AttributeSegments.filled {attr : RawAttribute}
    (hattr : AttributeSegments rest offset attr segments) :
    ∀ literal, .text literal ∈ attr.value → literal ≠ "" := by
  cases hattr with
  | bare hname hblanks hends => exact nofun
  | assigned hname hbefore hafter hquotes hvalue => exact hvalue.filled

theorem TagSegments.filled {tagEnd : TagEnd} (htag : TagSegments rest offset tagEnd segments) :
    ∀ attr ∈ tagEnd.attributes, ∀ literal, .text literal ∈ attr.value → literal ≠ "" := by
  induction htag with
  | closed => exact nofun
  | selfClosed => exact nofun
  | cons hblanks hfirst hothers ih => exact List.forall_mem_cons.mpr ⟨hfirst.filled, ih⟩

theorem TokenSegments.filled {token : Token}
    (htoken : TokenSegments rest offset (some token) segments) : token.Filled := by
  cases htoken with
  | text hnonempty hplain => exact decoded_ne hnonempty
  | mustache hspan => trivial
  | startTag hname hend => exact hend.filled
  | endTag hname hchars hblanks => trivial

theorem SourceSegments.filled {tokens : List Token}
    (hsource : SourceSegments offset tokens segments) : ∀ token ∈ tokens, token.Filled := by
  induction hsource with
  | nil => exact nofun
  | @cons offset token? tokens first others hfirst hothers ih =>
      cases token? with
      | none => exact ih
      | some token => exact List.forall_mem_cons.mpr ⟨hfirst.filled, ih⟩

end Tokens

section Building

/-- There is a text at the front. -/
def StartsWithText : List Node → Prop
  | .text _ :: _ => True
  | _ => False

/-- No text is empty and no two texts are neighbours, the values of attributes are compact, and
each call has an argument and the path of a name. -/
inductive Compact : List Node → Prop where
  | nil : Compact []
  | text {content : String} {rest : List Node} (hcontent : content ≠ "")
      (hapart : ¬ StartsWithText rest) (hrest : Compact rest) : Compact (.text content :: rest)
  | mustache {mustache : Mustache} {rest : List Node}
      (hmustache : mustache.expression.CallsPath) (hrest : Compact rest) :
      Compact (.mustache mustache :: rest)
  | element (tag : String) {attributes : List Attribute} {children rest : List Node}
      (hattributes : ∀ attr ∈ attributes, attr.Compact) (hchildren : Compact children)
      (hrest : Compact rest) : Compact (.element tag attributes children :: rest)

theorem Compact.reverseAux {left right : List Node} (hleft : Compact left)
    (hright : Compact right) (hapart : ¬ (StartsWithText left ∧ StartsWithText right)) :
    Compact (left.reverseAux right) := by
  induction hleft generalizing right with
  | nil => exact hright
  | text hcontent hnext _ ih =>
      refine ih (.text hcontent (fun hstarts => hapart ⟨trivial, hstarts⟩) hright) ?_
      exact fun hboth => hnext hboth.1
  | mustache hmustache _ ih => exact ih (.mustache hmustache hright) And.right
  | element tag hattributes hchildren _ _ ih =>
      exact ih (.element tag hattributes hchildren hright) And.right

theorem Compact.reverse {nodes : List Node} (hcompact : Compact nodes) : Compact nodes.reverse :=
  hcompact.reverseAux .nil And.right

theorem Compact.addText {siblings : List Node} (hcompact : Compact siblings) {content : String}
    (hcontent : content ≠ "") : Compact (addText content siblings) := by
  cases hcompact with
  | nil => exact .text hcontent nofun .nil
  | text hbefore hapart hrest => exact .text (by simp [hbefore]) hapart hrest
  | mustache hmustache hrest => exact .text hcontent nofun (.mustache hmustache hrest)
  | element tag hattributes hchildren hrest =>
      exact .text hcontent nofun (.element tag hattributes hchildren hrest)

theorem RawMustache.Says.callsPath {raw : RawMustache} {mustache : Mustache}
    (hspelled : raw.Says mustache) : mustache.expression.CallsPath :=
  Expression.callsPath_of_read hspelled.read_eq

theorem RawAttribute.Says.compact {raw : RawAttribute} {attr : Attribute}
    (hspelled : raw.Says attr) (hraw : ∀ literal, .text literal ∈ raw.value → literal ≠ "") :
    attr.Compact := by
  refine ⟨?_, ?_, Attribute.existsUnique_kind _⟩
  · intro literal hliteral
    obtain ⟨_, hwritten, hpart⟩ := exists_of_forall₂ hspelled.value _ hliteral
    cases hpart
    exact hraw literal hwritten
  · intro mustache hmustache
    obtain ⟨_, -, hpart⟩ := exists_of_forall₂ hspelled.value _ hmustache
    cases hpart with
    | mustache hheld => exact hheld.callsPath

theorem compact_readAttributes {raw : List RawAttribute} {attributes : List Attribute}
    (hread : raw.mapM readAttribute = .ok attributes)
    (hraw : ∀ attr ∈ raw, ∀ literal, .text literal ∈ attr.value → literal ≠ "") :
    ∀ attr ∈ attributes, attr.Compact := by
  intro attr hattr
  obtain ⟨written, hwritten, hspelled⟩ :=
    exists_of_forall₂ (says_of_readAttributes hread) attr hattr
  exact hspelled.compact (hraw written hwritten)

/-- What is read so far is compact, at every level that is open. -/
structure Builder.Compact (builder : Builder) : Prop where
  siblings : Template.Compact builder.siblings
  frames : ∀ frame ∈ builder.openElements,
    (∀ attr ∈ frame.attributes, attr.Compact) ∧ Template.Compact frame.before

variable {builder after : Builder} {token : Token}

theorem Builder.Takes.compact (htakes : builder.Takes token after) (htoken : token.Filled)
    (hbuilder : builder.Compact) : after.Compact := by
  cases htakes with
  | text content offset => exact ⟨hbuilder.siblings.addText htoken, hbuilder.frames⟩
  | mustache hmustache =>
      have hcalls := (says_of_readMustache hmustache).callsPath
      exact ⟨.mustache hcalls hbuilder.siblings, hbuilder.frames⟩
  | @alone name raw attributes selfClosing offset hattributes halone =>
      have hcompact := compact_readAttributes hattributes htoken
      exact ⟨.element name hcompact .nil hbuilder.siblings, hbuilder.frames⟩
  | opened offset hattributes hopen =>
      have hcompact := compact_readAttributes hattributes htoken
      exact ⟨.nil, List.forall_mem_cons.mpr ⟨⟨hcompact, hbuilder.siblings⟩, hbuilder.frames⟩⟩
  | @closed name frame outer offset hframes hsame =>
      have hall := hbuilder.frames
      rw [hframes] at hall
      obtain ⟨⟨hattributes, hbefore⟩, houter⟩ := List.forall_mem_cons.mp hall
      exact ⟨.element frame.tag hattributes hbuilder.siblings.reverse hbefore, houter⟩

end Building

/-- What every tree of a source is like: its names can be written, void elements are empty, texts
are joined, and attribute values and calls are whole. -/
structure NormalForm (nodes : List Node) : Prop where
  named : ∀ node ∈ nodes, node.WellNamed
  compact : Compact nodes

/-- Whatever a source is read to is in normal form. -/
theorem parse_normalForm {source : String} {nodes : List Node} (hparse : parse source = .ok nodes) :
    NormalForm nodes := by
  refine ⟨wellNamed_of_parse hparse, ?_⟩
  obtain ⟨tokens, htokens, hnodes⟩ := bind_eq_ok_iff.mp (mapError_eq_ok_iff.mp hparse)
  obtain ⟨segments, -, hsource⟩ := exists_sourceSegments htokens
  have hempty : Builder.Compact {} := ⟨.nil, List.forall_mem_nil _⟩
  have hall := (nodesOfTokens_eq_ok_iff.mp hnodes).preserves
    (fun htoken htakes => htakes.compact (hsource.filled _ htoken)) hempty
  rw [← List.reverse_reverse nodes]
  exact hall.siblings.reverse

def calledNodes : List Node :=
  [.element "p" [⟨"id", [.text "x"]⟩,
      ⟨"class", [.text "a ", .mustache ⟨.call "b" [.id ["c"]] [], true⟩]⟩]
    [.text "hi, you", .element "br" [] []]]

theorem parse_normalForm_called :
    parse "<p id=x class='a \x7b\x7bb c\x7d\x7d'>hi\x7b\x7b! \x7d\x7d<!-- -->, you<br></p>" =
        .ok calledNodes ∧
      NormalForm calledNodes := by
  have htokens : tokens
      "<p id=x class='a \x7b\x7bb c\x7d\x7d'>hi\x7b\x7b! \x7d\x7d<!-- -->, you<br></p>".toList =
        .ok [.startTag "p" [⟨"id", [.text "x"], 3⟩,
          ⟨"class", [.text "a ", .mustache ⟨"b c", true, 17⟩], 8⟩] false 0, .text "hi" 26,
          .text ", you" 42, .startTag "br" [] false 47, .endTag "p" 51] := by
    decide +kernel
  have hparse : parse
      "<p id=x class='a \x7b\x7bb c\x7d\x7d'>hi\x7b\x7b! \x7d\x7d<!-- -->, you<br></p>" =
        .ok calledNodes :=
    mapError_eq_ok_iff.mpr (bind_eq_ok_iff.mpr ⟨_, htokens, rfl⟩)
  exact ⟨hparse, parse_normalForm hparse⟩

end Template

end MustacheHtml
