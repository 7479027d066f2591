import Mathlib.Data.List.Basic
import MustacheHtml.Template.Building
import MustacheHtml.Proofs.Results

namespace MustacheHtml.Template

/-- Whether a start tag makes an element that no end tag closes. -/
def standsAlone (name : String) (selfClosing : Bool) : Bool :=
  selfClosing || TagName.isVoid name

/-- Each start tag has its end tag, with balanced tokens between them, unless it stands alone. -/
inductive Balanced : List Token → Prop where
  | nil : Balanced []
  | text {rest : List Token} (content : String) (offset : Nat) (hrest : Balanced rest) :
      Balanced (.text content offset :: rest)
  | mustache {rest : List Token} (raw : RawMustache) (hrest : Balanced rest) :
      Balanced (.mustache raw :: rest)
  | alone {rest : List Token} {name : String} {selfClosing : Bool}
      (attributes : List RawAttribute) (offset : Nat)
      (halone : standsAlone name selfClosing = true) (hrest : Balanced rest) :
      Balanced (.startTag name attributes selfClosing offset :: rest)
  | pair {inner rest : List Token} {name closing : String} {selfClosing : Bool}
      (attributes : List RawAttribute) (offset closingOffset : Nat)
      (hopen : standsAlone name selfClosing = false) (hsame : TagName.same name closing = true)
      (hinner : Balanced inner) (hrest : Balanced rest) :
      Balanced (.startTag name attributes selfClosing offset ::
        (inner ++ .endTag closing closingOffset :: rest))

/-- The mustache that a part is, if it is one. -/
def RawPart.mustache? : RawPart → Option RawMustache
  | .text _ => none
  | .mustache raw => some raw

/-- The mustaches of a token, in content or in attribute values. -/
def Token.mustaches : Token → List RawMustache
  | .text _ _ => []
  | .mustache raw => [raw]
  | .startTag _ attributes _ _ =>
      attributes.flatMap fun attr => attr.value.filterMap RawPart.mustache?
  | .endTag _ _ => []

/-- The source of a mustache is an expression. -/
def RawMustache.Readable (raw : RawMustache) : Prop :=
  ∃ expression, Expression.read raw.source.toList = .ok expression

/-- All mustaches of a token can be read. -/
def Token.Readable (token : Token) : Prop :=
  ∀ raw ∈ token.mustaches, raw.Readable

section Readable

theorem readMustache_ok_iff {raw : RawMustache} :
    (∃ mustache, readMustache raw = .ok mustache) ↔ raw.Readable := by
  unfold readMustache RawMustache.Readable
  cases Expression.read raw.source.toList with
  | ok expression => exact ⟨fun _ => ⟨expression, rfl⟩, fun _ => ⟨_, rfl⟩⟩
  | error fault =>
      constructor
      · rintro ⟨_, hread⟩
        cases hread
      · rintro ⟨_, hread⟩
        cases hread

theorem readPart_ok_iff {part : RawPart} :
    (∃ read, readPart part = .ok read) ↔ ∀ raw, part.mustache? = some raw → raw.Readable := by
  cases part with
  | text content =>
      constructor
      · intro _ raw hraw
        cases hraw
      · exact fun _ => ⟨.text content, rfl⟩
  | mustache raw =>
      simp only [RawPart.mustache?, Option.some.injEq, forall_eq', ← readMustache_ok_iff]
      constructor
      · rintro ⟨_, hread⟩
        obtain ⟨mustache, hmustache, -⟩ := bind_eq_ok_iff.mp hread
        exact ⟨mustache, hmustache⟩
      · rintro ⟨mustache, hmustache⟩
        exact ⟨.mustache mustache, by rw [readPart, hmustache]; rfl⟩

theorem readAttribute_ok_iff {attr : RawAttribute} :
    (∃ read, readAttribute attr = .ok read) ↔
      ∀ raw ∈ attr.value.filterMap RawPart.mustache?, raw.Readable := by
  have hparts : (∃ read, readAttribute attr = .ok read) ↔
      ∃ parts, attr.value.mapM readPart = .ok parts := by
    constructor
    · rintro ⟨_, hread⟩
      obtain ⟨parts, hparts, -⟩ := bind_eq_ok_iff.mp hread
      exact ⟨parts, hparts⟩
    · rintro ⟨parts, hparts⟩
      exact ⟨⟨attr.name, parts⟩, bind_eq_ok_iff.mpr ⟨parts, hparts, rfl⟩⟩
  rw [hparts, mapM_ok_iff_forall]
  simp only [readPart_ok_iff, List.mem_filterMap]
  constructor
  · rintro hall raw ⟨part, hpart, hraw⟩
    exact hall part hpart raw hraw
  · intro hall part hpart raw hraw
    exact hall raw ⟨part, hpart, hraw⟩

theorem readAttributes_ok_iff {name : String} {raw : List RawAttribute} {selfClosing : Bool}
    {offset : Nat} : (∃ attributes, raw.mapM readAttribute = .ok attributes) ↔
      (Token.startTag name raw selfClosing offset).Readable := by
  rw [mapM_ok_iff_forall]
  simp only [Token.Readable, Token.mustaches, List.mem_flatMap, readAttribute_ok_iff]
  constructor
  · rintro hall mustache ⟨attr, hattr, hmustache⟩
    exact hall attr hattr mustache hmustache
  · intro hall attr hattr mustache hmustache
    exact hall mustache ⟨attr, hattr, hmustache⟩

end Readable

/-- The mustache has the expression that the source is written for, and is escaped as the braces
say. -/
structure RawMustache.Says (raw : RawMustache) (mustache : Mustache) : Prop where
  read_eq : Expression.read raw.source.toList = .ok mustache.expression
  escaped_eq : mustache.escaped = raw.escaped

/-- A literal part says itself. -/
inductive RawPart.Says : RawPart → Part → Prop where
  | text (content : String) : Says (.text content) (.text content)
  | mustache {raw : RawMustache} {mustache : Mustache} (hspelled : raw.Says mustache) :
      Says (.mustache raw) (.mustache mustache)

/-- The attribute has the name as it is written, and all parts of the value in their order. -/
structure RawAttribute.Says (raw : RawAttribute) (attr : Attribute) : Prop where
  name_eq : attr.name = raw.name
  value : List.Forall₂ RawPart.Says raw.value attr.value

section Reading

theorem says_of_readMustache {raw : RawMustache} {mustache : Mustache}
    (hread : readMustache raw = .ok mustache) : raw.Says mustache := by
  unfold readMustache at hread
  split at hread
  · next hexpression =>
      cases hread
      exact ⟨hexpression, rfl⟩
  · cases hread

theorem says_of_readPart {raw : RawPart} {part : Part} (hread : readPart raw = .ok part) :
    raw.Says part := by
  cases raw with
  | text content =>
      cases hread
      exact .text content
  | mustache raw =>
      obtain ⟨mustache, hmustache, hpart⟩ := bind_eq_ok_iff.mp hread
      cases hpart
      exact .mustache (says_of_readMustache hmustache)

theorem says_of_readAttribute {raw : RawAttribute} {attr : Attribute}
    (hread : readAttribute raw = .ok attr) : raw.Says attr := by
  obtain ⟨parts, hparts, hattr⟩ := bind_eq_ok_iff.mp hread
  cases hattr
  exact ⟨rfl, (mapM_eq_ok_iff_forall₂.mp hparts).imp fun _ _ => says_of_readPart⟩

theorem says_of_readAttributes {raw : List RawAttribute} {attributes : List Attribute}
    (hread : raw.mapM readAttribute = .ok attributes) :
    List.Forall₂ RawAttribute.Says raw attributes :=
  (mapM_eq_ok_iff_forall₂.mp hread).imp fun _ _ => says_of_readAttribute

end Reading

section Steps

variable {builder after : Builder} {token : Token}

/-- How a token can be taken. -/
inductive Builder.Takes (builder : Builder) : Token → Builder → Prop where
  | text (content : String) (offset : Nat) :
      Takes builder (.text content offset)
        { builder with siblings := addText content builder.siblings }
  | mustache {raw : RawMustache} {mustache : Mustache}
      (hmustache : readMustache raw = .ok mustache) :
      Takes builder (.mustache raw) (builder.push (.mustache mustache))
  | alone {name : String} {raw : List RawAttribute} {attributes : List Attribute}
      {selfClosing : Bool} (offset : Nat) (hattributes : raw.mapM readAttribute = .ok attributes)
      (halone : standsAlone name selfClosing = true) :
      Takes builder (.startTag name raw selfClosing offset)
        (builder.push (.element name attributes []))
  | opened {name : String} {raw : List RawAttribute} {attributes : List Attribute}
      {selfClosing : Bool} (offset : Nat) (hattributes : raw.mapM readAttribute = .ok attributes)
      (hopen : standsAlone name selfClosing = false) :
      Takes builder (.startTag name raw selfClosing offset)
        ⟨[], ⟨name, attributes, offset, builder.siblings⟩ :: builder.openElements⟩
  | closed {name : String} {frame : Frame} {outer : List Frame} (offset : Nat)
      (hframes : builder.openElements = frame :: outer)
      (hsame : TagName.same frame.tag name = true) :
      Takes builder (.endTag name offset) ⟨frame.close builder.siblings, outer⟩

theorem Builder.takes_of_add (hadd : builder.add token = .ok after) :
    builder.Takes token after := by
  cases token with
  | text content offset =>
      cases hadd
      exact .text content offset
  | mustache raw =>
      obtain ⟨mustache, hmustache, hpush⟩ := bind_eq_ok_iff.mp hadd
      cases hpush
      exact .mustache hmustache
  | startTag name raw selfClosing offset =>
      obtain ⟨attributes, hattributes, hplace⟩ := bind_eq_ok_iff.mp hadd
      split at hplace
      · next halone =>
          cases hplace
          exact .alone offset hattributes halone
      · next hopen =>
          cases hplace
          exact .opened offset hattributes (Bool.eq_false_iff.mpr hopen)
  | endTag name offset =>
      simp only [Builder.add] at hadd
      split at hadd
      · cases hadd
      · next frame outer hframes =>
          split at hadd
          · next hsame =>
              cases hadd
              exact .closed offset hframes hsame
          · cases hadd

theorem Builder.Takes.add_eq (htakes : builder.Takes token after) :
    builder.add token = .ok after := by
  cases htakes with
  | text content offset => rfl
  | mustache hmustache => exact bind_eq_ok_iff.mpr ⟨_, hmustache, rfl⟩
  | alone offset hattributes halone =>
      exact bind_eq_ok_iff.mpr ⟨_, hattributes, if_pos halone⟩
  | opened offset hattributes hopen =>
      exact bind_eq_ok_iff.mpr ⟨_, hattributes, if_neg (Bool.eq_false_iff.mp hopen)⟩
  | closed offset hframes hsame => simp only [Builder.add, hframes, hsame, if_true]

theorem Builder.Takes.foldlM_cons {rest : List Token} (htakes : builder.Takes token after) :
    (token :: rest).foldlM Builder.add builder = rest.foldlM Builder.add after := by
  rw [List.foldlM_cons, htakes.add_eq]
  rfl

end Steps

section Runs

variable {builder next after : Builder} {token : Token} {tokens more : List Token}

/-- The tokens can be taken one after another. -/
inductive Builder.Reads : Builder → List Token → Builder → Prop where
  | nil (builder : Builder) : Reads builder [] builder
  | cons {builder next after : Builder} {token : Token} {rest : List Token}
      (htakes : builder.Takes token next) (hrest : Reads next rest after) :
      Reads builder (token :: rest) after

namespace Builder

theorem reads_iff : builder.Reads tokens after ↔ tokens.foldlM Builder.add builder = .ok after := by
  constructor
  · intro hreads
    induction hreads with
    | nil builder => rfl
    | cons htakes hrest ih => rw [htakes.foldlM_cons, ih]
  · intro hfold
    induction tokens generalizing builder with
    | nil =>
        cases hfold
        exact .nil _
    | cons token rest ih =>
        rw [List.foldlM_cons] at hfold
        obtain ⟨next, hadd, hrest⟩ := bind_eq_ok_iff.mp hfold
        exact .cons (takes_of_add hadd) (ih hrest)

theorem reads_append_iff : builder.Reads (tokens ++ more) after ↔
    ∃ next, builder.Reads tokens next ∧ next.Reads more after := by
  simp only [reads_iff, List.foldlM_append, bind_eq_ok_iff]

namespace Reads

theorem unique (hreads : builder.Reads tokens next) (hagain : builder.Reads tokens after) :
    next = after :=
  Except.ok.inj ((reads_iff.mp hreads).symm.trans (reads_iff.mp hagain))

/-- What holds at the start and is kept by every token that is taken holds at the end. -/
theorem preserves {Holds : Builder → Prop} (hreads : builder.Reads tokens after)
    (hstep : ∀ {before next : Builder} {token : Token}, token ∈ tokens →
      before.Takes token next → Holds before → Holds next)
    (hstart : Holds builder) : Holds after := by
  induction hreads with
  | nil builder => exact hstart
  | cons htakes hrest ih =>
      exact ih (fun htoken => hstep (List.mem_cons_of_mem _ htoken))
        (hstep List.mem_cons_self htakes hstart)

end Reads

theorem exists_of_foldlM_error {found : FaultAt}
    (hfold : tokens.foldlM Builder.add builder = .error found) :
    ∃ before token reached, before ++ [token] <+: tokens ∧ builder.Reads before reached ∧
      reached.add token = .error found := by
  induction tokens generalizing builder with
  | nil => cases hfold
  | cons token rest ih =>
      rw [List.foldlM_cons] at hfold
      rcases bind_eq_error_iff.mp hfold with hadd | ⟨next, hadd, hrest⟩
      · exact ⟨[], token, builder, ⟨rest, rfl⟩, .nil builder, hadd⟩
      · obtain ⟨before, culprit, reached, hbegins, hbefore, hfails⟩ := ih hrest
        exact ⟨token :: before, culprit, reached, List.cons_prefix_cons.mpr ⟨rfl, hbegins⟩,
          .cons (takes_of_add hadd) hbefore, hfails⟩

end Builder

end Runs

section Balance

variable {tokens rest : List Token} {token : Token} {builder after : Builder}

/-- The tokens close the elements with the given names, innermost first, and are balanced before,
between and after the tags that do so. -/
def Closes : List String → List Token → Prop
  | [], tokens => Balanced tokens
  | name :: outer, tokens =>
      ∃ inner closing offset rest, tokens = inner ++ .endTag closing offset :: rest ∧
        Balanced inner ∧ TagName.same name closing = true ∧ Closes outer rest

theorem Closes.prepend (before : List Token)
    (hbefore : ∀ tokens, Balanced tokens → Balanced (before ++ tokens)) {names : List String}
    (hcloses : Closes names tokens) : Closes names (before ++ tokens) := by
  cases names with
  | nil => exact hbefore tokens hcloses
  | cons name outer =>
      obtain ⟨inner, closing, offset, rest, rfl, hinner, hsame, hrest⟩ := hcloses
      refine ⟨before ++ inner, closing, offset, rest, ?_, hbefore inner hinner, hsame, hrest⟩
      rw [List.append_assoc]

/-- The tags of the open elements, the innermost one first. -/
def Builder.openTags (builder : Builder) : List String :=
  builder.openElements.map Frame.tag

theorem Builder.Takes.closes (htakes : builder.Takes token after)
    (hcloses : Closes after.openTags rest) : Closes builder.openTags (token :: rest) := by
  cases htakes with
  | text content offset =>
      exact Closes.prepend [.text content offset] (fun _ => .text content offset) hcloses
  | mustache hmustache =>
      exact Closes.prepend [.mustache _] (fun _ => .mustache _) hcloses
  | alone offset hattributes halone =>
      exact Closes.prepend [.startTag _ _ _ offset] (fun _ => .alone _ offset halone) hcloses
  | @opened name raw attributes selfClosing offset hattributes hopen =>
      obtain ⟨inner, closing, closingOffset, others, rfl, hinner, hsame, hothers⟩ := hcloses
      have hpair : ∀ tokens, Balanced tokens → Balanced
          ((.startTag name raw selfClosing offset ::
            (inner ++ [.endTag closing closingOffset])) ++ tokens) := by
        intro tokens htokens
        rw [List.cons_append, List.append_assoc]
        exact .pair raw offset closingOffset hopen hsame hinner htokens
      have hcloses := Closes.prepend _ hpair hothers
      rwa [List.cons_append, List.append_assoc] at hcloses
  | closed offset hframes hsame =>
      rw [Builder.openTags, hframes]
      exact ⟨[], _, offset, rest, rfl, .nil, hsame, hcloses⟩

theorem Builder.Takes.readable (htakes : builder.Takes token after) : token.Readable := by
  cases htakes with
  | text content offset => exact fun _ hraw => nomatch hraw
  | mustache hmustache =>
      intro raw hraw
      rw [List.mem_singleton.mp hraw]
      exact readMustache_ok_iff.mp ⟨_, hmustache⟩
  | alone offset hattributes halone => exact readAttributes_ok_iff.mp ⟨_, hattributes⟩
  | opened offset hattributes hopen => exact readAttributes_ok_iff.mp ⟨_, hattributes⟩
  | closed offset hframes hsame => exact fun _ hraw => nomatch hraw

theorem Builder.Reads.closes (hreads : builder.Reads tokens after)
    (hclosed : after.openElements = []) : Closes builder.openTags tokens := by
  induction hreads with
  | nil builder =>
      rw [Builder.openTags, hclosed]
      exact .nil
  | cons htakes hrest ih => exact htakes.closes (ih hclosed)

theorem Builder.Reads.readable (hreads : builder.Reads tokens after) :
    ∀ token ∈ tokens, token.Readable := by
  induction hreads with
  | nil builder => exact List.forall_mem_nil _
  | cons htakes hrest ih => exact List.forall_mem_cons.mpr ⟨htakes.readable, ih⟩

theorem Balanced.reads (hbalanced : Balanced tokens)
    (hreadable : ∀ token ∈ tokens, token.Readable) (builder : Builder) :
    ∃ siblings, builder.Reads tokens ⟨siblings, builder.openElements⟩ := by
  induction hbalanced generalizing builder with
  | nil => exact ⟨builder.siblings, .nil builder⟩
  | text content offset hrest ih =>
      obtain ⟨siblings, hreads⟩ := ih (List.forall_mem_cons.mp hreadable).2 _
      exact ⟨siblings, .cons (.text content offset) hreads⟩
  | mustache raw hrest ih =>
      obtain ⟨hraw, hothers⟩ := List.forall_mem_cons.mp hreadable
      obtain ⟨mustache, hmustache⟩ := readMustache_ok_iff.mpr (hraw raw List.mem_cons_self)
      obtain ⟨siblings, hreads⟩ := ih hothers _
      exact ⟨siblings, .cons (.mustache hmustache) hreads⟩
  | alone raw offset halone hrest ih =>
      obtain ⟨htag, hothers⟩ := List.forall_mem_cons.mp hreadable
      obtain ⟨attributes, hattributes⟩ := readAttributes_ok_iff.mpr htag
      obtain ⟨siblings, hreads⟩ := ih hothers _
      exact ⟨siblings, .cons (.alone offset hattributes halone) hreads⟩
  | @pair inner rest name closing selfClosing raw offset closingOffset hopen hsame hinner hrest
      ihInner ihRest =>
      obtain ⟨htag, hothers⟩ := List.forall_mem_cons.mp hreadable
      obtain ⟨hwithin, hclosing⟩ := List.forall_mem_append.mp hothers
      obtain ⟨attributes, hattributes⟩ := readAttributes_ok_iff.mpr htag
      let frame : Frame := ⟨name, attributes, offset, builder.siblings⟩
      obtain ⟨children, hchildren⟩ := ihInner hwithin ⟨[], frame :: builder.openElements⟩
      obtain ⟨siblings, hsiblings⟩ := ihRest (List.forall_mem_cons.mp hclosing).2
        ⟨frame.close children, builder.openElements⟩
      have hclosed : Builder.Takes ⟨children, frame :: builder.openElements⟩
          (.endTag closing closingOffset) ⟨frame.close children, builder.openElements⟩ :=
        .closed closingOffset rfl hsame
      exact ⟨siblings, .cons (.opened offset hattributes hopen)
        (Builder.reads_append_iff.mpr ⟨_, hchildren, .cons hclosed hsiblings⟩)⟩

/-- The end of the tokens is reached when all elements are closed. -/
theorem nodesOfTokens_eq_ok_iff {nodes : List Node} : nodesOfTokens tokens = .ok nodes ↔
    Builder.Reads {} tokens ⟨nodes.reverse, []⟩ := by
  unfold nodesOfTokens
  rw [bind_eq_ok_iff, Builder.reads_iff]
  constructor
  · rintro ⟨⟨siblings, frames⟩, hfold, hfinish⟩
    cases frames with
    | nil =>
        cases hfinish
        rw [List.reverse_reverse]
        exact hfold
    | cons frame outer => cases hfinish
  · intro hfold
    exact ⟨_, hfold, by rw [Builder.finish, List.reverse_reverse]⟩

theorem exists_of_nodesOfTokens_error {found : FaultAt}
    (hnodes : nodesOfTokens tokens = .error found) :
    (∃ before token reached, before ++ [token] <+: tokens ∧ Builder.Reads {} before reached ∧
      reached.add token = .error found) ∨
    ∃ reached frame outer, Builder.Reads {} tokens reached ∧
      reached.openElements = frame :: outer ∧
      found = ⟨frame.offset, .unclosedElement frame.tag⟩ := by
  rcases bind_eq_error_iff.mp hnodes with hfold | ⟨reached, hfold, hfinish⟩
  · exact .inl (Builder.exists_of_foldlM_error hfold)
  · refine .inr ⟨reached, ?_⟩
    unfold Builder.finish at hfinish
    split at hfinish
    · cases hfinish
    · next frame outer hframes =>
        cases hfinish
        exact ⟨frame, outer, Builder.reads_iff.mpr hfold, hframes, rfl⟩

theorem nodesOfTokens_ok_iff_balanced : (∃ nodes, nodesOfTokens tokens = .ok nodes) ↔
    Balanced tokens ∧ ∀ token ∈ tokens, token.Readable := by
  constructor
  · rintro ⟨nodes, hnodes⟩
    have hreads := nodesOfTokens_eq_ok_iff.mp hnodes
    exact ⟨hreads.closes rfl, hreads.readable⟩
  · rintro ⟨hbalanced, hreadable⟩
    obtain ⟨siblings, hreads⟩ := hbalanced.reads hreadable {}
    refine ⟨siblings.reverse, nodesOfTokens_eq_ok_iff.mpr ?_⟩
    rw [List.reverse_reverse]
    exact hreads

end Balance

end MustacheHtml.Template
