import MustacheHtml.Proofs.Template.FaultPlaces
import MustacheHtml.Proofs.Template.Segments

/-!
Which beginnings of a list of tokens some tokens make a tree of, and what is told of the first token
after which none can.
-/

namespace MustacheHtml.Template

/-- Some tokens behind these make a tree of them. -/
def Viable (tokens : List Token) : Prop :=
  ∃ more nodes, nodesOfTokens (tokens ++ more) = .ok nodes

/-- The elements that the tokens leave open, by their names and offsets, innermost first. -/
inductive Opens : List Token → List (String × Nat) → Prop where
  | none {tokens : List Token} (hbalanced : Balanced tokens) : Opens tokens []
  | element {before inner : List Token} {outer : List (String × Nat)} {name : String}
      {selfClosing : Bool} (attributes : List RawAttribute) (offset : Nat)
      (houter : Opens before outer) (hopen : standsAlone name selfClosing = false)
      (hinner : Balanced inner) :
      Opens (before ++ .startTag name attributes selfClosing offset :: inner)
        ((name, offset) :: outer)

/-- Why no tree can go on with the token, in elements that are open. Of the mustaches of a token
that cannot be read the first one in the source is told. -/
inductive Refused (opens : List (String × Nat)) (token : Token) : FaultAt → Prop where
  | unreadable {raw : RawMustache} {fault : Expression.Fault} (hraw : raw ∈ token.mustaches)
      (hread : Expression.read raw.source.toList = .error fault)
      (hfirst : ∀ other ∈ token.mustaches, other.offset < raw.offset → other.Readable) :
      Refused opens token ⟨raw.offset, .expression fault⟩
  | unexpected {name : String} {offset : Nat} (htoken : token = .endTag name offset)
      (hopens : opens = []) : Refused opens token ⟨offset, .unexpectedClosingTag name⟩
  | mismatched {name expected : String} {offset place : Nat} {outer : List (String × Nat)}
      (htoken : token = .endTag name offset) (hopens : opens = (expected, place) :: outer)
      (hother : TagName.same expected name = false) :
      Refused opens token ⟨offset, .mismatchedClosingTag name expected⟩

/-- The tokens up to this one are the shortest beginning of the list that makes no tree, whatever
follows. -/
structure FirstHopeless (tokens before : List Token) (token : Token) : Prop where
  begins : before ++ [token] <+: tokens
  viable_iff : ∀ front, front <+: tokens → (Viable front ↔ front <+: before)

section Opens

variable {tokens more before : List Token} {elements : List (String × Nat)}

theorem Balanced.append (htokens : Balanced tokens) (hmore : Balanced more) :
    Balanced (tokens ++ more) := by
  induction htokens with
  | nil => exact hmore
  | text content offset hrest ih => exact .text content offset ih
  | mustache raw hrest ih => exact .mustache raw ih
  | alone attributes offset halone hrest ih => exact .alone attributes offset halone ih
  | pair attributes offset closingOffset hopen hsame hinner hrest ihInner ihRest =>
      rw [List.cons_append, List.append_assoc, List.cons_append]
      exact .pair attributes offset closingOffset hopen hsame hinner ihRest

theorem Opens.append (hopens : Opens tokens elements) (hmore : Balanced more) :
    Opens (tokens ++ more) elements := by
  cases hopens with
  | none hbalanced => exact .none (hbalanced.append hmore)
  | element attributes offset houter hopen hinner =>
      rw [List.append_assoc, List.cons_append]
      exact .element attributes offset houter hopen (hinner.append hmore)

/-- The open elements with the places of their start tags, the innermost one first. -/
def Builder.unclosed (builder : Builder) : List (String × Nat) :=
  builder.openElements.map fun frame => (frame.tag, frame.offset)

variable {builder after : Builder} {token : Token}

theorem Builder.Takes.unclosed (htakes : builder.Takes token after)
    (hopens : Opens before builder.unclosed) : Opens (before ++ [token]) after.unclosed := by
  cases htakes with
  | text content offset => exact hopens.append (.text content offset .nil)
  | mustache hmustache => exact hopens.append (.mustache _ .nil)
  | alone offset hattributes halone => exact hopens.append (.alone _ offset halone .nil)
  | opened offset hattributes hopen => exact .element _ offset hopens hopen .nil
  | @closed name frame outer offset hframes hsame =>
      rw [Builder.unclosed, hframes] at hopens
      cases hopens with
      | @element front inner _ _ selfClosing attributes place houter hopen hinner =>
          have hpair : Balanced (.startTag frame.tag attributes selfClosing frame.offset ::
              (inner ++ [.endTag name offset])) :=
            .pair attributes frame.offset offset hopen hsame hinner .nil
          have hclosed := houter.append hpair
          rwa [← List.cons_append, ← List.append_assoc] at hclosed

theorem Builder.Reads.unclosed (hreads : builder.Reads tokens after)
    (hopens : Opens before builder.unclosed) : Opens (before ++ tokens) after.unclosed := by
  induction hreads generalizing before with
  | nil builder => rwa [List.append_nil]
  | cons htakes hrest ih =>
      have hboth := ih (htakes.unclosed hopens)
      rwa [List.append_assoc] at hboth

theorem Opens.reads (hopens : Opens tokens elements)
    (hreadable : ∀ token ∈ tokens, token.Readable) :
    ∃ after, Builder.Reads {} tokens after ∧ after.unclosed = elements := by
  induction hopens with
  | none hbalanced =>
      obtain ⟨siblings, hreads⟩ := hbalanced.reads hreadable {}
      exact ⟨_, hreads, rfl⟩
  | element attributes offset houter hopen hinner ih =>
      obtain ⟨hbefore, hothers⟩ := List.forall_mem_append.mp hreadable
      obtain ⟨htag, hchildren⟩ := List.forall_mem_cons.mp hothers
      obtain ⟨outside, hreads, rfl⟩ := ih hbefore
      obtain ⟨read, hread⟩ := readAttributes_ok_iff.mpr htag
      obtain ⟨siblings, hfilled⟩ := hinner.reads hchildren
        ⟨[], ⟨_, read, offset, outside.siblings⟩ :: outside.openElements⟩
      exact ⟨_, Builder.reads_append_iff.mpr
        ⟨outside, hreads, .cons (.opened offset hread hopen) hfilled⟩, rfl⟩

theorem Builder.Reads.opens_iff (hreads : Builder.Reads {} tokens after) :
    Opens tokens elements ↔ elements = after.unclosed := by
  constructor
  · intro hopens
    obtain ⟨other, hother, rfl⟩ := hopens.reads hreads.readable
    rw [hreads.unique hother]
  · rintro rfl
    have hnone : Opens [] (Builder.unclosed {}) := .none .nil
    exact hreads.unclosed hnone

end Opens

section Viable

variable {tokens before front : List Token} {token : Token} {builder : Builder} {found : FaultAt}

/-- The end tags of the open elements close them. -/
theorem exists_closing (siblings : List Node) (frames : List Frame) :
    ∃ (more : List Token) (nodes : List Node),
      Builder.Reads ⟨siblings, frames⟩ more ⟨nodes, []⟩ := by
  induction frames generalizing siblings with
  | nil => exact ⟨[], siblings, .nil _⟩
  | cons frame outer ih =>
      have hclosed : Builder.Takes ⟨siblings, frame :: outer⟩ (.endTag frame.tag 0)
          ⟨frame.close siblings, outer⟩ :=
        .closed 0 rfl (beq_self_eq_true _)
      obtain ⟨more, nodes, hmore⟩ := ih (frame.close siblings)
      exact ⟨.endTag frame.tag 0 :: more, nodes, .cons hclosed hmore⟩

theorem viable_iff : Viable tokens ↔ ∃ builder, Builder.Reads {} tokens builder := by
  constructor
  · rintro ⟨more, nodes, hnodes⟩
    obtain ⟨builder, hreads, -⟩ :=
      Builder.reads_append_iff.mp (nodesOfTokens_eq_ok_iff.mp hnodes)
    exact ⟨builder, hreads⟩
  · rintro ⟨⟨siblings, frames⟩, hreads⟩
    obtain ⟨more, nodes, hmore⟩ := exists_closing siblings frames
    refine ⟨more, nodes.reverse, nodesOfTokens_eq_ok_iff.mpr ?_⟩
    rw [List.reverse_reverse]
    exact Builder.reads_append_iff.mpr ⟨_, hreads, hmore⟩

theorem Viable.shorter (hviable : Viable tokens) (hfront : front <+: tokens) :
    Viable front := by
  obtain ⟨more, nodes, hnodes⟩ := hviable
  obtain ⟨others, rfl⟩ := hfront
  exact ⟨others ++ more, nodes, by rw [← List.append_assoc]; exact hnodes⟩

theorem firstHopeless_of_add (hbegins : before ++ [token] <+: tokens)
    (hbefore : Builder.Reads {} before builder) (hfails : builder.add token = .error found) :
    FirstHopeless tokens before token := by
  have hhopeless : ¬ Viable (before ++ [token]) := by
    rw [viable_iff]
    rintro ⟨after, hafter⟩
    obtain ⟨reached, hreached, hlast⟩ := Builder.reads_append_iff.mp hafter
    cases hlast with
    | cons htakes hnothing =>
        rw [← hbefore.unique hreached] at htakes
        cases hfails.symm.trans htakes.add_eq
  refine ⟨hbegins, fun front hfront => ⟨fun hviable => ?_, fun hwithin => ?_⟩⟩
  · rcases List.prefix_or_prefix_of_prefix hbegins hfront with hlonger | hshorter
    · exact absurd (hviable.shorter hlonger) hhopeless
    · rcases List.prefix_concat_iff.mp hshorter with rfl | hwithin
      · exact absurd hviable hhopeless
      · exact hwithin
  · exact (viable_iff.mpr ⟨builder, hbefore⟩).shorter hwithin

end Viable

section Order

/-- The mustaches stand between the offsets, one behind the other. -/
structure InOrder (first last : Nat) (mustaches : List RawMustache) : Prop where
  sorted : mustaches.Pairwise fun raw later => raw.offset < later.offset
  within : ∀ raw ∈ mustaches, first ≤ raw.offset ∧ raw.offset < last

variable {first middle last : Nat} {mustaches others : List RawMustache}

theorem inOrder_nil (first last : Nat) : InOrder first last [] :=
  ⟨.nil, List.forall_mem_nil _⟩

theorem InOrder.widen {first' last' : Nat} (hmustaches : InOrder first last mustaches)
    (hfirst : first' ≤ first) (hlast : last ≤ last') : InOrder first' last' mustaches := by
  refine ⟨hmustaches.sorted, fun raw hraw => ?_⟩
  obtain ⟨hfrom, hto⟩ := hmustaches.within raw hraw
  exact ⟨hfirst.trans hfrom, hto.trans_le hlast⟩

theorem InOrder.append (hmustaches : InOrder first middle mustaches)
    (hothers : InOrder middle last others) (hmiddle : first ≤ middle ∧ middle ≤ last) :
    InOrder first last (mustaches ++ others) := by
  constructor
  · refine List.pairwise_append.mpr ⟨hmustaches.sorted, hothers.sorted, ?_⟩
    intro raw hraw later hlater
    exact (hmustaches.within raw hraw).2.trans_le (hothers.within later hlater).1
  · intro raw hraw
    rcases List.mem_append.mp hraw with hearly | hlate
    · exact (hmustaches.widen le_rfl hmiddle.2).within raw hearly
    · exact (hothers.widen hmiddle.1 le_rfl).within raw hlate

variable {rest : List Char} {offset : Nat} {segments : List Segment}

theorem MustacheSpan.inOrder {raw : RawMustache} {span : List Char}
    (hspan : MustacheSpan offset (some raw) span) :
    InOrder offset (offset + Text.byteLength span) [raw] := by
  cases hspan with
  | @mustache escaped body closing hbody hclosing =>
      refine ⟨List.pairwise_singleton _ _, List.forall_mem_singleton.mpr ⟨le_rfl, ?_⟩⟩
      refine Nat.lt_add_of_pos_right (Text.byteLength_pos ?_)
      cases escaped <;> exact List.cons_ne_nil _ _

theorem ValueSegments.inOrder {parts : List RawPart}
    (hvalue : ValueSegments rest offset parts segments) :
    InOrder offset (offset + Text.byteLength (spelling segments))
      (parts.filterMap RawPart.mustache?) := by
  induction hvalue with
  | nil => exact inOrder_nil _ _
  | literal hnonempty hclear hothers ih =>
      refine ih.widen (Nat.le_add_right _ _) ?_
      rw [spelling_cons, Text.byteLength_append, Nat.add_assoc]
  | mustache hspan hothers ih =>
      rw [spelling_cons, Text.byteLength_append, ← Nat.add_assoc]
      exact hspan.inOrder.append ih ⟨Nat.le_add_right _ _, Nat.le_add_right _ _⟩
  | comment hspan hothers ih =>
      refine ih.widen (Nat.le_add_right _ _) ?_
      rw [spelling_cons, Text.byteLength_append, Nat.add_assoc]

theorem AttributeSegments.inOrder {attr : RawAttribute}
    (hattr : AttributeSegments rest offset attr segments) :
    InOrder offset (offset + Text.byteLength (spelling segments))
      (attr.value.filterMap RawPart.mustache?) := by
  cases hattr with
  | bare hname hblanks hends => exact inOrder_nil _ _
  | assigned hname hbefore hafter hquotes hvalue =>
      refine hvalue.inOrder.widen (Nat.le_add_right _ _) ?_
      simp only [spelling_cons, spelling_append, Text.byteLength_append]
      omega

theorem TagSegments.inOrder {tagEnd : TagEnd} (htag : TagSegments rest offset tagEnd segments) :
    InOrder offset (offset + Text.byteLength (spelling segments))
      (tagEnd.attributes.flatMap fun attr => attr.value.filterMap RawPart.mustache?) := by
  induction htag with
  | closed => exact inOrder_nil _ _
  | selfClosed => exact inOrder_nil _ _
  | cons hblanks hfirst hothers ih =>
      have hattr := hfirst.inOrder.widen (Nat.le_add_right _ _) le_rfl
      simp only [spelling_cons, spelling_append, Text.byteLength_append, ← Nat.add_assoc] at ih ⊢
      exact hattr.append ih ⟨by omega, Nat.le_add_right _ _⟩

theorem SourceSegments.sorted {tokens : List Token}
    (hsource : SourceSegments offset tokens segments) :
    ∀ token ∈ tokens, token.mustaches.Pairwise fun raw later => raw.offset < later.offset := by
  induction hsource with
  | nil => exact List.forall_mem_nil _
  | @cons offset token? tokens first others hfirst hothers ih =>
      cases hfirst with
      | dropped hspan => exact ih
      | text hnonempty hplain => exact List.forall_mem_cons.mpr ⟨.nil, ih⟩
      | mustache hspan => exact List.forall_mem_cons.mpr ⟨List.pairwise_singleton _ _, ih⟩
      | startTag hname hend => exact List.forall_mem_cons.mpr ⟨hend.inOrder.sorted, ih⟩
      | endTag hname hchars hblanks => exact List.forall_mem_cons.mpr ⟨.nil, ih⟩

end Order

section Refused

variable {token : Token} {builder : Builder} {found : FaultAt}

theorem exists_split_of_readAttribute_error {attr : RawAttribute}
    (hread : readAttribute attr = .error found) : ∃ earlier raw later,
      attr.value.filterMap RawPart.mustache? = earlier ++ raw :: later ∧
        (∀ other ∈ earlier, other.Readable) ∧ readMustache raw = .error found := by
  rcases bind_eq_error_iff.mp hread with hparts | ⟨parts, -, hresult⟩
  · obtain ⟨earlier, part, later, hsplit, hearlier, hpart⟩ := exists_split_of_mapM_error hparts
    cases part with
    | text content => cases hpart
    | mustache raw =>
        rcases bind_eq_error_iff.mp hpart with hraw | ⟨mustache, -, hresult⟩
        · refine ⟨earlier.filterMap RawPart.mustache?, raw, later.filterMap RawPart.mustache?,
            ?_, ?_, hraw⟩
          · rw [hsplit, List.filterMap_append]
            rfl
          · intro other hother
            obtain ⟨held, hheld, hsame⟩ := List.mem_filterMap.mp hother
            exact readPart_ok_iff.mp (hearlier held hheld) other hsame
        · cases hresult
  · cases hresult

/-- The mustaches in the values of attributes. -/
def valueMustaches (attributes : List RawAttribute) : List RawMustache :=
  attributes.flatMap fun attr => attr.value.filterMap RawPart.mustache?

theorem exists_split_of_readAttributes_error {attributes : List RawAttribute}
    (hread : attributes.mapM readAttribute = .error found) : ∃ earlier raw later,
      valueMustaches attributes = earlier ++ raw :: later ∧
        (∀ other ∈ earlier, other.Readable) ∧ readMustache raw = .error found := by
  obtain ⟨front, attr, back, rfl, hfront, hattr⟩ := exists_split_of_mapM_error hread
  obtain ⟨earlier, raw, later, hsplit, hearlier, hraw⟩ :=
    exists_split_of_readAttribute_error hattr
  refine ⟨valueMustaches front ++ earlier, raw, later ++ valueMustaches back, ?_, ?_, hraw⟩
  · rw [valueMustaches, List.flatMap_append, List.flatMap_cons, hsplit, List.append_assoc,
      List.append_assoc, List.cons_append]
    rfl
  · intro other hother
    rcases List.mem_append.mp hother with hbefore | hwithin
    · obtain ⟨held, hheld, hmem⟩ := List.mem_flatMap.mp hbefore
      exact readAttribute_ok_iff.mp (hfront held hheld) other hmem
    · exact hearlier other hwithin

/-- The first mustache in the list that cannot be read is the first one in the source. -/
theorem refused_of_split {opens : List (String × Nat)} {raw : RawMustache}
    {earlier later : List RawMustache}
    (hsorted : token.mustaches.Pairwise fun raw later => raw.offset < later.offset)
    (hsplit : token.mustaches = earlier ++ raw :: later)
    (hearlier : ∀ other ∈ earlier, other.Readable) (hread : readMustache raw = .error found) :
    Refused opens token found := by
  obtain ⟨fault, hfault, rfl⟩ := readMustache_eq_error hread
  refine .unreadable (hsplit ▸ List.mem_append_right earlier List.mem_cons_self) hfault ?_
  intro other hother hbefore
  rw [hsplit] at hsorted hother
  obtain ⟨hlater, -⟩ := List.pairwise_cons.mp (List.pairwise_append.mp hsorted).2.1
  rcases List.mem_append.mp hother with hmem | hmem
  · exact hearlier other hmem
  · rcases List.mem_cons.mp hmem with rfl | hmem
    · exact absurd hbefore (Nat.lt_irrefl _)
    · exact absurd hbefore (Nat.lt_asymm (hlater other hmem))

theorem refused_of_add
    (hsorted : token.mustaches.Pairwise fun raw later => raw.offset < later.offset)
    (hadd : builder.add token = .error found) : Refused builder.unclosed token found := by
  cases token with
  | text content offset => cases hadd
  | mustache raw =>
      rcases bind_eq_error_iff.mp hadd with hread | ⟨mustache, -, hpush⟩
      · have hsplit : (Token.mustache raw).mustaches = [] ++ [raw] := rfl
        exact refused_of_split hsorted hsplit (List.forall_mem_nil _) hread
      · cases hpush
  | startTag name attributes selfClosing offset =>
      rcases bind_eq_error_iff.mp hadd with hread | ⟨read, -, hplace⟩
      · obtain ⟨earlier, raw, later, hsplit, hearlier, hraw⟩ :=
          exists_split_of_readAttributes_error hread
        exact refused_of_split hsorted hsplit hearlier hraw
      · split at hplace <;> cases hplace
  | endTag name offset =>
      rw [Builder.add] at hadd
      split at hadd
      · next hframes =>
          cases hadd
          exact .unexpected rfl (by rw [Builder.unclosed, hframes, List.map_nil])
      · next frame outer hframes =>
          split at hadd
          · cases hadd
          · next hother =>
              cases hadd
              have hopens : builder.unclosed = (frame.tag, frame.offset) ::
                  outer.map fun frame => (frame.tag, frame.offset) := by
                rw [Builder.unclosed, hframes, List.map_cons]
              exact .mismatched rfl hopens (Bool.eq_false_iff.mpr hother)

end Refused

/-- Where a source has tokens but no tree, the first token after which no tokens make a tree is
refused: a mustache in it is no expression, or it is an end tag of no element that is open, or not
of the innermost one. If there is no such token, the innermost element that is open at the end is
told. -/
theorem parse_reports_first_hopeless {source : String} {found : List Token} {error : ParseError}
    (hfound : tokenize source = .ok found) (herror : parse source = .error error) :
    (∃ before token opens fault, FirstHopeless found before token ∧
      (∀ others, Opens before others ↔ others = opens) ∧ Refused opens token fault ∧
      error = ParseError.ofFault source.toList fault) ∨
    ((∀ front, front <+: found → Viable front) ∧ ∃ tag offset outer,
      (∀ others, Opens found others ↔ others = (tag, offset) :: outer) ∧
      error = ParseError.ofFault source.toList ⟨offset, .unclosedElement tag⟩) := by
  have hscan : tokens source.toList = .ok found := mapError_eq_ok_iff.mp hfound
  obtain ⟨fault, hfault, rfl⟩ := mapError_eq_error_iff.mp herror
  rw [hscan] at hfault
  obtain ⟨segments, -, hsource⟩ := exists_sourceSegments hscan
  rcases exists_of_nodesOfTokens_error hfault with
    ⟨before, token, builder, hbegins, hbefore, hfails⟩ |
      ⟨builder, frame, outer, hreads, hframes, rfl⟩
  · have htoken : token ∈ found := hbegins.subset (List.mem_append_right before List.mem_cons_self)
    exact .inl ⟨before, token, builder.unclosed, fault,
      firstHopeless_of_add hbegins hbefore hfails, fun others => hbefore.opens_iff,
      refused_of_add (hsource.sorted token htoken) hfails, rfl⟩
  · refine .inr ⟨fun front hfront => (viable_iff.mpr ⟨builder, hreads⟩).shorter hfront,
      frame.tag, frame.offset, outer.map fun frame => (frame.tag, frame.offset),
      fun others => ?_, rfl⟩
    rw [hreads.opens_iff, Builder.unclosed, hframes, List.map_cons]

/-- A list whose item is still open when the list is closed, with a mustache behind it that is
empty. -/
def itemSource : String :=
  "<ul>\n<li a=\x7b\x7bx\x7d\x7d>b</ul>\x7b\x7b\x7d\x7d"

/-- The tokens before the end tag of the list. -/
def itemTokens : List Token :=
  [.startTag "ul" [] false 0, .text "\n" 4,
    .startTag "li" [⟨"a", [.mustache ⟨"x", true, 11⟩], 9⟩] false 5, .text "b" 17]

theorem parse_reports_first_hopeless_item :
    let found := itemTokens ++ [.endTag "ul" 18, .mustache ⟨"", true, 23⟩]
    let error : ParseError := ⟨⟨2, 14⟩, .mismatchedClosingTag "ul" "li"⟩
    tokenize itemSource = .ok found ∧ parse itemSource = .error error ∧
      FirstHopeless found itemTokens (.endTag "ul" 18) ∧
      (∀ others, Opens itemTokens others ↔ others = [("li", 5), ("ul", 0)]) ∧
      Refused [("li", 5), ("ul", 0)] (.endTag "ul" 18) ⟨18, .mismatchedClosingTag "ul" "li"⟩ := by
  intro found error
  have hscan : tokens itemSource.toList = .ok found := by decide +kernel
  have hfound : tokenize itemSource = .ok found := mapError_eq_ok_iff.mpr hscan
  have hlocation : Text.Location.ofOffset itemSource.toList 18 = ⟨2, 14⟩ := by decide +kernel
  have hnodes : nodesOfTokens found = .error ⟨18, .mismatchedClosingTag "ul" "li"⟩ := rfl
  have herror : parse itemSource = .error error := by
    refine mapError_eq_error_iff.mpr ⟨_, bind_eq_error_iff.mpr (.inr ⟨found, hscan, hnodes⟩), ?_⟩
    rw [ParseError.ofFault, hlocation]
  refine ⟨hfound, herror, ?_⟩
  have houter : Opens [.startTag "ul" [] false 0, .text "\n" 4] [("ul", 0)] :=
    .element [] 0 (.none .nil) rfl (.text "\n" 4 .nil)
  have hlist : Opens itemTokens [("li", 5), ("ul", 0)] :=
    .element _ 5 houter rfl (.text "b" 17 .nil)
  rcases parse_reports_first_hopeless hfound herror with
    ⟨before, token, opens, fault, hfirst, hopens, hrefused, hfault⟩ | ⟨-, tag, offset, -, -, hfault⟩
  · -- Only the end tag can be told of in these words.
    cases hrefused with
    | unreadable => cases congrArg ParseError.fault hfault
    | unexpected => cases congrArg ParseError.fault hfault
    | @mismatched name expected place low outer htoken hinner hother =>
        obtain ⟨rfl, rfl⟩ : name = "ul" ∧ expected = "li" := by
          have hsame := congrArg ParseError.fault hfault
          cases hsame
          exact ⟨rfl, rfl⟩
        subst htoken
        obtain ⟨more, hmore⟩ := hfirst.begins
        have hplace : found[before.length]? = some (.endTag "ul" place) := by
          rw [← hmore, List.append_assoc, List.getElem?_append_right (Nat.le_refl _), Nat.sub_self]
          rfl
        have hlength : before.length = 4 := by
          generalize before.length = index at hplace
          rcases index with _ | _ | _ | _ | _ | _ | index <;> cases hplace
          rfl
        obtain ⟨rfl, hrest⟩ := List.append_inj
          (show before ++ .endTag "ul" place :: more = itemTokens ++ _ by simpa using hmore) hlength
        cases hrest
        obtain rfl := (hopens _).mp hlist
        exact ⟨hfirst, hopens, .mismatched rfl rfl hother⟩
  · cases congrArg ParseError.fault hfault

end MustacheHtml.Template
