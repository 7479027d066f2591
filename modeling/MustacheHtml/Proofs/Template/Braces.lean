import MustacheHtml.Proofs.Template.Segments

namespace MustacheHtml.Template

open MustacheHtml.Expression (AllSpace)
open MustacheHtml.Escape (HasBraces)

/-- The attributes of a token, which only start tags have. -/
def Token.attributes : Token → List RawAttribute
  | .startTag _ attributes _ _ => attributes
  | _ => []

/-- Two braces begin behind the text, and both stand in the segment. -/
def BracesWithin (segments : List Segment) (before : List Char) (segment : Segment) : Prop :=
  ∃ front back inner tail, segments = front ++ segment :: back ∧
    before = spelling front ++ inner ∧ segment.span = inner ++ '{' :: '{' :: tail

/-- A mustache, or what makes no token: a comment or a declaration. -/
def Segment.IsMustache (segment : Segment) : Prop :=
  segment.role = .mustache ∨ segment.role = .dropped

/-- Wherever two braces begin in the segments, with the rest of the source behind them, they stand
in a mustache, in what makes no token or in the name of an attribute. -/
def Confined (rest : List Char) (segments : List Segment) : Prop :=
  ∀ before left, spelling segments = before ++ left → left ≠ [] → ['{', '{'] <+: left ++ rest →
    ∃ segment, BracesWithin segments before segment ∧
      (segment.IsMustache ∨ segment.role = .attributeName)

section Within

variable {segments first others : List Segment} {segment other : Segment} {before : List Char}

theorem BracesWithin.append_right (hwithin : BracesWithin first before segment) :
    BracesWithin (first ++ others) before segment := by
  obtain ⟨front, back, inner, tail, rfl, rfl, hspan⟩ := hwithin
  exact ⟨front, back ++ others, inner, tail, by simp, rfl, hspan⟩

theorem BracesWithin.append_left (hwithin : BracesWithin others before segment) :
    BracesWithin (first ++ others) (spelling first ++ before) segment := by
  obtain ⟨front, back, inner, tail, rfl, rfl, hspan⟩ := hwithin
  exact ⟨first ++ front, back, inner, tail, by simp, by simp, hspan⟩

theorem BracesWithin.mem (hwithin : BracesWithin segments before segment) :
    segment ∈ segments := by
  obtain ⟨front, back, inner, tail, rfl, -, -⟩ := hwithin
  exact List.mem_append_right front List.mem_cons_self

theorem BracesWithin.hasBraces (hwithin : BracesWithin segments before segment) :
    HasBraces segment.span := by
  obtain ⟨front, back, inner, tail, -, -, hspan⟩ := hwithin
  exact ⟨inner, tail, by simp [hspan]⟩

theorem head_of_within {between back back' : List Segment} {inner inner' tail : List Char}
    (hsplit : segment :: back = between ++ other :: back')
    (hinner : inner = spelling between ++ inner')
    (hspan : segment.span = inner ++ '{' :: '{' :: tail) : segment = other := by
  cases between with
  | nil => exact (List.cons.inj hsplit).1
  | cons first between =>
      obtain rfl := (List.cons.inj hsplit).1
      have hlonger := congrArg List.length hinner
      rw [spelling_cons, hspan] at hlonger
      simp only [List.length_append, List.length_cons] at hlonger
      omega

theorem BracesWithin.unique (hsegment : BracesWithin segments before segment)
    (hother : BracesWithin segments before other) : segment = other := by
  obtain ⟨front, back, inner, tail, rfl, rfl, hspan⟩ := hsegment
  obtain ⟨front', back', inner', tail', hsplit, hbefore, hspan'⟩ := hother
  rcases List.append_eq_append_iff.mp hsplit with ⟨between, rfl, hback⟩ | ⟨between, rfl, hback⟩
  · rw [spelling_append, List.append_assoc] at hbefore
    exact head_of_within hback (List.append_cancel_left hbefore) hspan
  · rw [spelling_append, List.append_assoc] at hbefore
    exact (head_of_within hback (List.append_cancel_left hbefore.symm) hspan').symm

end Within

section Confined

variable {rest span : List Char} {segments first others : List Segment} {role : Role}

theorem confined_nil : Confined rest [] := by
  intro before left hsplit hleft
  exact absurd (List.append_eq_nil_iff.mp hsplit.symm).2 hleft

theorem Confined.append (hfirst : Confined (spelling others ++ rest) first)
    (hothers : Confined rest others) : Confined rest (first ++ others) := by
  have hbehind : ∀ inner left, spelling others = inner ++ left → left ≠ [] →
      ['{', '{'] <+: left ++ rest → ∃ segment,
        BracesWithin (first ++ others) (spelling first ++ inner) segment ∧
          (segment.IsMustache ∨ segment.role = .attributeName) := by
    intro inner left hsplit hleft hopens
    obtain ⟨segment, hwithin, hrole⟩ := hothers inner left hsplit hleft hopens
    exact ⟨segment, hwithin.append_left, hrole⟩
  intro before left hsplit hleft hopens
  rw [spelling_append] at hsplit
  rcases List.append_eq_append_iff.mp hsplit with ⟨inner, rfl, hinner⟩ | ⟨inner, hinner, rfl⟩
  · exact hbehind inner left hinner hleft hopens
  · cases inner with
    | nil =>
        rw [List.append_nil] at hinner
        rw [← hinner, ← List.append_nil (spelling first)]
        exact hbehind [] _ rfl hleft hopens
    | cons c inner =>
        rw [List.append_assoc] at hopens
        obtain ⟨segment, hwithin, hrole⟩ :=
          hfirst before (c :: inner) hinner (List.cons_ne_nil c inner) hopens
        exact ⟨segment, hwithin.append_right, hrole⟩

theorem Confined.cons {segment : Segment} (hfirst : Confined (spelling others ++ rest) [segment])
    (hothers : Confined rest others) : Confined rest (segment :: others) :=
  hfirst.append hothers

theorem confined_of_clear (hclear : ClearBefore rest span) : Confined rest [⟨role, span⟩] := by
  intro before left hsplit hleft hopens
  rw [spelling_cons, spelling_nil, List.append_nil] at hsplit
  exact absurd hopens (hclear before left hsplit hleft)

theorem clearBefore_of_not_mem (hspan : '{' ∉ span) : ClearBefore rest span := by
  rintro skipped left rfl hleft hopens
  obtain ⟨c, others, rfl⟩ := List.exists_cons_of_ne_nil hleft
  obtain ⟨rfl, -⟩ := List.cons_prefix_cons.mp hopens
  simp at hspan

theorem confined_of_cut {segment : Segment}
    (hrole : segment.IsMustache ∨ segment.role = .attributeName)
    (hcut : segment.span.getLast? = some '{' → rest.head? ≠ some '{') :
    Confined rest [segment] := by
  intro before left hsplit hleft hopens
  rw [spelling_cons, spelling_nil, List.append_nil] at hsplit
  obtain ⟨c, others, rfl⟩ := List.exists_cons_of_ne_nil hleft
  obtain ⟨rfl, hsecond⟩ := List.cons_prefix_cons.mp hopens
  cases others with
  | nil =>
      refine absurd (List.singleton_prefix_iff_head?_eq_some.mp hsecond) (hcut ?_)
      rw [hsplit, List.getLast?_append, List.getLast?_singleton, Option.some_or]
  | cons c others =>
      obtain ⟨rfl, -⟩ := List.cons_prefix_cons.mp hsecond
      exact ⟨_, ⟨[], [], before, others, rfl, rfl, hsplit⟩, hrole⟩

end Confined

section Grammar

variable {rest : List Char} {offset : Nat} {segments : List Segment}

theorem MustacheSpan.getLast? {raw? : Option RawMustache} {span : List Char}
    (hspan : MustacheSpan offset raw? span) : span.getLast? = some '}' := by
  cases hspan with
  | dashedComment hopens hends => exact getLast?_of_suffix hends.1 rfl
  | comment hopens hplain hends => exact getLast?_of_suffix hends.1 rfl
  | mustache hbody hclosing =>
      rename_i escaped body closing
      refine getLast?_of_suffix (List.suffix_append _ closing) ?_
      cases hclosing <;> rfl

theorem Dropped.getLast?_ne {span : List Char} (hspan : Dropped span) :
    span.getLast? ≠ some '{' := by
  cases hspan with
  | mustacheComment hspan => simp [hspan.getLast?]
  | comment hopens hends => simp [getLast?_of_suffix hends.1 rfl]
  | declaration hopens hplain hends => simp [getLast?_of_suffix hends.1 rfl]

theorem clearBefore_of_allSpace {blanks marks : List Char} (hblanks : AllSpace blanks)
    (hmarks : '{' ∉ marks) : ClearBefore rest (blanks ++ marks) := by
  apply clearBefore_of_not_mem
  intro hmem
  rcases List.mem_append.mp hmem with hblank | hmark
  · exact absurd (hblanks '{' hblank) (by decide)
  · exact hmarks hmark

theorem IsDelimiter.not_mem {quotes : List Char} (hquotes : IsDelimiter quotes) :
    '{' ∉ quotes := by
  rcases hquotes with rfl | ⟨quote, hquote, rfl⟩
  · exact List.not_mem_nil
  · intro hmem
    obtain rfl := List.mem_singleton.mp hmem
    exact absurd hquote (by decide)

theorem ValueSegments.confined {parts : List RawPart}
    (hvalue : ValueSegments rest offset parts segments) : Confined rest segments := by
  induction hvalue with
  | nil => exact confined_nil
  | literal hnonempty hclear hothers ih => exact (confined_of_clear hclear).cons ih
  | mustache hspan hothers ih =>
      exact (confined_of_cut (.inl (.inl rfl)) (by simp [hspan.getLast?])).cons ih
  | comment hspan hothers ih =>
      exact (confined_of_cut (.inl (.inr rfl)) (by simp [hspan.getLast?])).cons ih

theorem AttributeSegments.confined {attr : RawAttribute}
    (hattr : AttributeSegments rest offset attr segments) : Confined rest segments := by
  cases hattr with
  | bare hname hblanks hends =>
      refine (confined_of_cut (.inr rfl) ?_).cons (confined_of_clear ?_)
      · intro _ hhead
        exact absurd (hends '{' (by simpa using hhead)) (by decide)
      · simpa using clearBefore_of_allSpace hblanks List.not_mem_nil
  | @assigned name before after quotes parts value hname hbefore hafter hquotes hvalue =>
      have hmarks : '{' ∉ '=' :: after ++ quotes := by
        rw [List.cons_append, List.mem_cons, List.mem_append]
        rintro (hequals | hblank | hquote)
        · exact absurd hequals (by decide)
        · exact absurd (hafter '{' hblank) (by decide)
        · exact hquotes.not_mem hquote
      have hvalue' : Confined (spelling [⟨.mark, quotes⟩] ++ rest) value := by
        simpa using hvalue.confined
      refine (confined_of_cut (.inr rfl) ?_).cons
        ((confined_of_clear (clearBefore_of_allSpace hbefore hmarks)).cons
          (hvalue'.append (confined_of_clear (clearBefore_of_not_mem hquotes.not_mem))))
      intro _ hhead
      cases before with
      | nil => cases hhead
      | cons blank before =>
          obtain rfl : blank = '{' := Option.some.inj hhead
          exact absurd (hbefore '{' List.mem_cons_self) (by decide)

theorem TagSegments.confined {tagEnd : TagEnd} (htag : TagSegments rest offset tagEnd segments) :
    Confined rest segments := by
  induction htag with
  | closed offset hblanks =>
      exact confined_of_clear (clearBefore_of_allSpace hblanks (by decide))
  | selfClosed offset hblanks =>
      exact confined_of_clear (clearBefore_of_allSpace hblanks (by decide))
  | cons hblanks hfirst hothers ih =>
      refine Confined.cons (confined_of_clear ?_) (hfirst.confined.append ih)
      simpa using clearBefore_of_allSpace hblanks List.not_mem_nil

theorem not_mem_of_isNameChar {name : List Char} (hchars : ∀ c ∈ name, isNameChar c = true) :
    '{' ∉ name := by
  intro hmem
  exact absurd (hchars '{' hmem) (by decide)

theorem TokenSegments.confined {token? : Option Token}
    (htoken : TokenSegments rest offset token? segments) : Confined rest segments := by
  cases htoken with
  | text hnonempty hplain =>
      refine confined_of_clear ?_
      intro skipped left hsplit hleft hopens
      exact hplain skipped left hsplit hleft (.inl hopens)
  | mustache hspan => exact confined_of_cut (.inl (.inl rfl)) (by simp [hspan.getLast?])
  | dropped hspan =>
      exact confined_of_cut (.inl (.inr rfl)) (fun hlast => absurd hlast hspan.getLast?_ne)
  | startTag hname hend =>
      exact (confined_of_clear (clearBefore_of_not_mem (by decide))).cons
        ((confined_of_clear (clearBefore_of_not_mem (not_mem_of_isNameChar hname.all))).cons
          hend.confined)
  | endTag hname hchars hblanks =>
      exact (confined_of_clear (clearBefore_of_not_mem (by decide))).cons
        ((confined_of_clear (clearBefore_of_not_mem (not_mem_of_isNameChar hchars))).cons
          (confined_of_clear (clearBefore_of_allSpace hblanks (by decide))))

theorem SourceSegments.confined {tokens : List Token}
    (hsource : SourceSegments offset tokens segments) : Confined [] segments := by
  induction hsource with
  | nil => exact confined_nil
  | cons hfirst hothers ih =>
      refine Confined.append ?_ ih
      rw [List.append_nil]
      exact hfirst.confined

end Grammar

section Names

variable {rest : List Char} {offset : Nat} {segments first others : List Segment}

/-- The names of attributes in the segments, in their order. -/
def attributeNames (segments : List Segment) : List (List Char) :=
  (segments.filter (·.role == .attributeName)).map Segment.span

theorem attributeNames_append :
    attributeNames (first ++ others) = attributeNames first ++ attributeNames others := by
  rw [attributeNames, List.filter_append, List.map_append]
  rfl

theorem attributeNames_name (name : List Char) :
    attributeNames (⟨.attributeName, name⟩ :: others) = name :: attributeNames others := by
  rfl

theorem attributeNames_cons {role : Role} {span : List Char} (hrole : role ≠ .attributeName) :
    attributeNames (⟨role, span⟩ :: others) = attributeNames others := by
  rw [attributeNames, List.filter_cons_of_neg (by simpa using hrole)]
  rfl

theorem ValueSegments.attributeNames_eq {parts : List RawPart}
    (hvalue : ValueSegments rest offset parts segments) : attributeNames segments = [] := by
  induction hvalue with
  | nil => rfl
  | literal hnonempty hclear hothers ih => exact ih
  | mustache hspan hothers ih => exact ih
  | comment hspan hothers ih => exact ih

theorem AttributeSegments.attributeNames_eq {attr : RawAttribute}
    (hattr : AttributeSegments rest offset attr segments) :
    attributeNames segments = [attr.name.toList] := by
  cases hattr with
  | bare hname hblanks hends =>
      rw [String.toList_ofList]
      rfl
  | assigned hname hbefore hafter hquotes hvalue =>
      rw [String.toList_ofList, attributeNames_name, attributeNames_cons (by decide),
        attributeNames_append, hvalue.attributeNames_eq]
      rfl

theorem TagSegments.attributeNames_eq {tagEnd : TagEnd}
    (htag : TagSegments rest offset tagEnd segments) :
    attributeNames segments = tagEnd.attributes.map (·.name.toList) := by
  induction htag with
  | closed => rfl
  | selfClosed => rfl
  | cons hblanks hfirst hothers ih =>
      rw [attributeNames_cons (by decide), attributeNames_append, hfirst.attributeNames_eq, ih]
      rfl

theorem TokenSegments.attributeNames_eq {token? : Option Token}
    (htoken : TokenSegments rest offset token? segments) :
    attributeNames segments =
      (token?.toList.flatMap Token.attributes).map (·.name.toList) := by
  cases htoken with
  | text => rfl
  | mustache => rfl
  | dropped => rfl
  | endTag => rfl
  | startTag hname hend =>
      rw [attributeNames_cons (by decide), attributeNames_cons (by decide), hend.attributeNames_eq]
      simp [Token.attributes]

theorem SourceSegments.attributeNames_eq {tokens : List Token}
    (hsource : SourceSegments offset tokens segments) :
    attributeNames segments = (tokens.flatMap Token.attributes).map (·.name.toList) := by
  induction hsource with
  | nil => rfl
  | cons hfirst hothers ih =>
      rw [attributeNames_append, hfirst.attributeNames_eq, ih, List.flatMap_append,
        List.map_append]

theorem mem_attributeNames {segment : Segment} (hmem : segment ∈ segments)
    (hrole : segment.role = .attributeName) : segment.span ∈ attributeNames segments :=
  List.mem_map_of_mem (List.mem_filter.mpr ⟨hmem, by simpa using hrole⟩)

end Names

theorem isAttributeName_of_token {token : Token} {attr : RawAttribute} (htoken : token.WellNamed)
    (hattr : attr ∈ token.attributes) : IsAttributeName attr.name.toList := by
  cases token with
  | startTag name attributes selfClosing offset => exact htoken.2 attr hattr
  | _ => cases hattr

section Enclosed

variable {segments : List Segment} {segment : Segment} {before : List Char}

theorem exists_bracesWithin (hmem : segment ∈ segments) (hbraces : HasBraces segment.span) :
    ∃ before after, spelling segments = before ++ '{' :: '{' :: after ∧
      BracesWithin segments before segment := by
  obtain ⟨front, back, rfl⟩ := List.append_of_mem hmem
  obtain ⟨inner, tail, hspan⟩ := hbraces
  have hwritten : segment.span = inner ++ '{' :: '{' :: tail := by simp [← hspan]
  exact ⟨spelling front ++ inner, tail ++ spelling back, by simp [hwritten],
    front, back, inner, tail, rfl, rfl, hwritten⟩

/-- Every two opening braces of the source stand in a mustache, a comment or a declaration. -/
def BracesEnclosed (source : List Char) (segments : List Segment) : Prop :=
  ∀ before after, source = before ++ '{' :: '{' :: after →
    ∃ segment, BracesWithin segments before segment ∧ segment.IsMustache

theorem not_bracesEnclosed_of_name {name : List Char} (hname : name ∈ attributeNames segments)
    (hbraces : HasBraces name) : ¬ BracesEnclosed (spelling segments) segments := by
  obtain ⟨segment, hsegment, rfl⟩ := List.mem_map.mp hname
  obtain ⟨hmem, hrole⟩ := List.mem_filter.mp hsegment
  obtain ⟨before, after, hsplit, hwithin⟩ := exists_bracesWithin hmem hbraces
  intro henclosed
  obtain ⟨other, hother, hmustache⟩ := henclosed before after hsplit
  rw [← hwithin.unique hother, Segment.IsMustache, beq_iff_eq.mp hrole] at hmustache
  rcases hmustache with hmustache | hmustache <;> cases hmustache

end Enclosed

/-- A mustache, a comment or a declaration, or the name of an attribute of the tokens. -/
def Segment.MayHoldBraces (tokens : List Token) (segment : Segment) : Prop :=
  segment.IsMustache ∨ segment.role = .attributeName ∧ ∃ attr ∈ tokens.flatMap Token.attributes,
    segment.span = attr.name.toList ∧ IsAttributeName segment.span

/-- Every two opening braces of a source stand in a mustache, a comment, a declaration or the name
of an attribute, which does not begin with them; no text, no literal part of a value and no name of
a tag holds any. Such names are all that keeps braces outside of mustaches. -/
theorem braces_enclosed_iff_names {source : String} {found : List Token}
    (hfound : tokenize source = .ok found) :
    ∃ segments, spelling segments = source.toList ∧ SourceSegments 0 found segments ∧
      (∀ before after, source.toList = before ++ '{' :: '{' :: after →
        ∃ segment, BracesWithin segments before segment ∧ segment.MayHoldBraces found) ∧
      (∀ segment ∈ segments, HasBraces segment.span → segment.MayHoldBraces found) ∧
      (BracesEnclosed source.toList segments ↔
        ∀ attr ∈ found.flatMap Token.attributes, ¬ HasBraces attr.name.toList) := by
  have hscan : tokensFrom (Cursor.start source.toList) = .ok found :=
    mapError_eq_ok_iff.mp hfound
  obtain ⟨segments, (hspelling : spelling segments = source.toList), hsource⟩ :=
    exists_sourceSegments hscan
  have hnames : ∀ segment ∈ segments, segment.IsMustache ∨ segment.role = .attributeName →
      segment.MayHoldBraces found := by
    rintro segment hmem (hmustache | hrole)
    · exact .inl hmustache
    · have hname := mem_attributeNames hmem hrole
      rw [hsource.attributeNames_eq] at hname
      obtain ⟨attr, hattr, hspan⟩ := List.mem_map.mp hname
      refine .inr ⟨hrole, attr, hattr, hspan.symm, hspan ▸ ?_⟩
      obtain ⟨token, htoken, hattribute⟩ := List.mem_flatMap.mp hattr
      exact isAttributeName_of_token (wellNamed_tokensFrom hscan token htoken) hattribute
  have hplaces : ∀ before after, source.toList = before ++ '{' :: '{' :: after →
      ∃ segment, BracesWithin segments before segment ∧ segment.MayHoldBraces found := by
    intro before after hsplit
    obtain ⟨segment, hwithin, hrole⟩ := hsource.confined before ('{' :: '{' :: after)
      (hspelling.trans hsplit) nofun (by simp)
    exact ⟨segment, hwithin, hnames segment hwithin.mem hrole⟩
  refine ⟨segments, hspelling, hsource, hplaces, ?_, ?_, ?_⟩
  · intro segment hmem hbraces
    obtain ⟨before, after, hsplit, hwithin⟩ := exists_bracesWithin hmem hbraces
    obtain ⟨other, hother, hholds⟩ := hplaces before after (hspelling.symm.trans hsplit)
    exact hwithin.unique hother ▸ hholds
  · intro henclosed attr hattr hbraces
    refine not_bracesEnclosed_of_name ?_ hbraces (hspelling ▸ henclosed)
    rw [hsource.attributeNames_eq]
    exact List.mem_map_of_mem hattr
  · intro hplain before after hsplit
    obtain ⟨segment, hwithin, hmustache | ⟨-, attr, hattr, hspan, -⟩⟩ :=
      hplaces before after hsplit
    · exact ⟨segment, hwithin, hmustache⟩
    · exact absurd (hspan ▸ hwithin.hasBraces) (hplain attr hattr)

theorem braces_enclosed_iff_names_greeting :
    let source := "\x7b<p title='\x7b\x7bt\x7d\x7d'>\x7b\x7b! \x7b\x7b \x7d\x7d hi</p>"
    let found : List Token := [.text "\x7b" 0,
      .startTag "p" [⟨"title", [.mustache ⟨"t", true, 11⟩], 4⟩] false 1, .text " hi" 27,
      .endTag "p" 30]
    tokenize source = .ok found ∧
      ∃ segments, spelling segments = source.toList ∧ SourceSegments 0 found segments ∧
        (∀ before after, source.toList = before ++ '{' :: '{' :: after →
          ∃ segment, BracesWithin segments before segment ∧ segment.MayHoldBraces found) ∧
        (∀ segment ∈ segments, HasBraces segment.span → segment.MayHoldBraces found) ∧
        (BracesEnclosed source.toList segments ↔
          ∀ attr ∈ found.flatMap Token.attributes, ¬ HasBraces attr.name.toList) := by
  intro source found
  have hfound : tokenize source = .ok found := by decide +kernel
  exact ⟨hfound, braces_enclosed_iff_names hfound⟩

/-- The braces of a mustache within a start tag are taken into the name of an attribute. -/
theorem braces_in_attribute_name :
    let source := "<p a{{x}}></p>"
    let found : List Token :=
      [.startTag "p" [⟨"a{{x}}", [], 3⟩] false 0, .endTag "p" 10]
    tokenize source = .ok found ∧
      ∀ segments, spelling segments = source.toList → SourceSegments 0 found segments →
        ¬ BracesEnclosed source.toList segments := by
  intro source found
  refine ⟨by decide +kernel, ?_⟩
  intro segments hspelling hsource
  have hnames : attributeNames segments = ["a{{x}}".toList] := hsource.attributeNames_eq
  rw [← hspelling]
  exact not_bracesEnclosed_of_name (hnames ▸ List.mem_singleton_self _) (by decide)

end MustacheHtml.Template
