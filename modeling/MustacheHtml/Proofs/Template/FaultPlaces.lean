import MustacheHtml.Proofs.Template.Enclosed
import MustacheHtml.Proofs.Template.ScanFaults
import MustacheHtml.Proofs.Text.Location

namespace MustacheHtml.Template

/-- What the tokens fail on when their tree is built. -/
inductive Misplaced (tokens : List Token) : FaultAt → Prop where
  | unreadable {raw : RawMustache} {fault : Expression.Fault}
      (hraw : raw ∈ tokens.flatMap Token.mustaches)
      (hread : Expression.read raw.source.toList = .error fault) :
      Misplaced tokens ⟨raw.offset, .expression fault⟩
  | unexpected {name : String} {offset : Nat} (htoken : .endTag name offset ∈ tokens) :
      Misplaced tokens ⟨offset, .unexpectedClosingTag name⟩
  | mismatched {name : String} {offset : Nat} (expected : String)
      (htoken : .endTag name offset ∈ tokens) :
      Misplaced tokens ⟨offset, .mismatchedClosingTag name expected⟩
  | unclosed {name : String} {attributes : List RawAttribute} {selfClosing : Bool} {offset : Nat}
      (htoken : .startTag name attributes selfClosing offset ∈ tokens) :
      Misplaced tokens ⟨offset, .unclosedElement name⟩

section Building

variable {tokens : List Token} {token : Token} {builder after : Builder} {found : FaultAt}

theorem readMustache_eq_error {raw : RawMustache} (hread : readMustache raw = .error found) :
    ∃ fault, Expression.read raw.source.toList = .error fault ∧
      found = ⟨raw.offset, .expression fault⟩ := by
  unfold readMustache at hread
  split at hread
  · cases hread
  · next fault hfault =>
      cases hread
      exact ⟨fault, hfault, rfl⟩

theorem exists_of_readAttributes_error {attributes : List RawAttribute}
    (hread : attributes.mapM readAttribute = .error found) :
    ∃ attr ∈ attributes, ∃ raw ∈ attr.value.filterMap RawPart.mustache?,
      readMustache raw = .error found := by
  obtain ⟨attr, hattr, hvalue⟩ := exists_of_mapM_error hread
  rcases bind_eq_error_iff.mp hvalue with hparts | ⟨parts, -, hresult⟩
  · obtain ⟨part, hpart, hfails⟩ := exists_of_mapM_error hparts
    cases part with
    | text content => cases hfails
    | mustache raw =>
        rcases bind_eq_error_iff.mp hfails with hraw | ⟨mustache, -, hresult⟩
        · exact ⟨attr, hattr, raw, List.mem_filterMap.mpr ⟨_, hpart, rfl⟩, hraw⟩
        · cases hresult
  · cases hresult

theorem misplaced_of_readMustache {raw : RawMustache} (htoken : token ∈ tokens)
    (hraw : raw ∈ token.mustaches) (hread : readMustache raw = .error found) :
    Misplaced tokens found := by
  obtain ⟨fault, hfault, rfl⟩ := readMustache_eq_error hread
  exact .unreadable (List.mem_flatMap.mpr ⟨token, htoken, hraw⟩) hfault

theorem misplaced_of_add (htoken : token ∈ tokens) (hadd : builder.add token = .error found) :
    Misplaced tokens found := by
  cases token with
  | text content offset => cases hadd
  | mustache raw =>
      rcases bind_eq_error_iff.mp hadd with hread | ⟨mustache, -, hpush⟩
      · exact misplaced_of_readMustache htoken List.mem_cons_self hread
      · cases hpush
  | startTag name attributes selfClosing offset =>
      rcases bind_eq_error_iff.mp hadd with hread | ⟨read, -, hplace⟩
      · obtain ⟨attr, hattr, raw, hraw, hfails⟩ := exists_of_readAttributes_error hread
        exact misplaced_of_readMustache htoken (List.mem_flatMap.mpr ⟨attr, hattr, hraw⟩) hfails
      · split at hplace <;> cases hplace
  | endTag name offset =>
      rw [Builder.add] at hadd
      split at hadd
      · cases hadd
        exact .unexpected htoken
      · next frame outer _ =>
          split at hadd
          · cases hadd
          · cases hadd
            exact .mismatched frame.tag htoken

/-- Every open element was opened by one of the tokens. -/
def Builder.OpenedBy (tokens : List Token) (builder : Builder) : Prop :=
  ∀ frame ∈ builder.openElements, ∃ attributes selfClosing,
    .startTag frame.tag attributes selfClosing frame.offset ∈ tokens

theorem Builder.Takes.openedBy (htakes : builder.Takes token after) (htoken : token ∈ tokens)
    (hopened : builder.OpenedBy tokens) : after.OpenedBy tokens := by
  cases htakes with
  | text content offset => exact hopened
  | mustache hmustache => exact hopened
  | alone offset hattributes halone => exact hopened
  | opened offset hattributes hopen =>
      exact List.forall_mem_cons.mpr ⟨⟨_, _, htoken⟩, hopened⟩
  | closed offset hframes hsame =>
      rw [Builder.OpenedBy, hframes] at hopened
      exact (List.forall_mem_cons.mp hopened).2

theorem misplaced_of_nodesOfTokens (hnodes : nodesOfTokens tokens = .error found) :
    Misplaced tokens found := by
  rcases exists_of_nodesOfTokens_error hnodes with
    ⟨before, token, builder, hbegins, -, hfails⟩ | ⟨builder, frame, outer, hreads, hframes, rfl⟩
  · exact misplaced_of_add
      (hbegins.subset (List.mem_append_right before List.mem_cons_self)) hfails
  · have hopened : builder.OpenedBy tokens :=
      hreads.preserves (fun htoken htakes => htakes.openedBy htoken) (List.forall_mem_nil _)
    obtain ⟨attributes, selfClosing, htoken⟩ := hopened frame (hframes ▸ List.mem_cons_self)
    exact .unclosed htoken

end Building

section Tags

variable {cursor next : Cursor}

/-- A tag among the tokens begins at the place. -/
def Token.BeginsAt (place : Cursor) : Token → Prop
  | .startTag name _ _ offset => offset = place.offset ∧ OpensTag name.toList place.rest
  | .endTag name offset =>
      offset = place.offset ∧ name ≠ "" ∧ ClosesTag name.toList place.rest
  | _ => True

theorem Cursor.Finds.beginsAt {token? : Option Token} (hfinds : cursor.Finds token? next) :
    ∀ token ∈ token?, token.BeginsAt cursor := by
  intro token htoken
  cases hfinds with
  | mustache hrest hscan =>
      obtain ⟨raw, -, rfl⟩ := Option.map_eq_some_iff.mp htoken
      trivial
  | comment hrest hskip => cases htoken
  | declaration hrest hplain hskip => cases htoken
  | @startTag letter after name tagEnd _ hrest hletter hname hend =>
      cases htoken
      exact ⟨rfl, letter, after, hletter, hrest, String.toList_ofList.trans hname⟩
  | @endTag after name named hrest hname hnonempty hnamed hclosed =>
      cases htoken
      refine ⟨rfl, ?_, after, hrest, String.toList_ofList.trans hname⟩
      rwa [Ne, String.ofList_eq_empty_iff]
  | text hplain =>
      cases htoken
      trivial

theorem exists_beginsAt {tokens : List Token} {token : Token}
    (hscan : tokensFrom cursor = .ok tokens) (htoken : token ∈ tokens) :
    ∃ span place, cursor.Passes span place ∧ token.BeginsAt place := by
  obtain ⟨span, place, next, hspan, hfinds⟩ := exists_finds hscan htoken
  exact ⟨span, place, hspan, hfinds.beginsAt token rfl⟩

end Tags

theorem Misplaced.blames {source : List Char} {cursor : Cursor} {tokens : List Token}
    {found : FaultAt} (hscan : tokensFrom cursor = .ok tokens)
    (hmisplaced : Misplaced tokens found) : cursor.Blames source found := by
  cases hmisplaced with
  | @unreadable raw fault hraw hread =>
      obtain ⟨front, place, span, next, hfront, hspan, hmustache⟩ := holds_tokensFrom hscan hraw
      cases hmustache with
      | @mustache escaped body closing hbody hclosing =>
          refine ⟨front, place, hfront, rfl, .mustache hbody hclosing ?_ ?_⟩
          · exact ⟨next.rest, hspan.rest_eq.symm⟩
          · rwa [String.toList_ofList] at hread
  | unexpected htoken =>
      obtain ⟨span, place, hspan, hoffset, htag⟩ := exists_beginsAt hscan htoken
      exact ⟨span, place, hspan, hoffset, htag⟩
  | mismatched expected htoken =>
      obtain ⟨span, place, hspan, hoffset, htag⟩ := exists_beginsAt hscan htoken
      exact ⟨span, place, hspan, hoffset, htag⟩
  | unclosed htoken =>
      obtain ⟨span, place, hspan, hoffset, htag⟩ := exists_beginsAt hscan htoken
      exact ⟨span, place, hspan, hoffset, htag⟩

theorem blames_of_error {source : List Char} {found : FaultAt}
    (herror : (tokens source >>= nodesOfTokens) = .error found) :
    (Cursor.start source).Blames source found := by
  rcases bind_eq_error_iff.mp herror with hscan | ⟨tokens, hscan, hnodes⟩
  · exact blames_tokensFrom (List.suffix_refl source) hscan
  · exact (misplaced_of_nodesOfTokens hnodes).blames hscan

/-- A source that is refused is refused with the line and the column of one place in it, at which
what the message is about begins. The place is between two characters and is found by its offset. -/
theorem parse_error_at_construct {source : String} {error : ParseError}
    (herror : parse source = .error error) : ∃ before rest,
      source.toList = before ++ rest ∧ error.fault.Concerns source.toList rest ∧
      Text.Location.Behind before error.location ∧
      (∀ other, other <+: source.toList → Text.Location.Behind other error.location →
        other = before) ∧
      (tokens source.toList >>= nodesOfTokens) =
        .error ⟨Text.byteLength before, error.fault⟩ ∧
      Text.takeBytes? source.toList (Text.byteLength before) = some before := by
  obtain ⟨found, hfound, rfl⟩ := mapError_eq_error_iff.mp herror
  obtain ⟨before, place, hbefore, hoffset, hconcerns⟩ := blames_of_error hfound
  have hsplit : source.toList = before ++ place.rest := hbefore.rest_eq
  have hplace : found.offset = Text.byteLength before := by
    rw [hoffset, hbefore.offset_eq, Cursor.start, Nat.zero_add]
  have hlocation : Text.Location.Behind before
      (Text.Location.ofOffset source.toList found.offset) := by
    rw [hsplit, hplace]
    exact Text.Location.behind_ofOffset before place.rest
  refine ⟨before, place.rest, hsplit, hconcerns, hlocation, ?_, ?_, ?_⟩
  · intro other hother hbehind
    exact hbehind.eq_of_prefix hlocation hother (hsplit ▸ List.prefix_append before place.rest)
  · rw [hfound, ← hplace]
    rfl
  · rw [hsplit, Text.takeBytes?_byteLength]

theorem parse_error_at_construct_link :
    let source := "\u00fc<p>\n  <a href=\"\x7b\x7bu '\"'\x7d\x7d>x</a>"
    let error : ParseError := ⟨⟨2, 6⟩, .unterminatedValue "href"⟩
    parse source = .error error ∧ ∃ before rest,
      source.toList = before ++ rest ∧ error.fault.Concerns source.toList rest ∧
      Text.Location.Behind before error.location ∧
      (∀ other, other <+: source.toList → Text.Location.Behind other error.location →
        other = before) ∧
      (tokens source.toList >>= nodesOfTokens) =
        .error ⟨Text.byteLength before, error.fault⟩ ∧
      Text.takeBytes? source.toList (Text.byteLength before) = some before := by
  intro source error
  have htokens : tokens source.toList = .error ⟨11, .unterminatedValue "href"⟩ := by
    decide +kernel
  have hlocation : Text.Location.ofOffset source.toList 11 = ⟨2, 6⟩ := by decide +kernel
  have hparse : parse source = .error error := by
    refine mapError_eq_error_iff.mpr ⟨_, bind_eq_error_iff.mpr (.inl htokens), ?_⟩
    rw [ParseError.ofFault, hlocation]
  exact ⟨hparse, parse_error_at_construct hparse⟩

end MustacheHtml.Template
