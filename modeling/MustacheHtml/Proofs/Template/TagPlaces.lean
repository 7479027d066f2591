import MustacheHtml.Proofs.Template.Spans

namespace MustacheHtml.Template

/-- A start tag with the name begins here. -/
def OpensTag (name text : List Char) : Prop :=
  ∃ letter after, letter.isAlpha = true ∧ text = '<' :: letter :: after ∧
    name = (letter :: after).takeWhile isNameChar

/-- An end tag with the name begins here. -/
def ClosesTag (name text : List Char) : Prop :=
  ∃ after, text = '<' :: '/' :: after ∧ name = after.takeWhile isNameChar

/-- From the start of a value to the text behind it: up to a character that ends the value, where
what stands in a mustache ends nothing. -/
inductive ValueTo (stops : Char → Bool) : List Char → List Char → Prop where
  | done {rest : List Char} (hends : ∀ c ∈ rest.head?, stops c = true) : ValueTo stops rest rest
  | char {c : Char} {text rest : List Char} (hstop : stops c = false)
      (hplain : ¬ ['{', '{'] <+: c :: text) (hrest : ValueTo stops text rest) :
      ValueTo stops (c :: text) rest
  | mustache {offset : Nat} {raw? : Option RawMustache} {span text rest : List Char}
      (hspan : MustacheSpan offset raw? span)
      (hcomment : raw? = none ↔ ['{', '{', '!'] <+: span ++ text)
      (hrest : ValueTo stops text rest) : ValueTo stops (span ++ text) rest

/-- An attribute with the name begins here. -/
structure NamesAttribute (name text : List Char) : Prop where
  plain : ¬ ['{', '{'] <+: text
  name_eq : name = text.takeWhile isAttributeNameChar
  nonempty : name ≠ []

/-- What stands behind the name of an attribute and the white space after it. -/
def behindName (text : List Char) : List Char :=
  (text.dropWhile isAttributeNameChar).dropWhile Text.isSpace

/-- An equals sign follows the name of the attribute, and after white space its value. -/
def Assigns (text value : List Char) : Prop :=
  ∃ after, behindName text = '=' :: after ∧ value = after.dropWhile Text.isSpace

/-- From the start of an attribute to the text behind it. -/
inductive AttributeTo (text : List Char) : List Char → Prop where
  | bare {name : List Char} (hname : NamesAttribute name text)
      (hbare : ¬ ['='] <+: behindName text) : AttributeTo text (behindName text)
  | quoted {name value rest : List Char} {quote : Char} (hname : NamesAttribute name text)
      (hassigns : Assigns text (quote :: value)) (hquote : Text.isQuote quote = true)
      (hvalue : ValueTo (· == quote) value (quote :: rest)) : AttributeTo text rest
  | unquoted {name value rest : List Char} {c : Char} (hname : NamesAttribute name text)
      (hassigns : Assigns text (c :: value)) (hquote : Text.isQuote c = false) (hend : c ≠ '>')
      (hvalue : ValueTo (fun c => Text.isSpace c || c == '>') (c :: value) rest) :
      AttributeTo text rest

/-- From the text behind a tag's name to where an attribute may begin, or the tag may end. -/
inductive Attributes : List Char → List Char → Prop where
  | first (text : List Char) : Attributes text (text.dropWhile Text.isSpace)
  | next {text place rest : List Char} (hbefore : Attributes text place)
      (hattr : AttributeTo place rest) : Attributes text (rest.dropWhile Text.isSpace)

/-- What is behind the name of a start tag. -/
def behindTagName (text : List Char) : List Char :=
  (text.drop 1).dropWhile isNameChar

/-- Within a start tag of the source an attribute may begin here, or the tag may end. -/
def InTag (source tag rest : List Char) : Prop :=
  ∃ text, text <:+ source ∧ OpensTag tag text ∧ Attributes (behindTagName text) rest

section Values

variable {cursor next : Cursor} {stops : Char → Bool}

theorem startsMustache_iff {text : List Char} :
    startsMustache text = true ↔ ['{', '{'] <+: text := by
  unfold startsMustache
  split
  · next rest => simp
  · next hbraces =>
      refine ⟨fun hfalse => (Bool.false_ne_true hfalse).elim, ?_⟩
      rintro ⟨rest, rfl⟩
      exact absurd rfl (hbraces rest)

theorem scanMustache_none_iff {raw? : Option RawMustache}
    (hscan : scanMustache cursor = .ok (raw?, next)) :
    raw? = none ↔ ['{', '{', '!'] <+: cursor.rest := by
  unfold scanMustache at hscan
  split at hscan
  · next hdashes =>
      obtain ⟨place, -, hresult⟩ := bind_eq_ok_iff.mp hscan
      cases hresult
      have hopens := List.isPrefixOf_iff_prefix.mp hdashes
      have hbang : ['{', '{', '!'] <+: ['{', '{', '!', '-', '-'] := ⟨['-', '-'], rfl⟩
      exact ⟨fun _ => hbang.trans hopens, fun _ => rfl⟩
  · split at hscan
    · next hbang =>
        obtain ⟨place, -, hresult⟩ := bind_eq_ok_iff.mp hscan
        cases hresult
        exact ⟨fun _ => List.isPrefixOf_iff_prefix.mp hbang, fun _ => rfl⟩
    · next hplain =>
        obtain ⟨⟨mustache, place⟩, -, hresult⟩ := bind_eq_ok_iff.mp hscan
        cases hresult
        exact ⟨nofun, fun hopens => absurd (List.isPrefixOf_iff_prefix.mpr hopens) hplain⟩

theorem ValueTo.literal {literal text rest : List Char}
    (hliteral : ∀ skipped left, literal = skipped ++ left → left ≠ [] →
      (startsMustache (left ++ text) || (left ++ text).head?.any stops) = false)
    (hrest : ValueTo stops text rest) : ValueTo stops (literal ++ text) rest := by
  induction literal with
  | nil => exact hrest
  | cons c others ih =>
      have hfirst := hliteral [] (c :: others) rfl (List.cons_ne_nil c others)
      rw [Bool.or_eq_false_iff, List.cons_append, List.head?_cons, Option.any_some] at hfirst
      refine .char hfirst.2 ?_ (ih fun skipped left hsplit => ?_)
      · intro hopens
        exact Bool.false_ne_true (hfirst.1.symm.trans (startsMustache_iff.mpr hopens))
      · exact hliteral (c :: skipped) left (by rw [hsplit, List.cons_append])

theorem Cursor.FindsParts.valueTo {parts : List RawPart}
    (hfinds : cursor.FindsParts stops parts next) : ValueTo stops cursor.rest next.rest := by
  induction hfinds with
  | done hends => exact .done hends
  | mustache hstarts hbrace hscan _ ih =>
      obtain ⟨span, hpasses, hspan⟩ := passes_scanMustache hstarts hscan
      rw [hpasses.rest_eq]
      refine .mustache hspan ?_ ih
      rw [← hpasses.rest_eq]
      exact scanMustache_none_iff hscan
  | @literal cursor next span parts hspan hnonempty _ ih =>
      obtain ⟨left, hjoined, -, hinside⟩ := takeUntil_splits
        (fun text => startsMustache text || text.head?.any stops) cursor.rest
      have hleft : (cursor.advance span.length).rest = left := by
        rw [hspan]
        exact Cursor.rest_advance_append hjoined
      rw [hleft] at ih
      rw [hjoined]
      exact .literal hinside ih

end Values

section Attributes

variable {cursor next : Cursor} {name : List Char}

theorem rest_behindName (cursor : Cursor) :
    (cursor.advance (cursor.rest.takeWhile isAttributeNameChar).length).skipSpace.rest =
      behindName cursor.rest := by
  have hnamed := Cursor.rest_advance_append
    (List.takeWhile_append_dropWhile (p := isAttributeNameChar) (l := cursor.rest)).symm
  rw [Cursor.rest_skipSpace, hnamed, behindName]

theorem Cursor.Names.rest_eq {named : Cursor} (hnamed : cursor.Names name named) :
    named.rest = behindName cursor.rest := by
  rw [hnamed.named_eq, hnamed.name_eq, rest_behindName]

theorem Cursor.Names.namesAttribute {named : Cursor} (hnamed : cursor.Names name named)
    (hplain : ¬ ['{', '{'] <+: cursor.rest) : NamesAttribute name cursor.rest :=
  ⟨hplain, hnamed.name_eq, hnamed.nonempty⟩

theorem Cursor.FindsValue.attributeTo {place : Cursor} {parts : List RawPart}
    (hfinds : place.FindsValue parts next) (hname : NamesAttribute name cursor.rest)
    (hassigns : Assigns cursor.rest place.rest) : AttributeTo cursor.rest next.rest := by
  cases hfinds with
  | @quoted quote value parts last hrest hquote hinner hclosed =>
      obtain ⟨rest, hlast⟩ := List.head?_eq_some_iff.mp hclosed
      have hvalue := hinner.valueTo
      rw [Cursor.rest_advance_one hrest, hlast] at hvalue
      rw [Cursor.rest_advance_one hlast]
      exact .quoted hname (hrest ▸ hassigns) hquote hvalue
  | @unquoted c value parts _ hrest hquote hend hinner =>
      have hvalue := hinner.valueTo
      rw [hrest] at hvalue
      exact .unquoted hname (hrest ▸ hassigns) hquote hend hvalue

theorem Cursor.FindsAttribute.attributeTo {attr : RawAttribute}
    (hfinds : cursor.FindsAttribute attr next) (hplain : ¬ ['{', '{'] <+: cursor.rest) :
    AttributeTo cursor.rest next.rest := by
  cases hfinds with
  | bare hnamed hbare =>
      rw [hnamed.rest_eq] at hbare ⊢
      refine .bare (hnamed.namesAttribute hplain) fun hassigned => hbare ?_
      exact List.singleton_prefix_iff_head?_eq_some.mp hassigned
  | assigned hnamed hequals hvalue =>
      obtain ⟨after, hafter⟩ := List.head?_eq_some_iff.mp hequals
      refine hvalue.attributeTo (hnamed.namesAttribute hplain) ⟨after, ?_, ?_⟩
      · rw [← hnamed.rest_eq, hafter]
      · rw [Cursor.rest_skipSpace, Cursor.rest_advance_one hafter]

end Attributes

end MustacheHtml.Template
