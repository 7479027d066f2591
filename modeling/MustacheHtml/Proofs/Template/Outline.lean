import MustacheHtml.Proofs.Template.Spans
import MustacheHtml.Proofs.Tree.Merging

namespace MustacheHtml.Template

open MustacheHtml.Escape (HasBraces)
open MustacheHtml.Tree (forestHtml Merged StartsWithText joinFront merge)

/-- A tag without the values of its attributes. -/
inductive Tag where
  | start (name : String) (attributes : List String)
  | stop (name : String)
deriving DecidableEq, Repr

/-- The tag that a token is, if it is one. -/
def Token.tag? : Token → Option Tag
  | .startTag name attributes _ _ => some (.start name (attributes.map RawAttribute.name))
  | .endTag name _ => some (.stop name)
  | _ => none

/-- The tags among some tokens. -/
def tags (tokens : List Token) : List Tag :=
  tokens.filterMap Token.tag?

mutual

/-- The tags of a tree as it is written. -/
def treeOutline : Tree → List Tag
  | .text _ => []
  | .element tag attributes children =>
      .start tag (attributes.map Prod.fst) ::
        if TagName.isVoid tag then [] else outline children ++ [.stop tag]

/-- The tags that trees are written with, in order. -/
def outline : List Tree → List Tag
  | [] => []
  | tree :: rest => treeOutline tree ++ outline rest

end

theorem outline_joinFront (tree : Tree) (others : Forest) :
    outline (joinFront tree others) = treeOutline tree ++ outline others := by
  unfold joinFront
  split
  · rfl
  · split
    · rfl
    · rfl
  · rfl

theorem outline_merge (forest : Forest) : outline (merge forest) = outline forest := by
  induction forest using Tree.forest_induction with
  | nil => rfl
  | text content rest ih => rw [merge, outline_joinFront, ih, Tree.merged, outline]
  | element tag attributes children rest ihChildren ih =>
      rw [merge, outline_joinFront, ih, Tree.merged, outline, treeOutline, treeOutline, ihChildren]

instance (text : List Char) : Decidable (OpensMarkup text) :=
  decidable_of_iff _ startsMarkup_iff

/-- Nowhere in the text does markup begin. -/
def OpensNothing (text : List Char) : Prop :=
  ∀ left ∈ text.tails, ¬ OpensMarkup left

instance (text : List Char) : Decidable (OpensNothing text) :=
  inferInstanceAs (Decidable (∀ left ∈ text.tails, ¬ OpensMarkup left))

mutual

def PlainTree (raw : Bool) : Tree → Prop
  | .text content => raw = true → OpensNothing content.toList
  | .element tag _ children => PlainForest (TagName.isRawText tag) children

/-- No text opens markup that stands directly in an element which takes text without escapes. -/
def PlainForest (raw : Bool) : List Tree → Prop
  | [] => True
  | tree :: rest => PlainTree raw tree ∧ PlainForest raw rest

end

/-- The names of tags and attributes can be written, and void elements are empty. -/
inductive Named : Forest → Prop where
  | nil : Named []
  | text (content : String) {rest : Forest} (hrest : Named rest) : Named (.text content :: rest)
  | element {tag : String} {attributes : Attributes} {children rest : Forest}
      (htag : IsTagName tag.toList) (hvoid : TagName.isVoid tag = true → children = [])
      (hattributes : ∀ attr ∈ attributes, IsAttributeName attr.1.toList)
      (hchildren : Named children) (hrest : Named rest) :
      Named (.element tag attributes children :: rest)

theorem Named.joinFront_text {forest : Forest} (hnamed : Named forest) (content : String) :
    Named (joinFront (.text content) forest) := by
  unfold joinFront
  split
  · next next others =>
      cases hnamed with
      | text _ hrest => exact .text _ hrest
  · split
    · exact hnamed
    · exact .text _ hnamed
  · exact .text _ hnamed

theorem Named.merge {forest : Forest} (hnamed : Named forest) : Named (merge forest) := by
  induction hnamed with
  | nil => exact .nil
  | text content _ ih => exact ih.joinFront_text content
  | @element tag attributes children rest htag hvoid hattributes _ _ ihChildren ih =>
      refine .element htag ?_ hattributes ihChildren ih
      intro hkind
      rw [hvoid hkind]
      rfl

/-- What can be read back as it was meant: names of tags, and no mustaches in texts and values. In
an element that takes text without escapes, the text opens no markup. -/
inductive Legible : Bool → Forest → Prop where
  | nil (raw : Bool) : Legible raw []
  | text {raw : Bool} {content : String} {rest : Forest} (hbraces : ¬ HasBraces content.toList)
      (hraw : raw = true → OpensNothing content.toList) (hrest : Legible raw rest) :
      Legible raw (.text content :: rest)
  | element {raw : Bool} {tag : String} {attributes : Attributes} {children rest : Forest}
      (htag : IsTagName tag.toList) (hvoid : TagName.isVoid tag = true → children = [])
      (hattributes : ∀ attr ∈ attributes,
        IsAttributeName attr.1.toList ∧ ¬ HasBraces attr.2.toList)
      (hchildren : Legible (TagName.isRawText tag) children) (hrest : Legible raw rest) :
      Legible raw (.element tag attributes children :: rest)

theorem not_hasBraces_attributes {attributes : Attributes}
    (hbraces : ¬ HasBraces (Attributes.html attributes)) :
    ∀ attr ∈ attributes, ¬ HasBraces attr.2.toList := by
  induction attributes with
  | nil => exact List.forall_mem_nil _
  | cons attr others ih =>
      rw [Attributes.html] at hbraces
      obtain ⟨hfirst, hothers⟩ := Escape.not_hasBraces_of_append hbraces
      have hvalue := (Escape.not_hasBraces_of_append (Escape.not_hasBraces_of_append hfirst).1).2
      refine List.forall_mem_cons.mpr ⟨?_, ih hothers⟩
      exact fun hattr => hvalue (Escape.hasBraces_flatMap rfl hattr)

theorem Named.legible {forest : Forest} {raw : Bool} (hnamed : Named forest)
    (hplain : PlainForest raw forest) (hbraces : ¬ HasBraces (forestHtml raw forest)) :
    Legible raw forest := by
  induction hnamed generalizing raw with
  | nil => exact .nil raw
  | @text content rest _ ih =>
      obtain ⟨hfirst, hrest⟩ := Escape.not_hasBraces_of_append hbraces
      refine .text ?_ hplain.1 (ih hplain.2 hrest)
      intro hcontent
      cases raw with
      | false => exact hfirst (Escape.hasBraces_flatMap rfl hcontent)
      | true => exact hfirst hcontent
  | @element tag attributes children rest htag hvoid hattributes _ _ ihChildren ih =>
      obtain ⟨hfirst, hrest⟩ := Escape.not_hasBraces_of_append hbraces
      obtain ⟨hstart, hinner⟩ := Escape.not_hasBraces_of_append hfirst
      have hvalues := not_hasBraces_attributes
        (Escape.not_hasBraces_of_append (Escape.not_hasBraces_of_append hstart).1).2
      refine .element htag hvoid (fun attr hattr => ⟨hattributes attr hattr, hvalues attr hattr⟩) ?_
        (ih hplain.2 hrest)
      cases hkind : TagName.isVoid tag with
      | true =>
          rw [hvoid hkind]
          exact .nil _
      | false =>
          rw [hkind, if_neg (by decide), List.append_assoc, List.append_assoc] at hinner
          exact ihChildren hplain.1 (Escape.not_hasBraces_of_append hinner).1

section Scanning

variable {cursor : Cursor} {content rest : List Char} {raw : Bool} {forest : Forest}

theorem AtTag.opensMarkup (hrest : AtTag rest) : rest = [] ∨ OpensMarkup rest := by
  rcases hrest with rfl | ⟨c, after, rfl, rfl | halpha⟩
  · exact .inl rfl
  · exact .inr (.inr (.inl ⟨after, rfl⟩))
  · exact .inr (.inr (.inr (.inr ⟨c, halpha, after, rfl⟩)))

theorem AtTag.head?_eq (hrest : AtTag rest) {c : Char} (hhead : rest.head? = some c) : c = '<' := by
  rcases hrest with rfl | ⟨next, after, rfl, -⟩
  · cases hhead
  · exact (Option.some.inj hhead).symm

theorem pair_prefix_append {first second : Char} {left : List Char} (hleft : left ≠ [])
    (hpair : [first, second] <+: left ++ rest) :
    [first, second] <+: left ∨ rest.head? = some second := by
  obtain ⟨c, others, rfl⟩ := List.exists_cons_of_ne_nil hleft
  obtain ⟨rfl, hnext⟩ := List.cons_prefix_cons.mp hpair
  cases others with
  | nil => exact .inr (List.singleton_prefix_iff_head?_eq_some.mp hnext)
  | cons next more =>
      obtain ⟨rfl, -⟩ := List.cons_prefix_cons.mp hnext
      exact .inl ⟨more, rfl⟩

theorem plainBefore_of_opensNothing (hcontent : OpensNothing content) (hrest : AtTag rest) :
    PlainBefore rest content := by
  intro skipped left hsplit hleft hopens
  apply hcontent left ((List.mem_tails left content).mpr ⟨skipped, hsplit.symm⟩)
  have hwithin {first second : Char} (hsecond : second ≠ '<')
      (hpair : [first, second] <+: left ++ rest) : [first, second] <+: left := by
    rcases pair_prefix_append hleft hpair with hwithin | hhead
    · exact hwithin
    · exact absurd (hrest.head?_eq hhead) hsecond
  rcases hopens with hbraces | hslash | hbang | ⟨letter, halpha, hletter⟩
  · exact .inl (hwithin (by decide) hbraces)
  · exact .inr (.inl (hwithin (by decide) hslash))
  · exact .inr (.inr (.inl (hwithin (by decide) hbang)))
  · have hless : letter ≠ '<' := by
      rintro rfl
      exact absurd halpha (by decide)
    exact .inr (.inr (.inr ⟨letter, halpha, hwithin hless hletter⟩))

theorem takeUntil_plain (hcontent : PlainBefore rest content)
    (hrest : rest = [] ∨ OpensMarkup rest) :
    takeUntil startsMarkup (content ++ rest) = content := by
  refine takeUntil_of_splits ?_ (hrest.imp_right startsMarkup_iff.mpr)
  intro skipped left hsplit hleft
  rw [← Bool.not_eq_true, startsMarkup_iff]
  exact hcontent skipped left hsplit hleft

theorem scan_plain (hcursor : cursor.rest = content ++ rest) (hnonempty : content ≠ [])
    (hplain : PlainBefore rest content) (hrest : rest = [] ∨ OpensMarkup rest) : ∃ next,
    Scans cursor [.text (String.ofList (Reference.decode content)) cursor.offset] next ∧
      next.rest = rest := by
  have hstarts : startsMarkup cursor.rest = false := by
    rw [← Bool.not_eq_true, startsMarkup_iff, hcursor]
    exact hplain [] content rfl hnonempty
  obtain ⟨c, others, rfl⟩ := List.exists_cons_of_ne_nil hnonempty
  have hleft : cursor.rest ≠ [] := by
    rw [hcursor]
    exact List.cons_ne_nil _ _
  have htaken : takeUntil startsMarkup cursor.rest = c :: others := by
    rw [hcursor, takeUntil_plain hplain hrest]
  refine ⟨cursor.advance (c :: others).length, .single hcursor ?_, ?_⟩
  · rw [scanOne_text hstarts, scanText_eq hleft hstarts, htaken]
  · exact Cursor.rest_advance_append hcursor

theorem atTag_legible (hlegible : Legible raw forest) (hapart : ¬ StartsWithText forest)
    (hrest : AtTag rest) : AtTag (forestHtml raw forest ++ rest) := by
  cases hlegible with
  | nil => exact hrest
  | text => exact absurd trivial hapart
  | element htag hvoid hattributes hchildren hmore =>
      obtain ⟨c, others, hname, halpha⟩ := htag.letter
      rw [forestHtml, Tree.html, hname]
      simp only [List.append_assoc, List.cons_append, List.nil_append]
      exact .inr ⟨c, _, rfl, .inr halpha⟩

theorem tags_append (front back : List Token) : tags (front ++ back) = tags front ++ tags back :=
  List.filterMap_append

/-- Scanning the HTML of a forest ends after it and yields its tags. -/
theorem scans_outline (hmerged : Merged forest) (hlegible : Legible raw forest)
    (hcursor : cursor.rest = forestHtml raw forest ++ rest) (hrest : AtTag rest) :
    ∃ tokens last, Scans cursor tokens last ∧ last.rest = rest ∧ tags tokens = outline forest := by
  induction hmerged generalizing raw cursor rest with
  | nil => exact ⟨[], cursor, .done cursor, hcursor, rfl⟩
  | @text content others hcontent hapart hmerged ih =>
      cases hlegible with
      | text hbraces hraw hlegible =>
          have hchars : content.toList ≠ [] := by simpa using hcontent
          have hafter := atTag_legible hlegible hapart hrest
          obtain ⟨shown, next, hscan, hnext⟩ : ∃ shown next,
              Scans cursor [.text shown cursor.offset] next ∧
                next.rest = forestHtml raw others ++ rest := by
            rw [forestHtml, Tree.html, List.append_assoc] at hcursor
            cases raw with
            | false => exact ⟨_, scan_text hcursor hchars hbraces hafter⟩
            | true =>
                have hplain := plainBefore_of_opensNothing (hraw rfl) hafter
                exact ⟨_, scan_plain hcursor hchars hplain hafter.opensMarkup⟩
          obtain ⟨tokens, last, hscans, hlast, htags⟩ := ih hlegible hnext hrest
          exact ⟨_, last, hscan.append hscans, hlast, htags⟩
  | @element tag attributes children others hchildren hmerged ihChildren ih =>
      cases hlegible with
      | element htag hvoid hattributes hinner hlegible =>
          rw [forestHtml, Tree.html] at hcursor
          simp only [List.append_assoc, List.cons_append, List.nil_append] at hcursor
          obtain ⟨raw, next, hstart, hnext, hpairs⟩ := scan_startTag hcursor htag hattributes
          have hnames : raw.map RawAttribute.name = attributes.map Prod.fst := by
            have hfirst := congrArg (List.map Prod.fst) hpairs
            simpa [List.map_map, Function.comp_def] using hfirst
          cases hkind : TagName.isVoid tag with
          | true =>
              rw [hkind, if_pos rfl, List.nil_append] at hnext
              obtain ⟨tokens, last, hscans, hlast, htags⟩ := ih hlegible hnext hrest
              refine ⟨_, last, hstart.append hscans, hlast, ?_⟩
              rw [tags_append, htags, outline, treeOutline, hkind, if_pos rfl, ← hnames]
              rfl
          | false =>
              rw [hkind, if_neg (by decide)] at hnext
              simp only [List.append_assoc, List.cons_append, List.nil_append] at hnext
              obtain ⟨inner, middle, hinside, hmiddle, hwithin⟩ :=
                ihChildren hinner hnext (.inr ⟨'/', _, rfl, .inl rfl⟩)
              obtain ⟨after, hstop, hafter⟩ := scan_endTag hmiddle htag
              obtain ⟨tokens, last, hscans, hlast, htags⟩ := ih hlegible hafter hrest
              refine ⟨_, last, hstart.append (hinside.append (hstop.append hscans)), hlast, ?_⟩
              rw [tags_append, tags_append, tags_append, hwithin, htags, outline, treeOutline,
                hkind, if_neg (by decide), ← hnames]
              simp [tags, Token.tag?]

end Scanning

theorem tokenize_outline {forest : Forest} (hlegible : Legible false (merge forest)) :
    ∃ tokens, tokenize (String.ofList (forestHtml false forest)) = .ok tokens ∧
      tags tokens = outline forest := by
  have hcursor : (Cursor.start (forestHtml false forest)).rest =
      forestHtml false (merge forest) ++ [] := by
    rw [Tree.forestHtml_merge, List.append_nil]
    rfl
  obtain ⟨tokens, last, hscans, hlast, htags⟩ :=
    scans_outline (Tree.merged_merge forest) hlegible hcursor (.inl rfl)
  refine ⟨tokens, ?_, htags.trans (outline_merge forest)⟩
  rw [tokenize, mapError_eq_ok_iff, String.toList_ofList]
  exact hscans.tokensFrom_eq hlast

end MustacheHtml.Template
