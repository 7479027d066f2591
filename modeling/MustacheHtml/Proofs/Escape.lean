import Mathlib.Data.List.Infix
import MustacheHtml.Escape
import MustacheHtml.Reference

namespace MustacheHtml.Escape

/-- Every character stands for itself, or is written as a reference to it. -/
def Faithful (escape : Char → List Char) : Prop :=
  ∀ c, (escape c = [c] ∧ c ≠ '&') ∨ ∃ body, escape c = '&' :: body ∧ '{' ∉ body ∧
    ∀ rest, Reference.read? (body ++ rest) = some (c, rest)

/-- Two braces side by side, as they begin a mustache. -/
def HasBraces (text : List Char) : Prop :=
  ['{', '{'] <:+: text

instance (text : List Char) : Decidable (HasBraces text) :=
  inferInstanceAs (Decidable (_ <:+: _))

theorem faithful_textChar : Faithful textChar := by
  intro c
  unfold textChar
  split
  · exact .inr ⟨['a', 'm', 'p', ';'], rfl, by decide, fun _ => rfl⟩
  · exact .inr ⟨['l', 't', ';'], rfl, by decide, fun _ => rfl⟩
  · exact .inr ⟨['g', 't', ';'], rfl, by decide, fun _ => rfl⟩
  · exact .inr ⟨['n', 'b', 's', 'p', ';'], rfl, by decide, fun _ => rfl⟩
  · next hamp _ _ _ => exact .inl ⟨rfl, hamp⟩

theorem faithful_attributeChar : Faithful attributeChar := by
  intro c
  unfold attributeChar
  split
  · exact .inr ⟨['a', 'm', 'p', ';'], rfl, by decide, fun _ => rfl⟩
  · exact .inr ⟨['q', 'u', 'o', 't', ';'], rfl, by decide, fun _ => rfl⟩
  · exact .inr ⟨['n', 'b', 's', 'p', ';'], rfl, by decide, fun _ => rfl⟩
  · next hamp _ _ => exact .inl ⟨rfl, hamp⟩

section Faithful

variable {escape : Char → List Char} {content : List Char}

theorem Faithful.decode_flatMap (hfaithful : Faithful escape) (content : List Char) :
    Reference.decode (content.flatMap escape) = content := by
  induction content with
  | nil =>
      rw [List.flatMap_nil, Reference.decode]
  | cons c rest ih =>
      rw [List.flatMap_cons]
      rcases hfaithful c with ⟨hself, hamp⟩ | ⟨body, hescape, -, hread⟩
      · rw [hself, List.singleton_append, Reference.decode, if_neg hamp, ih]
      · rw [hescape, List.cons_append, Reference.decode, if_pos rfl]
        split
        · next decoded after hfound =>
            rw [hread] at hfound
            cases hfound
            rw [ih]
        · next hfound =>
            rw [hread] at hfound
            cases hfound

theorem Faithful.head?_flatMap (hfaithful : Faithful escape)
    (hhead : (content.flatMap escape).head? = some '{') : content.head? = some '{' := by
  cases content with
  | nil => cases hhead
  | cons c rest =>
      rw [List.flatMap_cons] at hhead
      rcases hfaithful c with ⟨hself, -⟩ | ⟨body, hescape, -, -⟩
      · rw [hself] at hhead
        exact hhead
      · rw [hescape] at hhead
        cases hhead

theorem hasBraces_cons {c : Char} {rest : List Char} :
    HasBraces (c :: rest) ↔ (c = '{' ∧ rest.head? = some '{') ∨ HasBraces rest := by
  rw [HasBraces, List.infix_cons_iff, List.cons_prefix_cons,
    List.singleton_prefix_iff_head?_eq_some, eq_comm, HasBraces]

theorem hasBraces_of_append {before rest : List Char} (hbefore : '{' ∉ before)
    (hbraces : HasBraces (before ++ rest)) : HasBraces rest := by
  induction before with
  | nil => exact hbraces
  | cons c others ih =>
      rw [List.mem_cons, not_or] at hbefore
      obtain ⟨hc, hothers⟩ := hbefore
      rw [List.cons_append, hasBraces_cons] at hbraces
      rcases hbraces with ⟨hbrace, -⟩ | hrest
      · exact absurd hbrace.symm hc
      · exact ih hothers hrest

theorem Faithful.hasBraces (hfaithful : Faithful escape)
    (hbraces : HasBraces (content.flatMap escape)) : HasBraces content := by
  induction content with
  | nil => exact hbraces
  | cons c rest ih =>
      rw [List.flatMap_cons] at hbraces
      rw [hasBraces_cons]
      rcases hfaithful c with ⟨hself, -⟩ | ⟨body, hescape, hbody, -⟩
      · rw [hself, List.singleton_append, hasBraces_cons] at hbraces
        rcases hbraces with ⟨hbrace, hhead⟩ | hrest
        · exact .inl ⟨hbrace, hfaithful.head?_flatMap hhead⟩
        · exact .inr (ih hrest)
      · rw [hescape] at hbraces
        refine .inr (ih (hasBraces_of_append ?_ hbraces))
        rw [List.mem_cons, not_or]
        exact ⟨by decide, hbody⟩

end Faithful

theorem not_hasBraces_of_append {front back : List Char} (hapart : ¬ HasBraces (front ++ back)) :
    ¬ HasBraces front ∧ ¬ HasBraces back :=
  ⟨fun hfront => hapart (hfront.trans (List.prefix_append _ _).isInfix),
    fun hback => hapart (hback.trans (List.suffix_append _ _).isInfix)⟩

theorem hasBraces_flatMap {escape : Char → List Char} (hbrace : escape '{' = ['{'])
    {content : List Char} (hbraces : HasBraces content) : HasBraces (content.flatMap escape) := by
  obtain ⟨before, after, rfl⟩ := hbraces
  refine ⟨before.flatMap escape, after.flatMap escape, ?_⟩
  simp [hbrace]

theorem not_mem_textContent {bracket : Char} (hbracket : bracket = '<' ∨ bracket = '>')
    (content : List Char) : bracket ∉ textContent content := by
  intro hmem
  obtain ⟨c, -, hc⟩ := List.mem_flatMap.mp hmem
  unfold textChar at hc
  split at hc
  case h_5 hless hgreater _ =>
      rw [List.mem_singleton] at hc
      subst hc
      exact hbracket.elim hless hgreater
  all_goals rcases hbracket with rfl | rfl <;> simp at hc

theorem not_mem_attributeValue (value : List Char) : '"' ∉ attributeValue value := by
  intro hmem
  obtain ⟨c, -, hc⟩ := List.mem_flatMap.mp hmem
  unfold attributeChar at hc
  split at hc
  · exact absurd hc (by decide)
  · exact absurd hc (by decide)
  · exact absurd hc (by decide)
  · next _ hquote _ => exact hquote (List.mem_singleton.mp hc).symm

theorem exists_of_flatMap_eq {escape : Char → List Char} {content before rest : List Char}
    {mark : Char} (hsplit : content.flatMap escape = before ++ mark :: rest) :
    ∃ front c back left right, content = front ++ c :: back ∧ escape c = left ++ mark :: right ∧
      before = front.flatMap escape ++ left ∧ rest = right ++ back.flatMap escape := by
  induction content generalizing before with
  | nil => simp at hsplit
  | cons c others ih =>
      have hlater : ∀ {between}, others.flatMap escape = between ++ mark :: rest →
          before = escape c ++ between → ∃ front marked back left right,
            c :: others = front ++ marked :: back ∧ escape marked = left ++ mark :: right ∧
              before = front.flatMap escape ++ left ∧ rest = right ++ back.flatMap escape := by
        rintro between hothers rfl
        obtain ⟨front, marked, back, left, right, rfl, hmarked, rfl, rfl⟩ := ih hothers
        exact ⟨c :: front, marked, back, left, right, rfl, hmarked, by simp, rfl⟩
      rw [List.flatMap_cons] at hsplit
      rcases List.append_eq_append_iff.mp hsplit with
        ⟨between, rfl, hothers⟩ | ⟨between, hown, hothers⟩
      · exact hlater hothers rfl
      · cases between with
        | nil =>
            rw [List.append_nil] at hown
            exact @hlater [] hothers.symm (by rw [hown, List.append_nil])
        | cons first right =>
            obtain ⟨rfl, rfl⟩ := List.cons.inj hothers
            exact ⟨[], c, others, before, right, rfl, hown, rfl, rfl⟩

/-- Every ampersand in the escaped text begins one of the references, which is written there for a
character of the content. -/
def AmpersandsRefer (escape : Char → List Char) (references : List (List Char))
    (content : List Char) : Prop :=
  ∀ before rest, content.flatMap escape = before ++ '&' :: rest → ∃ front c back,
    content = front ++ c :: back ∧ escape c ∈ references ∧ before = front.flatMap escape ∧
      '&' :: rest = escape c ++ back.flatMap escape

theorem ampersandsRefer_of_chars {escape : Char → List Char} {references : List (List Char)}
    (hreferences : ∀ reference ∈ references, ∃ body, reference = '&' :: body ∧ '&' ∉ body)
    (hchars : ∀ c, escape c ∈ references ∨ escape c = [c] ∧ c ≠ '&') (content : List Char) :
    AmpersandsRefer escape references content := by
  intro before rest hsplit
  obtain ⟨front, c, back, left, right, hcontent, hc, rfl, rfl⟩ := exists_of_flatMap_eq hsplit
  rcases hchars c with hmem | ⟨hself, hamp⟩
  · obtain ⟨body, hbody, hclean⟩ := hreferences _ hmem
    cases left with
    | nil => exact ⟨front, c, back, hcontent, hmem, by simp, by simp [hc]⟩
    | cons first left =>
        rw [hc, List.cons_append, List.cons.injEq] at hbody
        exact absurd (hbody.2 ▸ by simp) hclean
  · rw [hself, List.singleton_eq_append_iff] at hc
    simp [Ne.symm hamp] at hc

/-- The references written in text. -/
def textReferences : List (List Char) :=
  ["&amp;".toList, "&lt;".toList, "&gt;".toList, "&nbsp;".toList]

/-- The references written in the value of an attribute. -/
def attributeReferences : List (List Char) :=
  ["&amp;".toList, "&quot;".toList, "&nbsp;".toList]

theorem ampersandsRefer_textChar (content : List Char) :
    AmpersandsRefer textChar textReferences content := by
  refine ampersandsRefer_of_chars ?_ ?_ content
  · simp [textReferences]
  · intro c
    unfold textChar
    split
    case h_5 hamp _ _ _ => exact .inr ⟨rfl, hamp⟩
    all_goals exact .inl (by simp [textReferences])

theorem ampersandsRefer_attributeChar (content : List Char) :
    AmpersandsRefer attributeChar attributeReferences content := by
  refine ampersandsRefer_of_chars ?_ ?_ content
  · simp [attributeReferences]
  · intro c
    unfold attributeChar
    split
    case h_4 hamp _ _ => exact .inr ⟨rfl, hamp⟩
    all_goals exact .inl (by simp [attributeReferences])

/-- Reading references undoes escaping, whatever the content looks like; and what is escaped has
no brackets as text and no double quote as the value of an attribute, and no ampersands but those
of the references written. -/
theorem decode_escaped (content : List Char) :
    Reference.decode (textContent content) = content ∧
      Reference.decode (attributeValue content) = content ∧
      ('<' ∉ textContent content ∧ '>' ∉ textContent content) ∧
      '"' ∉ attributeValue content ∧
      AmpersandsRefer textChar textReferences content ∧
      AmpersandsRefer attributeChar attributeReferences content :=
  ⟨faithful_textChar.decode_flatMap content, faithful_attributeChar.decode_flatMap content,
    ⟨not_mem_textContent (.inl rfl) content, not_mem_textContent (.inr rfl) content⟩,
    not_mem_attributeValue content,
    ampersandsRefer_textChar content, ampersandsRefer_attributeChar content⟩

end MustacheHtml.Escape
