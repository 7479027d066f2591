import Mathlib.Tactic.MkIffOfInductiveProp
import MustacheHtml.Expression

namespace MustacheHtml.Text

variable {isSeparator : Char → Bool} {word text : List Char}

/-- A non-empty word that has no separator in it. -/
structure IsRun (isSeparator : Char → Bool) (word : List Char) : Prop where
  nonempty : word ≠ []
  plain : ∀ c ∈ word, isSeparator c = false

theorem splitRuns_separator {c : Char} (hc : isSeparator c = true) (text : List Char) :
    splitRuns isSeparator (c :: text) = ([], runs isSeparator text) := by
  simp [splitRuns, runs, hc]

theorem runs_separator {c : Char} (hc : isSeparator c = true) (text : List Char) :
    runs isSeparator (c :: text) = runs isSeparator text := by
  rw [runs, splitRuns_separator hc]
  rfl

theorem splitRuns_plain {c : Char} (hc : isSeparator c = false) (text : List Char) :
    splitRuns isSeparator (c :: text) =
      (c :: (splitRuns isSeparator text).1, (splitRuns isSeparator text).2) := by
  simp [splitRuns, hc]

theorem splitRuns_append (hword : ∀ c ∈ word, isSeparator c = false) (after : List Char) :
    splitRuns isSeparator (word ++ after) =
      (word ++ (splitRuns isSeparator after).1, (splitRuns isSeparator after).2) := by
  induction word with
  | nil => rfl
  | cons c others ih =>
      obtain ⟨hc, hothers⟩ := List.forall_mem_cons.mp hword
      rw [List.cons_append, splitRuns_plain hc, ih hothers]
      rfl

theorem runs_separators_append {separators : List Char}
    (hseparators : ∀ c ∈ separators, isSeparator c = true) (text : List Char) :
    runs isSeparator (separators ++ text) = runs isSeparator text := by
  induction separators with
  | nil => rfl
  | cons c others ih =>
      obtain ⟨hc, hothers⟩ := List.forall_mem_cons.mp hseparators
      rw [List.cons_append, runs_separator hc, ih hothers]

theorem runs_word_append {rest : List Char} (hword : IsRun isSeparator word)
    (hrest : ∀ c ∈ rest.head?, isSeparator c = true) :
    runs isSeparator (word ++ rest) = word :: runs isSeparator rest := by
  have hended : splitRuns isSeparator rest = ([], runs isSeparator rest) := by
    cases rest with
    | nil => rfl
    | cons c more =>
        have hc := hrest c rfl
        rw [splitRuns_separator hc, runs_separator hc]
  rw [runs, splitRuns_append hword.plain, hended, List.append_nil]
  simp [consRun, hword.nonempty]

theorem isRun_of_mem_consRun {others : List (List Char)}
    (hfirst : ∀ c ∈ word, isSeparator c = false)
    (hothers : ∀ other ∈ others, IsRun isSeparator other) :
    ∀ other ∈ consRun word others, IsRun isSeparator other := by
  cases word with
  | nil => exact hothers
  | cons c more => exact List.forall_mem_cons.mpr ⟨⟨List.cons_ne_nil c more, hfirst⟩, hothers⟩

theorem isRun_of_mem_splitRuns (isSeparator : Char → Bool) (text : List Char) :
    (∀ c ∈ (splitRuns isSeparator text).1, isSeparator c = false) ∧
      ∀ word ∈ (splitRuns isSeparator text).2, IsRun isSeparator word := by
  induction text with
  | nil => exact ⟨List.forall_mem_nil _, List.forall_mem_nil _⟩
  | cons c rest ih =>
      obtain ⟨hfirst, hothers⟩ := ih
      cases hc : isSeparator c with
      | true =>
          rw [splitRuns_separator hc]
          exact ⟨List.forall_mem_nil _, isRun_of_mem_consRun hfirst hothers⟩
      | false =>
          rw [splitRuns_plain hc]
          exact ⟨List.forall_mem_cons.mpr ⟨hc, hfirst⟩, hothers⟩

theorem isRun_of_mem_runs (hword : word ∈ runs isSeparator text) : IsRun isSeparator word := by
  obtain ⟨hfirst, hothers⟩ := isRun_of_mem_splitRuns isSeparator text
  exact isRun_of_mem_consRun hfirst hothers word hword

end MustacheHtml.Text

namespace MustacheHtml.Expression

def AllSeparators (text : List Char) : Prop :=
  ∀ c ∈ text, c = '.' ∨ c = '/'

instance (text : List Char) : Decidable (AllSeparators text) :=
  decidable_of_iff (text.all isPathSeparator = true) (by simp [AllSeparators, isPathSeparator])

/-- A name that is left whole when a path is split. -/
@[mk_iff]
structure IsSegment (segment : String) : Prop where
  nonempty : segment ≠ ""
  noDot : '.' ∉ segment.toList
  noSlash : '/' ∉ segment.toList

instance (segment : String) : Decidable (IsSegment segment) :=
  decidable_of_iff' _ (isSegment_iff segment)

/-- The segments one after the other, each parted from the next by at least one dot or slash; more
of these may follow the last one. -/
inductive Joined : List String → List Char → Prop where
  | last {segment : String} {behind : List Char} (hbehind : AllSeparators behind) :
      Joined [segment] (segment.toList ++ behind)
  | cons {segment : String} {between text : List Char} {segments : List String}
      (hnonempty : between ≠ []) (hbetween : AllSeparators between)
      (hrest : Joined segments text) :
      Joined (segment :: segments) (segment.toList ++ (between ++ text))

variable {segment : String} {segments : List String} {front text token : List Char}

theorem isPathSeparator_iff {c : Char} : isPathSeparator c = true ↔ c = '.' ∨ c = '/' := by
  simp [isPathSeparator]

theorem AllSeparators.separator (htext : AllSeparators text) :
    ∀ c ∈ text, isPathSeparator c = true :=
  fun c hc => isPathSeparator_iff.mpr (htext c hc)

theorem isSegment_iff_isRun : IsSegment segment ↔ Text.IsRun isPathSeparator segment.toList := by
  constructor
  · rintro ⟨hnonempty, hdot, hslash⟩
    refine ⟨by simpa using hnonempty, fun c hc => Bool.eq_false_iff.mpr fun hseparator => ?_⟩
    rcases isPathSeparator_iff.mp hseparator with rfl | rfl
    · exact hdot hc
    · exact hslash hc
  · rintro ⟨hnonempty, hplain⟩
    refine ⟨by simpa using hnonempty, fun hdot => ?_, fun hslash => ?_⟩
    · exact absurd (hplain '.' hdot) (by decide)
    · exact absurd (hplain '/' hslash) (by decide)

theorem AllSeparators.head?_append {between : List Char} (hbetween : AllSeparators between)
    (hnonempty : between ≠ []) (text : List Char) :
    ∀ c ∈ (between ++ text).head?, isPathSeparator c = true := by
  obtain ⟨c, others, rfl⟩ := List.exists_cons_of_ne_nil hnonempty
  simpa using hbetween.separator c List.mem_cons_self

/-- However the segments are joined, they are the runs between dots and slashes. -/
theorem Joined.runs_eq (hjoined : Joined segments text)
    (hsegments : ∀ segment ∈ segments, IsSegment segment) :
    Text.runs isPathSeparator text = segments.map String.toList := by
  induction hjoined with
  | @last segment behind hbehind =>
      have hsegment := isSegment_iff_isRun.mp (hsegments segment List.mem_cons_self)
      have hrest : ∀ c ∈ behind.head?, isPathSeparator c = true :=
        fun c hc => hbehind.separator c (List.mem_of_mem_head? hc)
      have hnone := Text.runs_separators_append hbehind.separator []
      rw [List.append_nil] at hnone
      rw [Text.runs_word_append hsegment hrest, hnone]
      rfl
  | @cons segment between text segments hnonempty hbetween _ ih =>
      obtain ⟨hfirst, hothers⟩ := List.forall_mem_cons.mp hsegments
      rw [Text.runs_word_append (isSegment_iff_isRun.mp hfirst)
          (hbetween.head?_append hnonempty text),
        Text.runs_separators_append hbetween.separator, ih hothers, List.map_cons]

theorem splitPath_eq_runs
    (hstart : (Text.runs isPathSeparator token).head? ≠ some ['t', 'h', 'i', 's']) :
    splitPath token = (Text.runs isPathSeparator token).map String.ofList := by
  -- a `this` that is dropped, or that is the whole token, is the first run of it
  have hdrop : dropThis token = token := by
    unfold dropThis
    split
    · exact absurd rfl hstart
    · exact absurd rfl hstart
    · rfl
  have hwhole : token ≠ ['t', 'h', 'i', 's'] := by
    rintro rfl
    exact hstart rfl
  rw [splitPath, hdrop, if_neg hwhole]

theorem splitPath_this {mark : Char} (hmark : mark = '.' ∨ mark = '/') (token : List Char) :
    splitPath (['t', 'h', 'i', 's'] ++ mark :: token) =
      if token = ['t', 'h', 'i', 's'] then []
      else (Text.runs isPathSeparator token).map String.ofList := by
  rcases hmark with rfl | rfl
  · rfl
  · rfl

section Joining

variable (hfront : AllSeparators front) (hjoined : Joined segments text)
  (hsegments : ∀ segment ∈ segments, IsSegment segment)

include hfront hjoined hsegments

theorem Joined.map_runs :
    (Text.runs isPathSeparator (front ++ text)).map String.ofList = segments := by
  rw [Text.runs_separators_append hfront.separator, hjoined.runs_eq hsegments, List.map_map]
  simp

theorem Joined.head?_runs_ne (hthis : segments.head? ≠ some "this") :
    (Text.runs isPathSeparator (front ++ text)).head? ≠ some ['t', 'h', 'i', 's'] := by
  intro hstart
  have hhead := congrArg List.head? (hjoined.map_runs hfront hsegments)
  rw [List.head?_map, hstart] at hhead
  exact hthis hhead.symm

theorem Joined.splitPath_eq (hthis : segments.head? ≠ some "this") :
    splitPath (front ++ text) = segments := by
  rw [splitPath_eq_runs (hjoined.head?_runs_ne hfront hsegments hthis),
    hjoined.map_runs hfront hsegments]

theorem Joined.splitPath_this_eq (hthis : segments.head? ≠ some "this") {mark : Char}
    (hmark : mark = '.' ∨ mark = '/') :
    splitPath (['t', 'h', 'i', 's'] ++ mark :: (front ++ text)) = segments := by
  have hwhole : front ++ text ≠ ['t', 'h', 'i', 's'] := by
    intro hwhole
    apply hjoined.head?_runs_ne hfront hsegments hthis
    rw [hwhole]
    rfl
  rw [splitPath_this hmark, if_neg hwhole, hjoined.map_runs hfront hsegments]

end Joining

theorem isSegment_of_mem_splitPath (hsegment : segment ∈ splitPath token) : IsSegment segment := by
  simp only [splitPath] at hsegment
  split at hsegment
  · exact absurd hsegment List.not_mem_nil
  · obtain ⟨word, hword, rfl⟩ := List.mem_map.mp hsegment
    rw [isSegment_iff_isRun, String.toList_ofList]
    exact Text.isRun_of_mem_runs hword

theorem display_cons_cons (first second : String) (others : List String) :
    (Param.id (first :: second :: others)).display.toList =
      first.toList ++ (['.'] ++ (Param.id (second :: others)).display.toList) := by
  simp only [Param.display, String.intercalate_cons_cons, String.toList_append, List.append_assoc]
  rfl

theorem joined_display (hnonempty : segments ≠ []) :
    Joined segments (Param.id segments).display.toList := by
  induction segments with
  | nil => exact absurd rfl hnonempty
  | cons first rest ih =>
      cases rest with
      | nil =>
          have hlast : Joined [first] (first.toList ++ []) := .last (List.forall_mem_nil _)
          rwa [List.append_nil] at hlast
      | cons second others =>
          rw [display_cons_cons]
          exact .cons (by decide) (by decide) (ih (List.cons_ne_nil _ _))

theorem splitPath_display_this (hsegments : ∀ segment ∈ segments, IsSegment segment) :
    splitPath (Param.id ("this" :: segments)).display.toList ≠ "this" :: segments := by
  cases segments with
  | nil => decide
  | cons second others =>
      have hothers : Joined (second :: others) (Param.id (second :: others)).display.toList :=
        joined_display (List.cons_ne_nil second others)
      have hruns := hothers.map_runs (List.forall_mem_nil _) hsegments
      rw [List.nil_append] at hruns
      -- the text goes on behind `this.`, so that only the other segments can be found
      have hsplit := splitPath_this (.inl rfl) (Param.id (second :: others)).display.toList
      rw [hruns] at hsplit
      rw [display_cons_cons]
      intro hsame
      have hshort := hsplit.symm.trans hsame
      split at hshort
      · exact absurd hshort.symm (List.cons_ne_nil _ _)
      · exact absurd hshort.symm (List.cons_ne_self _ _)

/-- A path that starts with `this` is not found again, as it means the rest of itself. -/
theorem splitPath_display_iff (hsegments : ∀ segment ∈ segments, IsSegment segment) :
    splitPath (Param.id segments).display.toList = segments ↔ segments.head? ≠ some "this" := by
  constructor
  · intro hsplit hthis
    obtain ⟨others, rfl⟩ := List.head?_eq_some_iff.mp hthis
    exact splitPath_display_this (List.forall_mem_cons.mp hsegments).2 hsplit
  · intro hthis
    by_cases hnonempty : segments = []
    · subst hnonempty
      rfl
    · exact (joined_display hnonempty).splitPath_eq (List.forall_mem_nil _) hsegments hthis

/-- Splitting a token inverts writing a path: however segments are joined by dots and slashes, with
more of these before and behind or a leading `this`, splitting gives the segments. Whatever it gives
are segments, and a path is found again in its own text exactly if it does not start with `this`. -/
theorem splitPath_inverts_joining :
    (∀ segments front text, AllSeparators front → Joined segments text →
      (∀ segment ∈ segments, IsSegment segment) → segments.head? ≠ some "this" →
      splitPath (front ++ text) = segments ∧
      ∀ mark, mark = '.' ∨ mark = '/' →
        splitPath (['t', 'h', 'i', 's'] ++ mark :: (front ++ text)) = segments) ∧
    (∀ token, ∀ segment ∈ splitPath token, IsSegment segment) ∧
    ∀ segments, (∀ segment ∈ segments, IsSegment segment) →
      (splitPath (Param.id segments).display.toList = segments ↔
        segments.head? ≠ some "this") := by
  refine ⟨fun segments front text hfront hjoined hsegments hthis => ⟨?_, fun mark hmark => ?_⟩,
    fun token segment hsegment => ?_, fun segments hsegments => ?_⟩
  · exact hjoined.splitPath_eq hfront hsegments hthis
  · exact hjoined.splitPath_this_eq hfront hsegments hthis hmark
  · exact isSegment_of_mem_splitPath hsegment
  · exact splitPath_display_iff hsegments

theorem splitPath_inverts_joining_post :
    Joined ["post", "this", "1st"] "post./this.1st//".toList ∧
      splitPath "../post./this.1st//".toList = ["post", "this", "1st"] ∧
      splitPath "this/../post./this.1st//".toList = ["post", "this", "1st"] ∧
      splitPath (Param.id ["post", "this", "1st"]).display.toList = ["post", "this", "1st"] := by
  have hjoined : Joined ["post", "this", "1st"] ("post".toList ++ (['.', '/'] ++
      ("this".toList ++ (['.'] ++ ("1st".toList ++ ['/', '/']))))) :=
    .cons (by decide) (by decide) (.cons (by decide) (by decide) (.last (by decide)))
  have hsegments : ∀ segment ∈ ["post", "this", "1st"], IsSegment segment := by decide
  have hthis : ["post", "this", "1st"].head? ≠ some "this" := by decide
  obtain ⟨hsplits, -, hdisplay⟩ := splitPath_inverts_joining
  obtain ⟨hplain, hmarked⟩ := hsplits _ ['.', '.', '/'] _ (by decide) hjoined hsegments hthis
  exact ⟨hjoined, hplain, hmarked '/' (.inr rfl), (hdisplay _ hsegments).mpr hthis⟩

end MustacheHtml.Expression
