import MustacheHtml.Proofs.Bytewise.Scan
import MustacheHtml.Proofs.Expression.Words
import MustacheHtml.Proofs.Template.Passing
import MustacheHtml.Proofs.Template.Scanning
import MustacheHtml.Proofs.Template.TagPlaces

namespace MustacheHtml.Template

open Text (byteLength bytes isAscii Uniform)

section Tests

variable {c d : Char}

theorem ne_of_not_isAscii (hc : isAscii c = false) (hd : isAscii d) : c ≠ d := by
  rintro rfl
  exact Bool.false_ne_true (hc.symm.trans hd)

theorem uniform_of_ascii {test : Char → Bool} (htest : ∀ c, test c = true → isAscii c) :
    Uniform test := by
  refine ⟨false, fun c hc => ?_⟩
  rw [← Bool.not_eq_true]
  exact fun hpasses => Bool.false_ne_true (hc.symm.trans (htest c hpasses))

theorem isAscii_of_isSpace (hc : Text.isSpace c = true) : isAscii c := by
  simp only [Text.isSpace, Bool.or_eq_true, beq_iff_eq] at hc
  rcases hc with (((rfl | rfl) | rfl) | rfl) | rfl <;> decide

theorem isAscii_of_isQuote (hc : Text.isQuote c = true) : isAscii c := by
  rcases Expression.quote_cases hc with rfl | rfl <;> decide

theorem isAscii_of_isAlpha (hc : c.isAlpha = true) : isAscii c := by
  have hbounds := (Expression.isAlpha_iff c).mp hc
  refine decide_eq_true ?_
  omega

theorem isAscii_of_isNameChar (hc : isNameChar c = true) : isAscii c := by
  simp only [isNameChar, Char.isAlphanum, Bool.or_eq_true, beq_iff_eq] at hc
  rcases hc with ((((halpha | hdigit) | rfl) | rfl) | rfl) | rfl
  · exact isAscii_of_isAlpha halpha
  · have hbounds := (Expression.isDigit_iff c).mp hdigit
    refine decide_eq_true ?_
    omega
  all_goals decide

theorem uniform_isSpace : Uniform Text.isSpace :=
  uniform_of_ascii fun _ hc => isAscii_of_isSpace hc

theorem uniform_isQuote : Uniform Text.isQuote :=
  uniform_of_ascii fun _ hc => isAscii_of_isQuote hc

theorem uniform_isNameChar : Uniform isNameChar :=
  uniform_of_ascii fun _ hc => isAscii_of_isNameChar hc

theorem uniform_isAttributeNameChar : Uniform isAttributeNameChar := by
  refine ⟨true, fun c hc => ?_⟩
  have hspace : Text.isSpace c = false := by
    rw [← Bool.not_eq_true]
    exact fun hspace => Bool.false_ne_true (hc.symm.trans (isAscii_of_isSpace hspace))
  have hne : ∀ d, isAscii d → (c == d) = false := fun d hd =>
    beq_false_of_ne (ne_of_not_isAscii hc hd)
  rw [isAttributeNameChar, hspace, hne '/' rfl, hne '>' rfl, hne '=' rfl, hne '"' rfl,
    hne '\'' rfl, hne '<' rfl]
  rfl

theorem startsMustache_bytes (text : List Char) :
    startsMustache (bytes text) = startsMustache text := by
  rw [Bool.eq_iff_iff, startsMustache_iff, startsMustache_iff]
  exact Text.prefix_bytes_iff rfl

theorem startsMarkup_bytes (text : List Char) : startsMarkup (bytes text) = startsMarkup text := by
  rw [Bool.eq_iff_iff, startsMarkup_iff, startsMarkup_iff, OpensMarkup, OpensMarkup,
    Text.prefix_bytes_iff rfl, Text.prefix_bytes_iff rfl,
    Text.prefix_bytes_iff rfl]
  refine or_congr_right (or_congr_right (or_congr_right (exists_congr fun letter =>
    and_congr_right fun hletter => Text.prefix_bytes_iff ?_)))
  rw [List.all_cons, List.all_cons, isAscii_of_isAlpha hletter]
  rfl

end Tests

/-- The cursor is a place of the source, between two characters. -/
def Cursor.StandsIn (cursor : Cursor) (source : List Char) : Prop :=
  ∃ before, source = before ++ cursor.rest ∧ cursor.offset = byteLength before

theorem Cursor.Passes.offset_lt {cursor next : Cursor} {span : List Char}
    (hpasses : cursor.Passes span next) (hshorter : next.rest.length < cursor.rest.length) :
    cursor.offset < next.offset := by
  rw [hpasses.offset_eq]
  exact Nat.lt_add_of_pos_right (Text.byteLength_pos (hpasses.ne_nil hshorter))

namespace Bytewise

/-- What a scan has found, with the place where it ends as an offset. -/
def placed {α : Type} : Except FaultAt (α × Cursor) → Except Halt (α × Nat)
  | .ok (found, next) => .ok (found, next.offset)
  | .error found => .error (.fault found)

/-- Where a scan ends, as an offset. -/
def reached : Except FaultAt Cursor → Except Halt Nat
  | .ok next => .ok next.offset
  | .error found => .error (.fault found)

section Bytes

variable {source front back rest : List Char} {place : Nat} {b : Char}

theorem byte?_eq_head? (source : List Char) (place : Nat) :
    byte? source place = (ahead source place).head? := by
  rw [byte?, ahead, List.head?_drop]

theorem ahead_succ (hahead : ahead source place = b :: rest) :
    ahead source (place + 1) = rest := by
  rw [ahead, ← List.drop_drop, ← ahead, hahead, List.drop_succ_cons, List.drop_zero]

theorem eq_behind {α : Type} {scan : Nat → α} (hahead : ahead source place = front ++ back)
    (hstep : ∀ here, place ≤ here → ∀ b ∈ front, (ahead source here).head? = some b →
      scan here = scan (here + 1)) : scan place = scan (place + front.length) := by
  induction front generalizing place with
  | nil => rfl
  | cons b front ih =>
      have hfirst := hstep place (Nat.le_refl _) b List.mem_cons_self
        (by rw [hahead, List.cons_append, List.head?_cons])
      have hothers := ih (ahead_succ hahead) fun here hhere b hb =>
        hstep here (Nat.le_of_succ_le hhere) b (List.mem_cons_of_mem _ hb)
      rw [hfirst, hothers, List.length_cons, Nat.add_right_comm, Nat.add_assoc]

end Bytes

end Bytewise

namespace Cursor.StandsIn

open Bytewise

variable {source span : List Char} {cursor next : Cursor}

theorem start (source : List Char) : (Cursor.start source).StandsIn source :=
  ⟨[], rfl, rfl⟩

theorem passes (hstands : cursor.StandsIn source) (hpasses : cursor.Passes span next) :
    next.StandsIn source := by
  obtain ⟨before, hsource, hoffset⟩ := hstands
  refine ⟨before ++ span, ?_, ?_⟩
  · rw [hsource, hpasses.rest_eq, List.append_assoc]
  · rw [hpasses.offset_eq, hoffset, Text.byteLength_append]

theorem advance (hstands : cursor.StandsIn source) (count : Nat) :
    (cursor.advance count).StandsIn source :=
  hstands.passes (cursor.passes_advance count)

theorem skipSpace (hstands : cursor.StandsIn source) : cursor.skipSpace.StandsIn source :=
  hstands.passes cursor.passes_skipSpace

theorem byteLength_eq (hstands : cursor.StandsIn source) :
    byteLength source = cursor.offset + byteLength cursor.rest := by
  obtain ⟨before, hsource, hoffset⟩ := hstands
  rw [hsource, Text.byteLength_append, hoffset]

theorem offset_lt_iff (hstands : cursor.StandsIn source) :
    cursor.offset < byteLength source ↔ cursor.rest ≠ [] := by
  rw [hstands.byteLength_eq]
  constructor
  · intro hlt hnil
    rw [hnil] at hlt
    exact Nat.lt_irrefl _ hlt
  · intro hleft
    exact Nat.lt_add_of_pos_right (Text.byteLength_pos hleft)

theorem goTo_eq (hstands : cursor.StandsIn source) :
    goTo source cursor.offset = .ok cursor.offset := by
  rw [goTo, if_pos]
  rw [hstands.byteLength_eq]
  exact Nat.le_add_right _ _

theorem ahead_eq (hstands : cursor.StandsIn source) :
    ahead source cursor.offset = bytes cursor.rest := by
  obtain ⟨before, hsource, hoffset⟩ := hstands
  rw [ahead, hsource, hoffset, Text.bytes_append, ← Text.length_bytes, List.drop_left]

theorem byte?_eq (hstands : cursor.StandsIn source) :
    byte? source cursor.offset = (bytes cursor.rest).head? := by
  rw [← hstands.ahead_eq, byte?_eq_head?]

theorem exists_byte {c : Char} {rest : List Char} (hstands : cursor.StandsIn source)
    (hrest : cursor.rest = c :: rest) :
    ∃ b ∈ Text.charBytes c, byte? source cursor.offset = some b := by
  obtain ⟨b, others, hbytes⟩ := List.exists_cons_of_ne_nil (Text.charBytes_ne_nil c)
  refine ⟨b, hbytes ▸ List.mem_cons_self, ?_⟩
  rw [hstands.byte?_eq, hrest, Text.bytes_cons, hbytes]
  rfl

theorem byte?_eq_some_iff {c : Char} (hstands : cursor.StandsIn source) (hc : isAscii c) :
    byte? source cursor.offset = some c ↔ cursor.rest.head? = some c := by
  rw [hstands.byte?_eq]
  exact Text.head?_bytes_eq_iff hc

theorem byte?_of_ascii {c : Char} {rest : List Char} (hstands : cursor.StandsIn source)
    (hrest : cursor.rest = c :: rest) (hc : isAscii c) :
    byte? source cursor.offset = some c := by
  rw [hstands.byte?_eq_some_iff hc, hrest, List.head?_cons]

theorem byte?_succ_eq {c : Char} {rest : List Char} (hstands : cursor.StandsIn source)
    (hrest : cursor.rest = c :: rest) (hc : isAscii c) :
    byte? source (cursor.offset + 1) = (bytes rest).head? := by
  rw [byte?_eq_head?, ahead_succ]
  rw [hstands.ahead_eq, hrest, Text.bytes_of_ascii hc]

/-- What has been passed is a slice of the source. -/
theorem slice_eq (hstands : cursor.StandsIn source) (hpasses : cursor.Passes span next) :
    slice source cursor.offset next.offset = .ok span := by
  obtain ⟨before, hsource, hoffset⟩ := hstands
  have hbetween : Text.between? source cursor.offset next.offset = some span := by
    refine Text.between?_eq_some_iff.mpr ⟨before, next.rest, ?_, hoffset, hpasses.offset_eq⟩
    rw [hsource, hpasses.rest_eq, List.append_assoc]
  rw [slice, hbetween]

theorem restAt_eq (hstands : cursor.StandsIn source) :
    restAt source cursor.offset = .ok cursor.rest := by
  have hpasses : cursor.Passes cursor.rest ⟨cursor.offset + byteLength cursor.rest, []⟩ :=
    ⟨(List.append_nil _).symm, rfl⟩
  rw [restAt, hstands.byteLength_eq]
  exact hstands.slice_eq hpasses

theorem goTo_succ {c : Char} (hstands : cursor.StandsIn source) (hc : isAscii c)
    (hhead : cursor.rest.head? = some c) :
    goTo source (cursor.offset + 1) = .ok (cursor.advance 1).offset := by
  obtain ⟨rest, hrest⟩ := List.head?_eq_some_iff.mp hhead
  have hplace : (cursor.advance 1).offset = cursor.offset + 1 := by
    rw [Cursor.advance_cons hrest, Text.byteLength, Text.utf8Size_of_ascii hc]
    rfl
  rw [← hplace, (hstands.advance 1).goTo_eq]

theorem atMustache_eq (hstands : cursor.StandsIn source) :
    atMustache source cursor.offset = .ok (startsMustache cursor.rest) := by
  have hbound : cursor.offset ≤ byteLength source := by
    rw [hstands.byteLength_eq]
    exact Nat.le_add_right _ _
  rw [atMustache, if_pos hbound, hstands.ahead_eq, startsMustache_bytes]

theorem walk_eq {test : Char → Bool} (hstands : cursor.StandsIn source) (huniform : Uniform test) :
    walk source test cursor.offset =
      (cursor.advance (cursor.rest.takeWhile test).length).offset := by
  have hpasses := Cursor.passes_of_prefix (List.takeWhile_prefix test (l := cursor.rest))
  rw [hpasses.offset_eq, walk, hstands.ahead_eq, Text.takeWhile_bytes huniform, Text.length_bytes]

theorem skipSpace_eq (hstands : cursor.StandsIn source) :
    Bytewise.skipSpace source cursor.offset = cursor.skipSpace.offset :=
  hstands.walk_eq uniform_isSpace

theorem skipPast_eq (hstands : cursor.StandsIn source) (mark : List Char) (fault : Fault) :
    Bytewise.skipPast source mark fault cursor.offset =
      reached (Template.skipPast mark fault cursor) := by
  rw [Bytewise.skipPast, hstands.restAt_eq, Template.skipPast]
  simp only [bind, Except.bind]
  cases hcut : Text.cut? mark cursor.rest with
  | none => rfl
  | some halves =>
      obtain ⟨before, after⟩ := halves
      have hbegins : before ++ mark <+: cursor.rest := by
        rw [Text.cut?_eq_append hcut]
        exact List.prefix_append _ _
      have hpasses := Cursor.passes_of_prefix hbegins
      have hoffset := hpasses.offset_eq
      rw [Text.byteLength_append, ← Nat.add_assoc] at hoffset
      dsimp only
      rw [← List.length_append, reached, ← hoffset]
      exact (hstands.passes hpasses).goTo_eq

end Cursor.StandsIn

end MustacheHtml.Template
