import Mathlib.Data.List.Forall2
import Mathlib.Data.Nat.Digits.Defs
import MustacheHtml.Reference
import MustacheHtml.Text.Location

/-!
Which references are read in template source: those of the grammar of character references, and
besides them numbers with a plus sign. All else stands for itself.
-/

namespace MustacheHtml.Reference

/-- A digit of numbers in the base, and what it is worth. The letters among the digits may be small
or capital. -/
def DigitOf (base : Nat) (c : Char) (value : Nat) : Prop :=
  value < base ∧ (c = Nat.digitChar value ∨ c = (Nat.digitChar value).toUpper)

instance (base : Nat) (c : Char) (value : Nat) : Decidable (DigitOf base c value) :=
  inferInstanceAs (Decidable (value < base ∧ _))

/-- One or more digits in the base, the most significant first, and their number. -/
def Numeral (base : Nat) (digits : List Char) (number : Nat) : Prop :=
  ∃ values, values ≠ [] ∧ List.Forall₂ (DigitOf base) digits values ∧
    number = Nat.ofDigits base values.reverse

section Numeral

variable {base number : Nat} {digits text : List Char} {isDigit : Char → Bool}
  {valueOf : Char → Nat}

theorem forall₂_digitOf_iff
    (hdigit : ∀ c value, DigitOf base c value ↔ isDigit c = true ∧ value = valueOf c)
    {values : List Nat} :
    List.Forall₂ (DigitOf base) digits values ↔
      digits.all isDigit = true ∧ values = digits.map valueOf := by
  induction digits generalizing values with
  | nil => simp
  | cons c rest ih =>
      rw [List.forall₂_cons_left_iff]
      constructor
      · rintro ⟨value, others, hc, hrest, rfl⟩
        obtain ⟨hisDigit, rfl⟩ := (hdigit c value).mp hc
        obtain ⟨hall, rfl⟩ := ih.mp hrest
        exact ⟨by rw [List.all_cons, hisDigit, hall, Bool.and_self], rfl⟩
      · rintro ⟨hall, rfl⟩
        rw [List.all_cons, Bool.and_eq_true] at hall
        exact ⟨_, _, (hdigit c _).mpr ⟨hall.1, rfl⟩, ih.mpr ⟨hall.2, rfl⟩, rfl⟩

theorem numeral_iff
    (hdigit : ∀ c value, DigitOf base c value ↔ isDigit c = true ∧ value = valueOf c) :
    Numeral base digits number ↔ (!digits.isEmpty && digits.all isDigit) = true ∧
      number = digits.foldl (fun n c => base * n + valueOf c) 0 := by
  have hnumber : Nat.ofDigits base (digits.map valueOf).reverse =
      digits.foldl (fun n c => base * n + valueOf c) 0 := by
    rw [Nat.ofDigits_eq_foldr, List.foldr_reverse, List.foldl_map]
    simp only [Nat.cast_id, Nat.add_comm]
  simp only [Numeral, forall₂_digitOf_iff hdigit, ← hnumber]
  constructor
  · rintro ⟨_, hvalues, ⟨hall, rfl⟩, rfl⟩
    simpa [hall] using hvalues
  · rintro ⟨hdigits, rfl⟩
    rw [Bool.and_eq_true] at hdigits
    exact ⟨_, by simpa using hdigits.1, ⟨hdigits.2, rfl⟩, rfl⟩

theorem lt_of_isHexDigit {c : Char} (hdigit : Text.isHexDigit c = true) : c.toNat < 128 := by
  change (decide (48 ≤ c.toNat) && decide (c.toNat ≤ 57) ||
    (decide (97 ≤ c.toNat) && decide (c.toNat ≤ 102)) ||
    (decide (65 ≤ c.toNat) && decide (c.toNat ≤ 70))) = true at hdigit
  simp only [Bool.or_eq_true, Bool.and_eq_true, decide_eq_true_eq] at hdigit
  omega

theorem isHexDigit_of_isDigit {c : Char} (hdigit : c.isDigit = true) :
    Text.isHexDigit c = true := by
  rw [Text.isHexDigit, hdigit, Bool.true_or, Bool.true_or]

/-- What a test takes for a digit and what it is worth can be compared with the digits of the base
character by character, since all of them are in ASCII. -/
theorem digitOf_iff
    (hlower : ∀ value < base, isDigit (Nat.digitChar value) = true ∧
      value = valueOf (Nat.digitChar value))
    (hupper : ∀ value < base, isDigit (Nat.digitChar value).toUpper = true ∧
      value = valueOf (Nat.digitChar value).toUpper)
    (hascii : ∀ n < 128, isDigit (Char.ofNat n) = true →
      DigitOf base (Char.ofNat n) (valueOf (Char.ofNat n)))
    (hhex : ∀ c, isDigit c = true → Text.isHexDigit c = true) (c : Char) (value : Nat) :
    DigitOf base c value ↔ isDigit c = true ∧ value = valueOf c := by
  constructor
  · rintro ⟨hlt, rfl | rfl⟩
    · exact hlower value hlt
    · exact hupper value hlt
  · rintro ⟨hdigit, rfl⟩
    have hc := hascii c.toNat (lt_of_isHexDigit (hhex c hdigit))
    rw [Char.ofNat_toNat] at hc
    exact hc hdigit

theorem digitOf_ten (c : Char) (value : Nat) :
    DigitOf 10 c value ↔ c.isDigit = true ∧ value = Decimal.digitValue c :=
  digitOf_iff (by decide) (by decide) (by decide) (fun _ => isHexDigit_of_isDigit) c value

theorem digitOf_sixteen (c : Char) (value : Nat) :
    DigitOf 16 c value ↔ Text.isHexDigit c = true ∧ value = hexValue c :=
  digitOf_iff (by decide) (by decide) (by decide) (fun _ => id) c value

theorem Numeral.isHexDigit (hnumeral : Numeral base digits number) (hbase : base ≤ 16) :
    ∀ c ∈ digits, Text.isHexDigit c = true := by
  obtain ⟨values, -, hdigits, -⟩ := hnumeral
  induction hdigits with
  | nil => exact fun _ hmem => nomatch hmem
  | cons hfirst _ ih =>
      refine List.forall_mem_cons.mpr ⟨?_, ih⟩
      exact ((digitOf_sixteen _ _).mp ⟨Nat.lt_of_lt_of_le hfirst.1 hbase, hfirst.2⟩).1

theorem Numeral.not_mem (hnumeral : Numeral base digits number) (hbase : base ≤ 16) {mark : Char}
    (hmark : Text.isHexDigit mark = false) : mark ∉ digits := fun hmem =>
  Bool.false_ne_true (hmark.symm.trans (hnumeral.isHexDigit hbase mark hmem))

theorem numeral_dropPlus_iff (hbase : base ≤ 16) :
    Numeral base (Decimal.dropPlus text) number ↔
      Numeral base text number ∨ ∃ digits, text = '+' :: digits ∧ Numeral base digits number := by
  unfold Decimal.dropPlus
  split
  · next digits =>
      have hplus : ¬ Numeral base ('+' :: digits) number := fun hnumeral =>
        hnumeral.not_mem hbase (by decide) List.mem_cons_self
      simp [hplus]
  · next hplus =>
      refine (or_iff_left ?_).symm
      rintro ⟨digits, rfl, -⟩
      exact hplus digits rfl

theorem natural?_eq_some_iff : Decimal.natural? text = some number ↔
    Numeral 10 text number ∨ ∃ digits, text = '+' :: digits ∧ Numeral 10 digits number := by
  rw [← numeral_dropPlus_iff (by decide), numeral_iff digitOf_ten, Decimal.natural?]
  rw [Decimal.isDigits, Decimal.natOfDigits, Option.ite_none_right_eq_some, Option.some.injEq,
    eq_comm (a := number)]

theorem hexadecimal?_eq_some_iff : hexadecimal? text = some number ↔
    Numeral 16 text number ∨ ∃ digits, text = '+' :: digits ∧ Numeral 16 digits number := by
  rw [← numeral_dropPlus_iff (Nat.le_refl 16), numeral_iff digitOf_sixteen, hexadecimal?, natOfHex]
  rw [Option.ite_none_right_eq_some, Option.some.injEq, eq_comm (a := number)]

end Numeral

/-- The names that stand for a character. -/
def names : List (List Char × Char) :=
  [("amp".toList, '&'), ("lt".toList, '<'), ("gt".toList, '>'), ("quot".toList, '"'),
    ("apos".toList, '\''), ("nbsp".toList, '\xa0')]

/-- What stands between the ampersand and the semicolon of a reference to a character: a name, or
the number of the character. -/
inductive WellFormed : List Char → Char → Prop
  | name {body : List Char} {c : Char} (hname : (body, c) ∈ names) : WellFormed body c
  | decimal {digits : List Char} {c : Char} (hnumeral : Numeral 10 digits c.toNat) :
      WellFormed ('#' :: digits) c
  | hexadecimal {mark : Char} {digits : List Char} {c : Char} (hmark : mark = 'x' ∨ mark = 'X')
      (hnumeral : Numeral 16 digits c.toNat) : WellFormed ('#' :: mark :: digits) c

/-- The number of a character behind a plus sign. No reference of the grammar has one. -/
inductive Signed : List Char → Char → Prop
  | decimal {digits : List Char} {c : Char} (hnumeral : Numeral 10 digits c.toNat) :
      Signed ('#' :: '+' :: digits) c
  | hexadecimal {mark : Char} {digits : List Char} {c : Char} (hmark : mark = 'x' ∨ mark = 'X')
      (hnumeral : Numeral 16 digits c.toNat) : Signed ('#' :: mark :: '+' :: digits) c

/-- What is read as a reference. -/
def Readable (body : List Char) (c : Char) : Prop :=
  WellFormed body c ∨ Signed body c

section Body

variable {body number : List Char} {c : Char} {code : Nat}

theorem scalar?_eq_some_iff : scalar? code = some c ↔ code = c.toNat := by
  unfold scalar?
  split
  · next hvalid =>
      have hcode : (Char.ofNat code).toNat = code := by
        rw [Char.ofNat, dif_pos hvalid]
        rfl
      rw [Option.some.injEq]
      constructor
      · rintro rfl
        exact hcode.symm
      · rintro rfl
        exact Char.ofNat_toNat c
  · next hvalid =>
      refine iff_of_false nofun ?_
      rintro rfl
      exact hvalid c.valid

theorem readable_number_iff : Readable ('#' :: number) c ↔
    Decimal.natural? number = some c.toNat ∨ ∃ mark rest, number = mark :: rest ∧
      (mark = 'x' ∨ mark = 'X') ∧ hexadecimal? rest = some c.toNat := by
  simp only [natural?_eq_some_iff, hexadecimal?_eq_some_iff]
  constructor
  · rintro ((hname | hdecimal | ⟨hmark, hdigits⟩) | (hdecimal | ⟨hmark, hdigits⟩))
    · simp [names] at hname
    · exact .inl (.inl hdecimal)
    · exact .inr ⟨_, _, rfl, hmark, .inl hdigits⟩
    · exact .inl (.inr ⟨_, rfl, hdecimal⟩)
    · exact .inr ⟨_, _, rfl, hmark, .inr ⟨_, rfl, hdigits⟩⟩
  · rintro ((hdecimal | ⟨digits, rfl, hdecimal⟩) |
      ⟨mark, rest, rfl, hmark, hdigits | ⟨digits, rfl, hdigits⟩⟩)
    · exact .inl (.decimal hdecimal)
    · exact .inr (.decimal hdecimal)
    · exact .inl (.hexadecimal hmark hdigits)
    · exact .inr (.hexadecimal hmark hdigits)

theorem natural?_mark {mark : Char} (hmark : mark = 'x' ∨ mark = 'X') (rest : List Char) :
    Decimal.natural? (mark :: rest) = none := by
  rw [Option.eq_none_iff_forall_ne_some]
  intro code hcode
  rcases natural?_eq_some_iff.mp hcode with hnumeral | ⟨digits, hsigned, -⟩
  · refine hnumeral.not_mem (by decide) ?_ List.mem_cons_self
    rcases hmark with rfl | rfl <;> decide
  · rcases hmark with rfl | rfl <;> cases hsigned

theorem codePoint?_eq_some_iff : codePoint? number = some c.toNat ↔ Readable ('#' :: number) c := by
  rw [readable_number_iff]
  unfold codePoint?
  split
  · next rest => simp [natural?_mark (.inl rfl)]
  · next rest => simp [natural?_mark (.inr rfl)]
  · next hsmall hcapital =>
      refine (or_iff_left ?_).symm
      rintro ⟨mark, rest, rfl, rfl | rfl, -⟩
      · exact hsmall rest rfl
      · exact hcapital rest rfl

theorem char?_eq_some_iff : char? body = some c ↔ Readable body c := by
  have hnamed : ∀ name, (∀ number, name ≠ '#' :: number) →
      (Readable name c ↔ (name, c) ∈ names) := by
    intro name hname
    constructor
    · rintro ((hmem | hdecimal | ⟨hmark, hdigits⟩) | (hdecimal | ⟨hmark, hdigits⟩))
      · exact hmem
      all_goals exact absurd rfl (hname _)
    · exact fun hmem => .inl (.name hmem)
  unfold char?
  split
  case h_1 number =>
    simp only [Option.bind_eq_some_iff, scalar?_eq_some_iff, exists_eq_right,
      codePoint?_eq_some_iff]
  case h_8 hnumber hamp hlt hgt hquot hapos hnbsp =>
    rw [hnamed body hnumber]
    refine iff_of_false nofun fun hmem => ?_
    simp [names] at hmem
    grind
  all_goals
    rw [hnamed _ (by simp)]
    constructor
    · rintro ⟨⟩
      decide
    · intro hmem
      simp [names] at hmem
      rw [hmem]

theorem WellFormed.not_mem (hformed : WellFormed body c) {mark : Char}
    (hmark : mark = '&' ∨ mark = '+') : mark ∉ body := by
  have hmarkDigit : Text.isHexDigit mark = false := by rcases hmark with rfl | rfl <;> decide
  cases hformed with
  | name hname =>
      have hnames : ∀ entry ∈ names, '&' ∉ entry.1 ∧ '+' ∉ entry.1 := by decide
      rcases hmark with rfl | rfl
      · exact (hnames _ hname).1
      · exact (hnames _ hname).2
  | decimal hnumeral =>
      have hdigits := hnumeral.not_mem (by decide) hmarkDigit
      rcases hmark with rfl | rfl <;> simpa using hdigits
  | hexadecimal hx hnumeral =>
      have hdigits := hnumeral.not_mem (Nat.le_refl 16) hmarkDigit
      rcases hmark with rfl | rfl <;> rcases hx with rfl | rfl <;> simpa using hdigits

theorem Signed.plus_mem (hsigned : Signed body c) : '+' ∈ body := by
  cases hsigned <;> simp

theorem Readable.ampersand_not_mem (hreads : Readable body c) : '&' ∉ body := by
  rcases hreads with hformed | (hdigits | ⟨hmark, hdigits⟩)
  · exact hformed.not_mem (.inl rfl)
  · simpa using hdigits.not_mem (by decide) (by decide)
  · have hclean : '&' ∉ _ := hdigits.not_mem (Nat.le_refl 16) (by decide)
    rcases hmark with rfl | rfl <;> simpa using hclean

end Body

/-- A reference stands at the beginning of the text, behind its ampersand: a body that is read as
one, in no more than nine bytes, up to the next semicolon. -/
def Refers (reads : List Char → Char → Prop) (text : List Char) (c : Char) (after : List Char) :
    Prop :=
  ∃ body, text = body ++ ';' :: after ∧ ';' ∉ body ∧ Text.byteLength body ≤ 9 ∧ reads body c

/-- A text with the references replaced by their characters, from left to right. What has been
decoded is not looked at again, and all other characters are kept. -/
inductive Decodes (reads : List Char → Char → Prop) : List Char → List Char → Prop
  | nil : Decodes reads [] []
  | reference {rest after decoded : List Char} {c : Char} (hrefers : Refers reads rest c after)
      (hafter : Decodes reads after decoded) : Decodes reads ('&' :: rest) (c :: decoded)
  | ampersand {rest decoded : List Char} (hbare : ∀ c after, ¬ Refers reads rest c after)
      (hrest : Decodes reads rest decoded) : Decodes reads ('&' :: rest) ('&' :: decoded)
  | other {rest decoded : List Char} {c : Char} (hother : c ≠ '&')
      (hrest : Decodes reads rest decoded) : Decodes reads (c :: rest) (c :: decoded)

section Decode

variable {reads : List Char → Char → Prop} {text body after decoded : List Char} {c : Char}

theorem body?_eq_some_iff {bytes : Nat} : body? bytes text = some (body, after) ↔
    text = body ++ ';' :: after ∧ ';' ∉ body ∧ Text.byteLength body ≤ bytes := by
  induction text generalizing bytes body with
  | nil => simp [body?]
  | cons first rest ih =>
      rw [body?]
      by_cases hend : first = ';'
      · subst hend
        rw [if_pos rfl]
        constructor
        · rintro ⟨⟩
          simp [Text.byteLength]
        · rintro ⟨hsplit, hbody, -⟩
          cases body with
          | nil => simpa using hsplit
          | cons other body =>
              obtain ⟨rfl, -⟩ := List.cons.inj hsplit
              simp at hbody
      · rw [if_neg hend]
        constructor
        · intro hfound
          split at hfound
          · next hfits =>
              simp only [Option.map_eq_some_iff, Prod.exists, Prod.mk.injEq] at hfound
              obtain ⟨inner, _, hinner, rfl, rfl⟩ := hfound
              obtain ⟨rfl, hclean, hlength⟩ := ih.mp hinner
              refine ⟨rfl, by simpa [Ne.symm hend] using hclean, ?_⟩
              rw [Text.byteLength]
              omega
          · cases hfound
        · rintro ⟨hsplit, hclean, hlength⟩
          cases body with
          | nil => exact absurd (List.cons.inj hsplit).1 hend
          | cons other inner =>
              obtain ⟨rfl, hrest⟩ := List.cons.inj hsplit
              rw [Text.byteLength] at hlength
              rw [List.mem_cons, not_or] at hclean
              have hinner : body? (bytes - first.utf8Size) rest = some (inner, after) :=
                ih.mpr ⟨hrest, hclean.2, by omega⟩
              rw [if_pos (by omega), hinner]
              rfl

theorem read?_eq_some_iff : read? text = some (c, after) ↔ Refers Readable text c after := by
  simp only [read?, Option.bind_eq_some_iff, Option.map_eq_some_iff, Prod.exists, Prod.mk.injEq,
    body?_eq_some_iff, char?_eq_some_iff, Refers]
  constructor
  · rintro ⟨body, after, ⟨rfl, hbody, hlength⟩, c, hreads, rfl, rfl⟩
    exact ⟨body, rfl, hbody, hlength, hreads⟩
  · rintro ⟨body, rfl, hbody, hlength, hreads⟩
    exact ⟨body, after, ⟨rfl, hbody, hlength⟩, c, hreads, rfl, rfl⟩

theorem decode_nil : decode [] = [] := by
  rw [decode]

theorem decode_other (hother : c ≠ '&') (rest : List Char) :
    decode (c :: rest) = c :: decode rest := by
  rw [decode, if_neg hother]

theorem decode_reference {rest : List Char} (hrefers : Refers Readable rest c after) :
    decode ('&' :: rest) = c :: decode after := by
  have hread := read?_eq_some_iff.mpr hrefers
  rw [decode, if_pos rfl]
  split
  · next hfound =>
      rw [hread] at hfound
      cases hfound
      rfl
  · next hfound =>
      rw [hread] at hfound
      cases hfound

theorem decode_ampersand {rest : List Char} (hbare : ∀ c after, ¬ Refers Readable rest c after) :
    decode ('&' :: rest) = '&' :: decode rest := by
  rw [decode, if_pos rfl]
  split
  · next hfound => exact absurd (read?_eq_some_iff.mp hfound) (hbare _ _)
  · rfl

theorem decodes_decode (text : List Char) : Decodes Readable text (decode text) := by
  induction text using decode.induct with
  | case1 =>
      rw [decode_nil]
      exact .nil
  | case2 rest decoded after hfound ih =>
      have hrefers := read?_eq_some_iff.mp hfound
      rw [decode_reference hrefers]
      exact .reference hrefers ih
  | case3 rest hnone ih =>
      have hbare : ∀ c after, ¬ Refers Readable rest c after := by
        intro c after hrefers
        rw [read?_eq_some_iff.mpr hrefers] at hnone
        cases hnone
      rw [decode_ampersand hbare]
      exact .ampersand hbare ih
  | case4 c rest hother ih =>
      rw [decode_other hother]
      exact .other hother ih

theorem decodes_iff : Decodes Readable text decoded ↔ decoded = decode text := by
  constructor
  · intro hdecodes
    induction hdecodes with
    | nil => exact decode_nil.symm
    | reference hrefers _ ih => rw [decode_reference hrefers, ih]
    | ampersand hbare _ ih => rw [decode_ampersand hbare, ih]
    | other hother _ ih => rw [decode_other hother, ih]
  · rintro rfl
    exact decodes_decode text

theorem Decodes.congr {others : List Char → Char → Prop} (hdecodes : Decodes reads text decoded)
    (hsame : ∀ before rest, text = before ++ '&' :: rest →
      ∀ c after, Refers reads rest c after ↔ Refers others rest c after) :
    Decodes others text decoded := by
  induction hdecodes with
  | nil => exact .nil
  | @reference rest after decoded c hrefers _ ih =>
      refine .reference ((hsame [] rest rfl c after).mp hrefers) (ih ?_)
      obtain ⟨body, rfl, -⟩ := hrefers
      intro before later hsplit
      exact hsame ('&' :: body ++ ';' :: before) later (by simp [hsplit])
  | @ampersand rest decoded hbare _ ih =>
      refine .ampersand (fun c after hrefers => ?_) (ih ?_)
      · exact hbare c after ((hsame [] rest rfl c after).mpr hrefers)
      · intro before later hsplit
        exact hsame ('&' :: before) later (by rw [hsplit, List.cons_append])
  | @other rest decoded c hother _ ih =>
      refine .other hother (ih ?_)
      intro before later hsplit
      exact hsame (c :: before) later (by rw [hsplit, List.cons_append])

theorem Decodes.of_clean {front back : List Char} (hdecodes : Decodes reads (front ++ back) decoded)
    (hclean : '&' ∉ front) : ∃ others, decoded = front ++ others ∧ Decodes reads back others := by
  induction front generalizing decoded with
  | nil => exact ⟨decoded, rfl, hdecodes⟩
  | cons c rest ih =>
      rw [List.mem_cons, not_or] at hclean
      rw [List.cons_append] at hdecodes
      cases hdecodes with
      | reference => exact absurd rfl hclean.1
      | ampersand => exact absurd rfl hclean.1
      | other _ hrest =>
          obtain ⟨others, rfl, hback⟩ := ih hrest hclean.2
          exact ⟨others, rfl, hback⟩

end Decode

/-- A number with a plus sign is referred to somewhere in the text. -/
def HasSigned (text : List Char) : Prop :=
  ∃ before rest c after, text = before ++ '&' :: rest ∧ Refers Signed rest c after

section Signed

variable {reads others : List Char → Char → Prop} {text rest front back after later : List Char}
  {less more : List Char} {c other : Char}

theorem hasSigned_cons : HasSigned (c :: rest) ↔
    (c = '&' ∧ ∃ other after, Refers Signed rest other after) ∨ HasSigned rest := by
  constructor
  · rintro ⟨before, later, other, after, hsplit, hrefers⟩
    cases before with
    | nil =>
        obtain ⟨rfl, rfl⟩ := List.cons.inj hsplit
        exact .inl ⟨rfl, other, after, hrefers⟩
    | cons first before =>
        exact .inr ⟨before, later, other, after, (List.cons.inj hsplit).2, hrefers⟩
  · rintro (⟨rfl, other, after, hrefers⟩ | ⟨before, later, other, after, rfl, hrefers⟩)
    · exact ⟨[], rest, other, after, rfl, hrefers⟩
    · exact ⟨c :: before, later, other, after, rfl, hrefers⟩

theorem HasSigned.of_clean (hsigned : HasSigned (front ++ back)) (hclean : '&' ∉ front) :
    HasSigned back := by
  induction front with
  | nil => exact hsigned
  | cons c rest ih =>
      rw [List.mem_cons, not_or] at hclean
      rcases hasSigned_cons.mp hsigned with ⟨hamp, -⟩ | hrest
      · exact absurd hamp.symm hclean.1
      · exact ih hrest hclean.2

theorem Refers.mono (hrefers : Refers reads text c after)
    (hreads : ∀ body c, reads body c → others body c) : Refers others text c after := by
  obtain ⟨body, hsplit, hbody, hlength, hread⟩ := hrefers
  exact ⟨body, hsplit, hbody, hlength, hreads body c hread⟩

theorem Refers.unique (hrefers : Refers reads text c after)
    (hother : Refers others text other later) :
    after = later ∧ ∃ body, reads body c ∧ others body other := by
  obtain ⟨body, hsplit, hbody, hlength, hreads⟩ := hrefers
  obtain ⟨otherBody, hotherSplit, hotherBody, hotherLength, hotherReads⟩ := hother
  have hfound := body?_eq_some_iff.mpr ⟨hsplit, hbody, hlength⟩
  rw [body?_eq_some_iff.mpr ⟨hotherSplit, hotherBody, hotherLength⟩] at hfound
  cases hfound
  exact ⟨rfl, body, hreads, hotherReads⟩

theorem Refers.not_signed (hformed : Refers WellFormed text c after) :
    ¬ Refers Signed text other later := by
  intro hsigned
  obtain ⟨-, body, hbody, hbodySigned⟩ := hformed.unique hsigned
  exact hbody.not_mem (.inr rfl) hbodySigned.plus_mem

theorem Refers.exists_clean (hrefers : Refers Readable text c after) :
    ∃ front, text = front ++ after ∧ front ≠ [] ∧ '&' ∉ front := by
  obtain ⟨body, rfl, -, -, hreads⟩ := hrefers
  exact ⟨body ++ [';'], by simp, by simp, by simpa using hreads.ampersand_not_mem⟩

theorem Decodes.length_lt (hless : Decodes Readable text less)
    (hmore : Decodes WellFormed text more) :
    less.length ≤ more.length ∧ (HasSigned text → less.length < more.length) := by
  induction hless generalizing more with
  | nil => exact ⟨Nat.zero_le _, fun ⟨_, _, _, _, hsplit, _⟩ => by simp at hsplit⟩
  | @reference rest after decoded c hrefers _ ih =>
      obtain ⟨front, hsplit, hfront, hclean⟩ := hrefers.exists_clean
      cases hmore with
      | @reference _ later _ _ hformed hlater =>
          obtain rfl : after = later := (hrefers.unique hformed).1
          obtain ⟨hle, hlt⟩ := ih hlater
          refine ⟨Nat.succ_le_succ hle, fun hsigned => Nat.succ_lt_succ (hlt ?_)⟩
          rcases hasSigned_cons.mp hsigned with ⟨-, _, _, hhere⟩ | hthere
          · exact absurd hhere hformed.not_signed
          · exact (hsplit ▸ hthere : HasSigned (front ++ after)).of_clean hclean
      | ampersand _ hrest =>
          -- Here the sign counts: on the other side all of the reference is kept.
          rw [hsplit] at hrest
          obtain ⟨kept, rfl, hkept⟩ := hrest.of_clean hclean
          have hle := (ih hkept).1
          have hpos := List.length_pos_iff.mpr hfront
          simp only [List.length_cons, List.length_append]
          omega
      | other hother => exact absurd rfl hother
  | @ampersand rest decoded hbare _ ih =>
      cases hmore with
      | reference hformed => exact absurd (hformed.mono fun _ _ => .inl) (hbare _ _)
      | ampersand _ hrest =>
          obtain ⟨hle, hlt⟩ := ih hrest
          refine ⟨Nat.succ_le_succ hle, fun hsigned => Nat.succ_lt_succ (hlt ?_)⟩
          rcases hasSigned_cons.mp hsigned with ⟨-, _, _, hhere⟩ | hthere
          · exact absurd (hhere.mono fun _ _ => .inr) (hbare _ _)
          · exact hthere
      | other hother => exact absurd rfl hother
  | @other rest decoded c hother _ ih =>
      cases hmore with
      | reference => exact absurd rfl hother
      | ampersand => exact absurd rfl hother
      | other _ hrest =>
          obtain ⟨hle, hlt⟩ := ih hrest
          refine ⟨Nat.succ_le_succ hle, fun hsigned => Nat.succ_lt_succ (hlt ?_)⟩
          exact (hasSigned_cons.mp hsigned).resolve_left fun hhere => hother hhere.1

end Signed

/-- Decoding replaces what can be read, from left to right, and keeps all else. In a text these are
the references of the grammar exactly if no number there has a plus sign. -/
theorem decode_replaces (text : List Char) :
    (∀ decoded, Decodes Readable text decoded ↔ decoded = decode text) ∧
      ((∀ decoded, Decodes WellFormed text decoded ↔ decoded = decode text) ↔
        ¬ HasSigned text) := by
  refine ⟨fun decoded => decodes_iff, ?_, ?_⟩
  · intro hformed hsigned
    have hlength := (decodes_decode text).length_lt ((hformed _).mpr rfl)
    exact Nat.lt_irrefl _ (hlength.2 hsigned)
  · intro hunsigned decoded
    have hsame : ∀ before rest, text = before ++ '&' :: rest → ∀ c after,
        Refers Readable rest c after ↔ Refers WellFormed rest c after := by
      intro before rest hsplit c after
      constructor
      · rintro ⟨body, hbody, hclean, hlength, hformed | hsigned⟩
        · exact ⟨body, hbody, hclean, hlength, hformed⟩
        · exact absurd ⟨before, rest, c, after, hsplit, body, hbody, hclean, hlength, hsigned⟩
            hunsigned
      · exact fun hformed => hformed.mono fun _ _ => .inl
    rw [← decodes_iff]
    exact ⟨fun hdecodes => hdecodes.congr fun before rest hsplit c after =>
        (hsame before rest hsplit c after).symm,
      fun hdecodes => hdecodes.congr hsame⟩

/-- A number with a plus sign is taken for a reference, although it is none. -/
theorem decode_plus : decode "&#+65;".toList = "A".toList ∧
    ¬ Decodes WellFormed "&#+65;".toList (decode "&#+65;".toList) := by
  have hsigned : Refers Signed "#+65;".toList 'A' [] := by
    refine ⟨"#+65".toList, by decide, by decide, by decide, .decimal ⟨[6, 5], by decide, ?_, rfl⟩⟩
    exact .cons (by decide) (.cons (by decide) .nil)
  have hdecode : decode "&#+65;".toList = "A".toList := by
    have hrefers : Refers Readable "#+65;".toList 'A' [] := hsigned.mono fun _ _ => .inr
    exact (decode_reference hrefers).trans (congrArg _ decode_nil)
  refine ⟨hdecode, ?_⟩
  rw [hdecode]
  intro hdecodes
  cases hdecodes with
  | reference hformed => exact hformed.not_signed hsigned

end MustacheHtml.Reference
