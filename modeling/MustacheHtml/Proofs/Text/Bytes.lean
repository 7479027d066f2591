import Mathlib.Data.List.Infix
import MustacheHtml.Template.Scan.Attribute

/-!
The bytes of a text in UTF-8. A character below 128 is one byte, and no other character has a byte
below 128; so what is asked about such characters has the same answer for the bytes of a text as for
its characters.
-/

namespace MustacheHtml.Text

def isAscii (c : Char) : Bool :=
  c.toNat < 128

/-- The bytes of a character, each as the character with its number. -/
def charBytes (c : Char) : List Char :=
  (String.utf8EncodeChar c).map Char.ofUInt8

/-- The bytes of a text, each as the character of that code. -/
def bytes (text : List Char) : List Char :=
  text.flatMap charBytes

/-- The text between two offsets in bytes, if both fall between characters of the source. -/
def between? (source : List Char) (start stop : Nat) : Option (List Char) :=
  if start ≤ stop ∧ stop ≤ byteLength source then
    (takeBytes? source stop).bind fun all =>
      (takeBytes? source start).map fun front => all.drop front.length
  else none

section Characters

variable {c b : Char}

@[simp] theorem length_charBytes (c : Char) : (charBytes c).length = c.utf8Size := by
  rw [charBytes, List.length_map, String.length_utf8EncodeChar]

theorem charBytes_ne_nil (c : Char) : charBytes c ≠ [] := by
  rw [← List.length_pos_iff, length_charBytes]
  exact c.utf8Size_pos

theorem toNat_ofUInt8 (byte : UInt8) : (Char.ofUInt8 byte).toNat = byte.toNat := rfl

theorem charBytes_of_ascii (hc : isAscii c) : charBytes c = [c] := by
  have hlow : c.val.toNat < 128 := of_decide_eq_true hc
  rw [charBytes, String.utf8EncodeChar, if_pos (Nat.le_of_lt_succ hlow), List.map_singleton,
    List.singleton_inj]
  apply Char.toNat_inj.mp
  rw [toNat_ofUInt8, UInt8.toNat_ofNat', Nat.mod_eq_of_lt (by omega)]
  rfl

theorem utf8Size_of_ascii (hc : isAscii c) : c.utf8Size = 1 := by
  rw [← length_charBytes, charBytes_of_ascii hc]
  rfl

theorem isAscii_of_mem (hb : b ∈ charBytes c) : isAscii b = isAscii c := by
  cases hc : isAscii c with
  | true =>
      rw [charBytes_of_ascii hc, List.mem_singleton] at hb
      rw [hb, hc]
  | false =>
      have hwide : ¬ c.val.toNat ≤ 127 := fun hlow =>
        of_decide_eq_false hc (Nat.lt_succ_of_le hlow)
      have hhigh : ∀ byte ∈ String.utf8EncodeChar c, 128 ≤ byte.toNat := by
        rw [String.utf8EncodeChar, if_neg hwide]
        split
        · simp only [List.forall_mem_cons, UInt8.toNat_ofNat']
          exact ⟨by omega, by omega, nofun⟩
        · split
          · simp only [List.forall_mem_cons, UInt8.toNat_ofNat']
            exact ⟨by omega, by omega, by omega, nofun⟩
          · simp only [List.forall_mem_cons, UInt8.toNat_ofNat']
            exact ⟨by omega, by omega, by omega, by omega, nofun⟩
      obtain ⟨byte, hbyte, rfl⟩ := List.mem_map.mp hb
      exact decide_eq_false (Nat.not_lt.mpr (hhigh byte hbyte))

end Characters

section Texts

variable {text front back mark : List Char} {c : Char} {rest : List Char}

@[simp] theorem bytes_nil : bytes [] = [] := rfl

theorem bytes_cons (c : Char) (rest : List Char) : bytes (c :: rest) = charBytes c ++ bytes rest :=
  List.flatMap_cons

@[simp] theorem bytes_append (front back : List Char) :
    bytes (front ++ back) = bytes front ++ bytes back :=
  List.flatMap_append

@[simp] theorem length_bytes (text : List Char) : (bytes text).length = byteLength text := by
  induction text with
  | nil => rfl
  | cons c rest ih => rw [bytes_cons, List.length_append, length_charBytes, ih, byteLength]

theorem bytes_of_ascii (hc : isAscii c) (rest : List Char) :
    bytes (c :: rest) = c :: bytes rest := by
  rw [bytes_cons, charBytes_of_ascii hc]
  rfl

theorem exists_bytes_cons (hc : isAscii c = false) (rest : List Char) :
    ∃ b others, bytes (c :: rest) = b :: others ∧ isAscii b = false := by
  obtain ⟨b, others, hbytes⟩ := List.exists_cons_of_ne_nil (charBytes_ne_nil c)
  refine ⟨b, others ++ bytes rest, ?_, ?_⟩
  · rw [bytes_cons, hbytes, List.cons_append]
  · rw [isAscii_of_mem (c := c) (hbytes ▸ List.mem_cons_self), hc]

/-- A test that has one answer for all characters that are not below 128. -/
def Uniform (test : Char → Bool) : Prop :=
  ∃ wide, ∀ c, isAscii c = false → test c = wide

theorem Uniform.eq_of_mem {test : Char → Bool} (huniform : Uniform test) {b : Char}
    (hb : b ∈ charBytes c) : test b = test c := by
  obtain ⟨wide, hwide⟩ := huniform
  cases hc : isAscii c with
  | true =>
      rw [charBytes_of_ascii hc, List.mem_singleton] at hb
      rw [hb]
  | false => rw [hwide c hc, hwide b (by rw [isAscii_of_mem hb, hc])]

theorem takeWhile_bytes {test : Char → Bool} (huniform : Uniform test) (text : List Char) :
    (bytes text).takeWhile test = bytes (text.takeWhile test) := by
  induction text with
  | nil => rfl
  | cons c rest ih =>
      rw [bytes_cons]
      cases hc : test c with
      | true =>
          have hall : ∀ b ∈ charBytes c, test b = true := fun b hb => by
            rw [huniform.eq_of_mem hb, hc]
          rw [List.takeWhile_append_of_pos hall, ih, List.takeWhile_cons_of_pos hc, bytes_cons]
      | false =>
          obtain ⟨b, others, hbytes⟩ := List.exists_cons_of_ne_nil (charBytes_ne_nil c)
          have hb : test b = false := by
            rw [huniform.eq_of_mem (c := c) (hbytes ▸ List.mem_cons_self), hc]
          rw [hbytes, List.cons_append, List.takeWhile_cons_of_neg (by simp [hb]),
            List.takeWhile_cons_of_neg (by simp [hc])]
          rfl

theorem head?_bytes_any {test : Char → Bool} (huniform : Uniform test) (text : List Char) :
    (bytes text).head?.any test = text.head?.any test := by
  cases text with
  | nil => rfl
  | cons c rest =>
      obtain ⟨b, others, hbytes⟩ := List.exists_cons_of_ne_nil (charBytes_ne_nil c)
      rw [bytes_cons, hbytes]
      exact huniform.eq_of_mem (hbytes ▸ List.mem_cons_self)

theorem prefix_bytes_iff (hmark : mark.all isAscii = true) :
    mark <+: bytes text ↔ mark <+: text := by
  induction mark generalizing text with
  | nil => simp
  | cons c mark ih =>
      rw [List.all_cons, Bool.and_eq_true] at hmark
      obtain ⟨hc, hothers⟩ := hmark
      cases text with
      | nil => simp
      | cons first rest =>
          cases hfirst : isAscii first with
          | true =>
              rw [bytes_of_ascii hfirst, List.cons_prefix_cons, List.cons_prefix_cons, ih hothers]
          | false =>
              obtain ⟨b, others, hbytes, hb⟩ := exists_bytes_cons hfirst rest
              rw [hbytes, List.cons_prefix_cons, List.cons_prefix_cons]
              refine iff_of_false ?_ ?_
              · rintro ⟨rfl, -⟩
                exact Bool.false_ne_true (hb.symm.trans hc)
              · rintro ⟨rfl, -⟩
                exact Bool.false_ne_true (hfirst.symm.trans hc)

theorem head?_bytes_eq_iff (hc : isAscii c) :
    (bytes text).head? = some c ↔ text.head? = some c := by
  rw [← List.singleton_prefix_iff_head?_eq_some, ← List.singleton_prefix_iff_head?_eq_some]
  exact prefix_bytes_iff (by rw [List.all_cons, hc, List.all_nil, Bool.and_true])

end Texts

section Slices

variable {source text front : List Char} {start stop count : Nat}

theorem takeBytes?_eq_some_iff (hcount : count ≤ byteLength source) :
    takeBytes? source count = some front ↔ front <+: source ∧ byteLength front = count := by
  constructor
  · intro htake
    induction source generalizing front count with
    | nil =>
        obtain rfl : count = 0 := Nat.le_zero.mp hcount
        cases htake
        exact ⟨List.nil_prefix, rfl⟩
    | cons c rest ih =>
        cases count with
        | zero =>
            cases htake
            exact ⟨List.nil_prefix, rfl⟩
        | succ count =>
            rw [takeBytes?] at htake
            split at htake
            · next hfits =>
                obtain ⟨others, hothers, rfl⟩ := Option.map_eq_some_iff.mp htake
                rw [byteLength] at hcount ⊢
                obtain ⟨hbegins, hlength⟩ := ih (by omega) hothers
                exact ⟨(List.prefix_cons_inj c).mpr hbegins, by omega⟩
            · cases htake
  · rintro ⟨⟨back, rfl⟩, rfl⟩
    exact takeBytes?_byteLength front back

theorem prefix_of_byteLength_le {all : List Char} (hfront : front <+: source)
    (hall : all <+: source) (hlength : byteLength front ≤ byteLength all) : front <+: all := by
  rcases List.prefix_or_prefix_of_prefix hfront hall with hbegins | ⟨more, rfl⟩
  · exact hbegins
  · rw [byteLength_append] at hlength
    cases more with
    | nil => rw [List.append_nil]
    | cons c more =>
        have hpos := byteLength_pos (List.cons_ne_nil c more)
        omega

/-- A slice is a stretch of the source from one place between characters to another. -/
theorem between?_eq_some_iff : between? source start stop = some text ↔
    ∃ front back, source = front ++ text ++ back ∧ start = byteLength front ∧
      stop = start + byteLength text := by
  constructor
  · intro hbetween
    rw [between?] at hbetween
    split at hbetween
    · next hbounds =>
        obtain ⟨all, hall, hrest⟩ := Option.bind_eq_some_iff.mp hbetween
        obtain ⟨front, hfront, rfl⟩ := Option.map_eq_some_iff.mp hrest
        obtain ⟨hwithin, rfl⟩ := (takeBytes?_eq_some_iff hbounds.2).mp hall
        obtain ⟨halso, rfl⟩ :=
          (takeBytes?_eq_some_iff (Nat.le_trans hbounds.1 hbounds.2)).mp hfront
        obtain ⟨text, rfl⟩ := prefix_of_byteLength_le halso hwithin hbounds.1
        obtain ⟨back, rfl⟩ := hwithin
        rw [List.drop_left, byteLength_append]
        exact ⟨front, back, rfl, rfl, rfl⟩
    · cases hbetween
  · rintro ⟨front, back, rfl, rfl, rfl⟩
    have hall := takeBytes?_byteLength (front ++ text) back
    have hfront := takeBytes?_byteLength front (text ++ back)
    rw [byteLength_append] at hall
    rw [← List.append_assoc] at hfront
    rw [between?, if_pos ⟨Nat.le_add_right _ _, by simp [byteLength_append]⟩, hall, hfront]
    simp

example : between? ['a', 'é', 'b'] 1 3 = some ['é'] ∧ between? ['a', 'é', 'b'] 1 2 = none := by
  decide

end Slices

end MustacheHtml.Text

namespace MustacheHtml.Template

open Text (bytes isAscii)

section Tests

variable {stops : List Char → Bool} {front back : List Char}

theorem takeUntil_front (hfront : ∀ c ∈ front, ∀ rest, stops (c :: rest) = false) :
    takeUntil stops (front ++ back) = front ++ takeUntil stops back := by
  induction front with
  | nil => rfl
  | cons c front ih =>
      obtain ⟨hc, hothers⟩ := List.forall_mem_cons.mp hfront
      rw [List.cons_append, takeUntil, hc, if_neg Bool.false_ne_true, ih hothers]
      rfl

theorem takeUntil_bytes (hbytes : ∀ text, stops (bytes text) = stops text)
    (hwide : ∀ c rest, isAscii c = false → stops (c :: rest) = false) (text : List Char) :
    takeUntil stops (bytes text) = bytes (takeUntil stops text) := by
  induction text with
  | nil => rfl
  | cons c rest ih =>
      cases hc : isAscii c with
      | true =>
          have hhead := hbytes (c :: rest)
          rw [Text.bytes_of_ascii hc] at hhead ⊢
          rw [takeUntil, takeUntil, hhead, ih]
          split
          · rfl
          · rw [Text.bytes_of_ascii hc]
      | false =>
          have hfront : ∀ b ∈ Text.charBytes c, ∀ rest, stops (b :: rest) = false :=
            fun b hb rest => hwide b rest (by rw [Text.isAscii_of_mem hb, hc])
          rw [Text.bytes_cons, takeUntil_front hfront, ih, takeUntil, hwide c rest hc,
            if_neg Bool.false_ne_true, Text.bytes_cons]

end Tests

end MustacheHtml.Template
