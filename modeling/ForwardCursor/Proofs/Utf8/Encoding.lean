import ForwardCursor.Utf8.Front
import Mathlib.Data.List.Basic

namespace ForwardCursor
namespace Utf8

/-!
# The front is an encoded character

The decoder's table of lead bytes is compared with the encoder of the standard library.
A lead byte and the continuation bytes that fit behind it are exactly the bytes that the
encoder writes for the character they stand for.  This covers what the table leaves out:
an overlong form, a surrogate, and a value that is too large are not written for any
character, and therefore never read as one.

The comparison is made once for each number of continuation bytes.  Everything else is
about lists.
-/

/-- Continuation bytes, of which the first lies between the given bounds. -/
def Continues : (low high : Nat) → List UInt8 → Prop
  | _, _, [] => True
  | low, high, byte :: bytes =>
    (low ≤ byte.toNat ∧ byte.toNat ≤ high) ∧ Continues 0x80 0xBF bytes

/-- The value of some bits with those of continuation bytes after them. -/
def accumulate (value : Nat) (bytes : List UInt8) : Nat :=
  bytes.foldl (fun value byte => value * 0x40 + (byte.toNat - 0x80)) value

/-- A lead byte and continuation bytes that stand for a character. -/
def Spells (lead : UInt8) (tail : List UInt8) (character : Char) : Prop :=
  ∃ owed, owed? lead = some owed ∧ tail.length = owed.count ∧
    Continues owed.low owed.high tail ∧ character = Char.ofNat (accumulate owed.value tail)

/-! ## Reading continuation bytes -/

theorem continuation_zero (low high value size : Nat) (bytes : List UInt8) :
    continuation 0 low high value size bytes = .scalar (Char.ofNat value) size := by
  cases bytes <;> rfl

theorem accumulate_cons (value : Nat) (byte : UInt8) (bytes : List UInt8) :
    accumulate value (byte :: bytes) =
      accumulate (value * 0x40 + (byte.toNat - 0x80)) bytes := List.foldl_cons ..

theorem continuation_of_continues {count low high : Nat} {tail : List UInt8}
    (counted : tail.length = count) (fits : Continues low high tail) (value size : Nat)
    (rest : List UInt8) :
    continuation count low high value size (tail ++ rest) =
      .scalar (Char.ofNat (accumulate value tail)) (size + count) := by
  induction tail generalizing count low high value size with
  | nil =>
      cases counted
      rw [List.nil_append, List.length_nil, continuation_zero]
      rfl
  | cons byte tail inductionHypothesis =>
      cases counted
      rcases fits with ⟨inside, later⟩
      have whole : size + 1 + tail.length = size + (tail.length + 1) := by omega
      rw [List.length_cons, List.cons_append, continuation, if_pos inside,
        inductionHypothesis rfl later, accumulate_cons, whole]

theorem continues_of_continuation {count low high value size whole : Nat} {bytes : List UInt8}
    {character : Char}
    (found : continuation count low high value size bytes = .scalar character whole) :
    ∃ tail rest, bytes = tail ++ rest ∧ tail.length = count ∧ Continues low high tail ∧
      character = Char.ofNat (accumulate value tail) ∧ whole = size + count := by
  induction bytes generalizing count low high value size with
  | nil =>
      cases count with
      | zero =>
          cases found
          exact ⟨[], [], rfl, rfl, trivial, rfl, rfl⟩
      | succ count => cases found
  | cons byte bytes inductionHypothesis =>
      cases count with
      | zero =>
          cases found
          exact ⟨[], byte :: bytes, rfl, rfl, trivial, rfl, rfl⟩
      | succ count =>
          rw [continuation] at found
          by_cases inside : low ≤ byte.toNat ∧ byte.toNat ≤ high
          · rw [if_pos inside] at found
            rcases inductionHypothesis found with ⟨tail, rest, same, counted, fits, value, size⟩
            refine ⟨byte :: tail, rest, ?_, ?_, ⟨inside, fits⟩, ?_, ?_⟩
            · rw [same, List.cons_append]
            · rw [List.length_cons, counted]
            · rw [value, accumulate_cons]
            · omega
          · rw [if_neg inside] at found
            cases found

theorem front_of_spells {lead : UInt8} {tail : List UInt8} {character : Char}
    (spells : Spells lead tail character) (rest : List UInt8) :
    front (lead :: tail ++ rest) = .scalar character (tail.length + 1) := by
  rcases spells with ⟨owed, leading, counted, fits, rfl⟩
  simp only [List.cons_append, front, leading]
  rw [continuation_of_continues counted fits, counted, Nat.add_comm 1]

theorem spells_of_front {bytes : List UInt8} {character : Char} {size : Nat}
    (found : front bytes = .scalar character size) :
    ∃ lead tail rest, bytes = lead :: tail ++ rest ∧ Spells lead tail character ∧
      size = tail.length + 1 := by
  cases bytes with
  | nil => cases found
  | cons lead bytes =>
      cases leading : owed? lead with
      | none =>
          simp only [front, leading] at found
          cases found
      | some owed =>
          simp only [front, leading] at found
          rcases continues_of_continuation found with
            ⟨tail, rest, same, counted, fits, value, whole⟩
          refine ⟨lead, tail, rest, ?_, ⟨owed, leading, counted, fits, value⟩, ?_⟩
          · rw [same, List.cons_append]
          · rw [whole, counted, Nat.add_comm]

/-! ## The table of lead bytes -/

section Leads

variable {lead : UInt8}

theorem owed?_of_one (upper : lead.toNat < 0x80) :
    owed? lead = some { count := 0, value := lead.toNat } := by
  simp only [owed?, if_pos upper]

theorem owed?_of_two (lower : 0xC2 ≤ lead.toNat) (upper : lead.toNat < 0xE0) :
    owed? lead = some { count := 1, value := lead.toNat - 0xC0 } := by
  unfold owed?
  rw [if_neg (by omega), if_neg (by omega), if_pos upper]

/-- The bounds after a lead byte of three bytes, in the form of two exceptions. -/
theorem owed?_of_three (lower : 0xE0 ≤ lead.toNat) (upper : lead.toNat < 0xF0) :
    ∃ low high, owed? lead = some ⟨2, low, high, lead.toNat - 0xE0⟩ ∧
      ∀ byte, low ≤ byte ∧ byte ≤ high ↔
        (0x80 ≤ byte ∧ byte ≤ 0xBF) ∧ (lead.toNat = 0xE0 → 0xA0 ≤ byte) ∧
          (lead.toNat = 0xED → byte ≤ 0x9F) := by
  unfold owed?
  rw [if_neg (by omega), if_neg (by omega), if_neg (by omega)]
  by_cases first : lead.toNat = 0xE0
  · rw [if_pos first, first]
    exact ⟨_, _, rfl, by intro byte; omega⟩
  · rw [if_neg first]
    by_cases surrogate : lead.toNat = 0xED
    · rw [if_pos surrogate, surrogate]
      exact ⟨_, _, rfl, by intro byte; omega⟩
    · rw [if_neg surrogate, if_pos upper]
      exact ⟨_, _, rfl, by intro byte; omega⟩

/-- The bounds after a lead byte of four bytes. -/
theorem owed?_of_four (lower : 0xF0 ≤ lead.toNat) (upper : lead.toNat < 0xF5) :
    ∃ low high, owed? lead = some ⟨3, low, high, lead.toNat - 0xF0⟩ ∧
      ∀ byte, low ≤ byte ∧ byte ≤ high ↔
        (0x80 ≤ byte ∧ byte ≤ 0xBF) ∧ (lead.toNat = 0xF0 → 0x90 ≤ byte) ∧
          (lead.toNat = 0xF4 → byte ≤ 0x8F) := by
  unfold owed?
  rw [if_neg (by omega), if_neg (by omega), if_neg (by omega), if_neg (by omega),
    if_neg (by omega), if_neg (by omega)]
  by_cases first : lead.toNat = 0xF0
  · rw [if_pos first, first]
    exact ⟨_, _, rfl, by intro byte; omega⟩
  · rw [if_neg first]
    by_cases full : lead.toNat < 0xF4
    · rw [if_pos full]
      exact ⟨_, _, rfl, by intro byte; omega⟩
    · have last : lead.toNat = 0xF4 := by omega
      rw [if_neg full, if_pos last, last]
      exact ⟨_, _, rfl, by intro byte; omega⟩

theorem owed?_of_other (outside : 0x80 ≤ lead.toNat ∧ lead.toNat < 0xC2 ∨ 0xF5 ≤ lead.toNat) :
    owed? lead = none := by
  unfold owed?
  by_cases low : lead.toNat < 0xC2
  · rw [if_neg (by omega), if_pos low]
  · rw [if_neg (by omega), if_neg low, if_neg (by omega), if_neg (by omega), if_neg (by omega),
      if_neg (by omega), if_neg (by omega), if_neg (by omega), if_neg (by omega)]

end Leads

/-! ## The encoder -/

section Encoder

open String (utf8EncodeChar)

theorem toNat_ofNat_of_valid {value : Nat} (valid : value.isValidChar) :
    (Char.ofNat value).toNat = value := by
  rw [Char.ofNat, dif_pos valid]
  rfl

theorem toNat_valid (character : Char) :
    character.toNat < 0xD800 ∨ 0xDFFF < character.toNat ∧ character.toNat < 0x110000 :=
  character.valid

theorem eq_ofNat {byte : UInt8} {value : Nat} (same : byte.toNat = value) :
    byte = UInt8.ofNat value := by
  rw [← same, UInt8.ofNat_toNat]

theorem toNat_ofNat_byte {value : Nat} (small : value < 0x100) :
    (UInt8.ofNat value).toNat = value := Nat.mod_eq_of_lt small

theorem encode_one {character : Char} (upper : character.toNat ≤ 0x7F) :
    utf8EncodeChar character = [UInt8.ofNat character.toNat] := if_pos upper

theorem encode_two {character : Char} (lower : 0x7F < character.toNat)
    (upper : character.toNat ≤ 0x7FF) :
    utf8EncodeChar character =
      [UInt8.ofNat (character.toNat / 0x40 % 0x20 + 0xC0),
        UInt8.ofNat (character.toNat % 0x40 + 0x80)] :=
  (if_neg (Nat.not_le_of_gt lower)).trans (if_pos upper)

theorem encode_three {character : Char} (lower : 0x7FF < character.toNat)
    (upper : character.toNat ≤ 0xFFFF) :
    utf8EncodeChar character =
      [UInt8.ofNat (character.toNat / 0x1000 % 0x10 + 0xE0),
        UInt8.ofNat (character.toNat / 0x40 % 0x40 + 0x80),
        UInt8.ofNat (character.toNat % 0x40 + 0x80)] := by
  have more : 0x7F < character.toNat := by omega
  exact (if_neg (Nat.not_le_of_gt more)).trans
    ((if_neg (Nat.not_le_of_gt lower)).trans (if_pos upper))

theorem encode_four {character : Char} (lower : 0xFFFF < character.toNat) :
    utf8EncodeChar character =
      [UInt8.ofNat (character.toNat / 0x40000 % 0x8 + 0xF0),
        UInt8.ofNat (character.toNat / 0x1000 % 0x40 + 0x80),
        UInt8.ofNat (character.toNat / 0x40 % 0x40 + 0x80),
        UInt8.ofNat (character.toNat % 0x40 + 0x80)] := by
  have two : 0x7F < character.toNat := by omega
  have three : 0x7FF < character.toNat := by omega
  exact (if_neg (Nat.not_le_of_gt two)).trans
    ((if_neg (Nat.not_le_of_gt three)).trans (if_neg (Nat.not_le_of_gt lower)))

/-! ### Bytes that the table accepts are written

The bytes of each length, by the value that they accumulate. -/

theorem encode_ofNat_one {lead : UInt8} (upper : lead.toNat < 0x80) :
    utf8EncodeChar (Char.ofNat lead.toNat) = [lead] := by
  have same : (Char.ofNat lead.toNat).toNat = lead.toNat :=
    toNat_ofNat_of_valid (Or.inl (by omega))
  rw [encode_one (by omega), same, UInt8.ofNat_toNat]

theorem encode_ofNat_two {lead second : UInt8} {value : Nat}
    (lower : 0xC2 ≤ lead.toNat) (upper : lead.toNat < 0xE0)
    (secondFits : 0x80 ≤ second.toNat ∧ second.toNat ≤ 0xBF)
    (accumulated : value = (lead.toNat - 0xC0) * 0x40 + (second.toNat - 0x80)) :
    utf8EncodeChar (Char.ofNat value) = [lead, second] := by
  have same : (Char.ofNat value).toNat = value := toNat_ofNat_of_valid (Or.inl (by omega))
  have leadByte : lead = UInt8.ofNat (value / 0x40 % 0x20 + 0xC0) := eq_ofNat (by omega)
  have secondByte : second = UInt8.ofNat (value % 0x40 + 0x80) := eq_ofNat (by omega)
  rw [encode_two (by omega) (by omega), same, ← leadByte, ← secondByte]

theorem encode_ofNat_three {lead second third : UInt8} {value : Nat}
    (lower : 0xE0 ≤ lead.toNat) (upper : lead.toNat < 0xF0)
    (secondFits : (0x80 ≤ second.toNat ∧ second.toNat ≤ 0xBF) ∧
      (lead.toNat = 0xE0 → 0xA0 ≤ second.toNat) ∧ (lead.toNat = 0xED → second.toNat ≤ 0x9F))
    (thirdFits : 0x80 ≤ third.toNat ∧ third.toNat ≤ 0xBF)
    (accumulated : value = ((lead.toNat - 0xE0) * 0x40 + (second.toNat - 0x80)) * 0x40 +
      (third.toNat - 0x80)) :
    utf8EncodeChar (Char.ofNat value) = [lead, second, third] := by
  have same : (Char.ofNat value).toNat = value := toNat_ofNat_of_valid (by
    rw [Nat.isValidChar]
    omega)
  have leadByte : lead = UInt8.ofNat (value / 0x1000 % 0x10 + 0xE0) := eq_ofNat (by omega)
  have secondByte : second = UInt8.ofNat (value / 0x40 % 0x40 + 0x80) := eq_ofNat (by omega)
  have thirdByte : third = UInt8.ofNat (value % 0x40 + 0x80) := eq_ofNat (by omega)
  rw [encode_three (by omega) (by omega), same, ← leadByte, ← secondByte, ← thirdByte]

theorem encode_ofNat_four {lead second third fourth : UInt8} {value : Nat}
    (lower : 0xF0 ≤ lead.toNat) (upper : lead.toNat < 0xF5)
    (secondFits : (0x80 ≤ second.toNat ∧ second.toNat ≤ 0xBF) ∧
      (lead.toNat = 0xF0 → 0x90 ≤ second.toNat) ∧ (lead.toNat = 0xF4 → second.toNat ≤ 0x8F))
    (thirdFits : 0x80 ≤ third.toNat ∧ third.toNat ≤ 0xBF)
    (fourthFits : 0x80 ≤ fourth.toNat ∧ fourth.toNat ≤ 0xBF)
    (accumulated : value = (((lead.toNat - 0xF0) * 0x40 + (second.toNat - 0x80)) * 0x40 +
      (third.toNat - 0x80)) * 0x40 + (fourth.toNat - 0x80)) :
    utf8EncodeChar (Char.ofNat value) = [lead, second, third, fourth] := by
  have same : (Char.ofNat value).toNat = value := toNat_ofNat_of_valid (by
    rw [Nat.isValidChar]
    omega)
  have leadByte : lead = UInt8.ofNat (value / 0x40000 % 0x8 + 0xF0) := eq_ofNat (by omega)
  have secondByte : second = UInt8.ofNat (value / 0x1000 % 0x40 + 0x80) := eq_ofNat (by omega)
  have thirdByte : third = UInt8.ofNat (value / 0x40 % 0x40 + 0x80) := eq_ofNat (by omega)
  have fourthByte : fourth = UInt8.ofNat (value % 0x40 + 0x80) := eq_ofNat (by omega)
  rw [encode_four (by omega), same, ← leadByte, ← secondByte, ← thirdByte, ← fourthByte]

theorem encode_of_spells {lead : UInt8} {tail : List UInt8} {character : Char}
    (spells : Spells lead tail character) : utf8EncodeChar character = lead :: tail := by
  rcases spells with ⟨owed, leading, counted, fits, rfl⟩
  by_cases one : lead.toNat < 0x80
  · rw [owed?_of_one one] at leading
    cases leading
    cases List.length_eq_zero_iff.mp counted
    exact encode_ofNat_one one
  by_cases two : 0xC2 ≤ lead.toNat ∧ lead.toNat < 0xE0
  · rw [owed?_of_two two.1 two.2] at leading
    cases leading
    rcases List.length_eq_one_iff.mp counted with ⟨second, rfl⟩
    exact encode_ofNat_two two.1 two.2 fits.1 rfl
  by_cases three : 0xE0 ≤ lead.toNat ∧ lead.toNat < 0xF0
  · rcases owed?_of_three three.1 three.2 with ⟨low, high, table, bounds⟩
    cases leading.symm.trans table
    rcases List.length_eq_two.mp counted with ⟨second, third, rfl⟩
    rcases fits with ⟨secondFits, thirdFits, _⟩
    exact encode_ofNat_three three.1 three.2 ((bounds _).mp secondFits) thirdFits rfl
  by_cases four : 0xF0 ≤ lead.toNat ∧ lead.toNat < 0xF5
  · rcases owed?_of_four four.1 four.2 with ⟨low, high, table, bounds⟩
    cases leading.symm.trans table
    rcases List.length_eq_three.mp counted with ⟨second, third, fourth, rfl⟩
    rcases fits with ⟨secondFits, thirdFits, fourthFits, _⟩
    exact encode_ofNat_four four.1 four.2 ((bounds _).mp secondFits) thirdFits fourthFits rfl
  · rw [owed?_of_other (by omega)] at leading
    cases leading

/-! ### Written bytes are accepted -/

theorem eq_ofNat_of_toNat {character : Char} {value : Nat} (same : value = character.toNat) :
    character = Char.ofNat value := by
  rw [same, Char.ofNat_toNat]

theorem spells_one {lead : UInt8} {character : Char} (upper : character.toNat ≤ 0x7F)
    (leadValue : lead.toNat = character.toNat) : Spells lead [] character :=
  ⟨_, owed?_of_one (by omega), rfl, trivial, eq_ofNat_of_toNat leadValue⟩

theorem spells_two {lead second : UInt8} {character : Char}
    (lower : 0x7F < character.toNat) (upper : character.toNat ≤ 0x7FF)
    (leadValue : lead.toNat = character.toNat / 0x40 % 0x20 + 0xC0)
    (secondValue : second.toNat = character.toNat % 0x40 + 0x80) :
    Spells lead [second] character := by
  have secondFits : 0x80 ≤ second.toNat ∧ second.toNat ≤ 0xBF := by omega
  have accumulated : (lead.toNat - 0xC0) * 0x40 + (second.toNat - 0x80) = character.toNat := by
    omega
  exact ⟨_, owed?_of_two (by omega) (by omega), rfl, ⟨secondFits, trivial⟩,
    eq_ofNat_of_toNat accumulated⟩

theorem spells_three {lead second third : UInt8} {character : Char}
    (lower : 0x7FF < character.toNat) (upper : character.toNat ≤ 0xFFFF)
    (leadValue : lead.toNat = character.toNat / 0x1000 % 0x10 + 0xE0)
    (secondValue : second.toNat = character.toNat / 0x40 % 0x40 + 0x80)
    (thirdValue : third.toNat = character.toNat % 0x40 + 0x80) :
    Spells lead [second, third] character := by
  have valid := toNat_valid character
  rcases @owed?_of_three lead (by omega) (by omega) with ⟨low, high, table, bounds⟩
  have secondFits : low ≤ second.toNat ∧ second.toNat ≤ high := (bounds _).mpr (by omega)
  have thirdFits : 0x80 ≤ third.toNat ∧ third.toNat ≤ 0xBF := by omega
  have accumulated : ((lead.toNat - 0xE0) * 0x40 + (second.toNat - 0x80)) * 0x40 +
      (third.toNat - 0x80) = character.toNat := by omega
  exact ⟨_, table, rfl, ⟨secondFits, thirdFits, trivial⟩, eq_ofNat_of_toNat accumulated⟩

theorem spells_four {lead second third fourth : UInt8} {character : Char}
    (lower : 0xFFFF < character.toNat)
    (leadValue : lead.toNat = character.toNat / 0x40000 % 0x8 + 0xF0)
    (secondValue : second.toNat = character.toNat / 0x1000 % 0x40 + 0x80)
    (thirdValue : third.toNat = character.toNat / 0x40 % 0x40 + 0x80)
    (fourthValue : fourth.toNat = character.toNat % 0x40 + 0x80) :
    Spells lead [second, third, fourth] character := by
  have valid := toNat_valid character
  rcases @owed?_of_four lead (by omega) (by omega) with ⟨low, high, table, bounds⟩
  have secondFits : low ≤ second.toNat ∧ second.toNat ≤ high := (bounds _).mpr (by omega)
  have thirdFits : 0x80 ≤ third.toNat ∧ third.toNat ≤ 0xBF := by omega
  have fourthFits : 0x80 ≤ fourth.toNat ∧ fourth.toNat ≤ 0xBF := by omega
  have accumulated : (((lead.toNat - 0xF0) * 0x40 + (second.toNat - 0x80)) * 0x40 +
      (third.toNat - 0x80)) * 0x40 + (fourth.toNat - 0x80) = character.toNat := by omega
  exact ⟨_, table, rfl, ⟨secondFits, thirdFits, fourthFits, trivial⟩,
    eq_ofNat_of_toNat accumulated⟩

theorem spells_of_encode (character : Char) :
    ∃ lead tail, utf8EncodeChar character = lead :: tail ∧ Spells lead tail character := by
  by_cases one : character.toNat ≤ 0x7F
  · exact ⟨_, _, encode_one one, spells_one one (toNat_ofNat_byte (by omega))⟩
  by_cases two : character.toNat ≤ 0x7FF
  · exact ⟨_, _, encode_two (by omega) two, spells_two (by omega) two
      (toNat_ofNat_byte (by omega)) (toNat_ofNat_byte (by omega))⟩
  by_cases three : character.toNat ≤ 0xFFFF
  · exact ⟨_, _, encode_three (by omega) three, spells_three (by omega) three
      (toNat_ofNat_byte (by omega)) (toNat_ofNat_byte (by omega))
      (toNat_ofNat_byte (by omega))⟩
  · exact ⟨_, _, encode_four (by omega), spells_four (by omega)
      (toNat_ofNat_byte (by omega)) (toNat_ofNat_byte (by omega))
      (toNat_ofNat_byte (by omega)) (toNat_ofNat_byte (by omega))⟩

/-! ## The front in terms of the encoder -/

theorem front_encode_append (character : Char) (rest : List UInt8) :
    front (utf8EncodeChar character ++ rest) =
      .scalar character (utf8EncodeChar character).length := by
  rcases spells_of_encode character with ⟨lead, tail, written, spells⟩
  rw [written]
  exact front_of_spells spells rest

/-- The front is a character exactly if the bytes start with what is written for it. -/
theorem front_eq_scalar_iff {bytes : List UInt8} {character : Char} {size : Nat} :
    front bytes = .scalar character size ↔
      utf8EncodeChar character <+: bytes ∧ size = (utf8EncodeChar character).length := by
  constructor
  · intro found
    rcases spells_of_front found with ⟨lead, tail, rest, rfl, spells, rfl⟩
    rw [encode_of_spells spells]
    exact ⟨List.prefix_append _ _, rfl⟩
  · rintro ⟨⟨rest, rfl⟩, rfl⟩
    exact front_encode_append character rest

end Encoder

end Utf8
end ForwardCursor
