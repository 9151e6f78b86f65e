namespace ForwardCursor
namespace Utf8

/-!
# The front of a sequence of bytes

UTF-8 writes a character as a lead byte and up to three continuation bytes.  The
lead byte tells how many continuation bytes it needs, and narrows the range of the
first of them where the full range would allow an overlong form, a surrogate, or a
value above the last character.

Either a sequence of bytes starts with a character, or it starts with a malformed
part.  The malformed part is the longest front that some character's bytes start
with, and one byte if there is no such front.  It can be the whole sequence, and then
more bytes may still turn it into a character, unless it is a single byte that starts
no character.
-/

/-- What a sequence of bytes starts with, and the number of bytes that belong to it. -/
inductive Front where
  | scalar (character : Char) (size : Nat)
  | malformed (size : Nat)
  deriving DecidableEq

/-- The continuation bytes still needed: how many, the range of the next one, and the
value of the bits read so far. -/
structure Owed where
  count : Nat
  low : Nat := 0x80
  high : Nat := 0xBF
  value : Nat

/-- What a lead byte needs.  Continuation bytes, the lead bytes of overlong forms and
those of values that are too large lead no character. -/
def owed? (lead : UInt8) : Option Owed :=
  let byte := lead.toNat
  if byte < 0x80 then some { count := 0, value := byte }
  else if byte < 0xC2 then none
  else if byte < 0xE0 then some { count := 1, value := byte - 0xC0 }
  else if byte = 0xE0 then some { count := 2, low := 0xA0, value := 0x0 }
  else if byte = 0xED then some { count := 2, high := 0x9F, value := 0xD }
  else if byte < 0xF0 then some { count := 2, value := byte - 0xE0 }
  else if byte = 0xF0 then some { count := 3, low := 0x90, value := 0 }
  else if byte < 0xF4 then some { count := 3, value := byte - 0xF0 }
  else if byte = 0xF4 then some { count := 3, high := 0x8F, value := 4 }
  else none

/-- Read `count` continuation bytes after the `size` bytes of which `value` is the value.
The first of them lies between `low` and `high`, the others in the full range. -/
def continuation : (count low high value size : Nat) → List UInt8 → Front
  | 0, _, _, value, size, _ => .scalar (Char.ofNat value) size
  | _ + 1, _, _, _, size, [] => .malformed size
  | count + 1, low, high, value, size, byte :: rest =>
    if low ≤ byte.toNat ∧ byte.toNat ≤ high then
      continuation count 0x80 0xBF (value * 0x40 + (byte.toNat - 0x80)) (size + 1) rest
    else .malformed size

/-- What a sequence of bytes starts with.  The empty sequence starts with a malformed
part of no bytes. -/
def front : List UInt8 → Front
  | [] => .malformed 0
  | lead :: rest =>
    match owed? lead with
    | none => .malformed 1
    | some owed => continuation owed.count owed.low owed.high owed.value 1 rest

namespace Front

/-- The number of bytes at the front. -/
def size : Front → Nat
  | scalar _ size => size
  | malformed size => size

end Front

/-! ## Sizes -/

theorem size_continuation_le (count low high value size : Nat) (bytes : List UInt8) :
    (continuation count low high value size bytes).size ≤ size + bytes.length := by
  induction bytes generalizing count low high value size with
  | nil => cases count <;> exact Nat.le_refl _
  | cons byte rest inductionHypothesis =>
      cases count with
      | zero => exact Nat.le_add_right _ _
      | succ count =>
          unfold continuation
          split
          · have bound := inductionHypothesis count 0x80 0xBF
              (value * 0x40 + (byte.toNat - 0x80)) (size + 1)
            rw [List.length_cons]
            omega
          · exact Nat.le_add_right _ _

theorem le_size_continuation (count low high value size : Nat) (bytes : List UInt8) :
    size ≤ (continuation count low high value size bytes).size := by
  induction bytes generalizing count low high value size with
  | nil => cases count <;> exact Nat.le_refl _
  | cons byte rest inductionHypothesis =>
      cases count with
      | zero => exact Nat.le_refl _
      | succ count =>
          unfold continuation
          split
          · exact Nat.le_of_succ_le (inductionHypothesis count 0x80 0xBF
              (value * 0x40 + (byte.toNat - 0x80)) (size + 1))
          · exact Nat.le_refl _

/-- The front is part of the sequence. -/
theorem size_front_le (bytes : List UInt8) : (front bytes).size ≤ bytes.length := by
  cases bytes with
  | nil => exact Nat.le_refl _
  | cons lead rest =>
      simp only [front]
      split
      · exact Nat.le_add_left 1 _
      · next owed _ =>
          have bound := size_continuation_le owed.count owed.low owed.high owed.value 1 rest
          rw [List.length_cons]
          omega

/-- A sequence that is not empty has a front that is not empty. -/
theorem size_front_pos (lead : UInt8) (rest : List UInt8) : 0 < (front (lead :: rest)).size := by
  simp only [front]
  split
  · exact Nat.zero_lt_one
  · next owed _ => exact le_size_continuation owed.count owed.low owed.high owed.value 1 rest

end Utf8
end ForwardCursor
