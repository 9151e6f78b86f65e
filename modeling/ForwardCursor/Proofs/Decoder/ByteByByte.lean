import ForwardCursor.Proofs.Utf8.Stability
import ForwardCursor.Utf8.Decoder

namespace ForwardCursor

/-!
# Decoding from the buffer is decoding byte by byte

A decoder that keeps no bytes decides at once on everything that the buffer holds.  One
that keeps some takes a byte at a time.  The first way is an abbreviation of the second:
it answers the same, and leaves the same bytes in the buffer and the same bytes kept.

Everything about decoders is derived from the steps for a single byte in this module.
They hold in the same form whether bytes are kept or not.
-/

namespace Decoder

open Utf8

/-- Act upon the front of all bytes at hand.  The reader is the one behind that front. -/
def settle (decoder : Decoder) (reader : Reader) (bytes : List UInt8) :
    Except Failure (Option Char) × Decoder :=
  match front bytes with
  | .scalar character size =>
    (.ok (some character),
      { decoder with reader, pending := [], offset := decoder.offset + size })
  | .malformed size =>
    let later := { decoder with reader, pending := bytes.take size }
    if size = bytes.length then later.decode else later.reject

theorem settle_of_scalar {bytes : List UInt8} {character : Char} {size : Nat}
    (found : front bytes = .scalar character size) (decoder : Decoder) (reader : Reader) :
    decoder.settle reader bytes = (.ok (some character),
      { decoder with reader, pending := [], offset := decoder.offset + size }) := by
  rw [settle, found]

theorem settle_of_broken {bytes : List UInt8} {size : Nat}
    (found : front bytes = .malformed size) (short : size < bytes.length)
    (decoder : Decoder) (reader : Reader) :
    decoder.settle reader bytes =
      ({ decoder with reader, pending := bytes.take size } : Decoder).reject := by
  rw [settle, found]
  exact if_neg (Nat.ne_of_lt short)

theorem settle_of_unfinished {bytes : List UInt8} (unfinished : Unfinished bytes)
    (decoder : Decoder) (reader : Reader) :
    decoder.settle reader bytes = decode { decoder with reader, pending := bytes } := by
  rw [settle, unfinished]
  simp only [if_true, List.take_length]

/-- Without bytes kept the buffer is decided on as a whole. -/
theorem decode_eq_settle_buffer {decoder : Decoder} {byte : UInt8} {reader : Reader}
    (seen : decoder.reader.peek = (.ok (some byte), reader)) (empty : decoder.pending = []) :
    decoder.decode =
      decoder.settle (reader.consume (front reader.buffer).size) reader.buffer := by
  rw [decode_of_buffer seen empty, settle]
  cases front reader.buffer with
  | scalar character size => rw [← empty]; rfl
  | malformed size => rfl

/-- With bytes kept the buffer is gone through byte by byte, with the same outcome. -/
theorem decode_eq_settle_pending {decoder : Decoder} {bytes : List UInt8}
    (held : decoder.reader.buffer = bytes) (kept : decoder.pending ≠ [])
    (unfinished : Unfinished decoder.pending) :
    decoder.decode = decoder.settle
      (decoder.reader.consume ((front (decoder.pending ++ bytes)).size - decoder.pending.length))
      (decoder.pending ++ bytes) := by
  induction bytes generalizing decoder with
  | nil =>
      rw [List.append_nil, unfinished, Front.size, Nat.sub_self, settle_of_unfinished unfinished]
      rfl
  | cons byte bytes inductionHypothesis =>
      have seen := Reader.peek_of_buffer held
      have length : (decoder.pending ++ [byte]).length = decoder.pending.length + 1 := by
        rw [List.length_append, List.length_singleton]
      rw [decode_of_pending seen kept]
      rcases front_append_cons_cases unfinished byte bytes with
        ⟨character, complete, found⟩ | ⟨broken, found⟩ | later
      · rw [complete, settle_of_scalar found, found, Front.size, Nat.add_sub_cancel_left]
      · have short : decoder.pending.length < (decoder.pending ++ byte :: bytes).length := by
          rw [List.length_append, List.length_cons]
          omega
        rw [broken, settle_of_broken found short, found, Front.size, Nat.sub_self,
          List.take_left' rfl]
        exact if_pos (Nat.le_refl _)
      · let next : Decoder := { decoder with
          reader := decoder.reader.consume
          pending := decoder.pending ++ [byte] }
        have taken : next.reader.buffer = bytes := by
          change decoder.reader.buffer.drop 1 = bytes
          rw [held, List.drop_one, List.tail_cons]
        have whole : next.decode = decoder.settle (decoder.reader.consume.consume
            ((front (decoder.pending ++ [byte] ++ bytes)).size -
              (decoder.pending ++ [byte]).length)) (decoder.pending ++ [byte] ++ bytes) :=
          inductionHypothesis taken (List.concat_ne_nil byte decoder.pending) later
        have longer : (decoder.pending ++ [byte]).length ≤
            (front (decoder.pending ++ [byte] ++ bytes)).size := later.length_le bytes
        have further : 1 + ((front (decoder.pending ++ [byte] ++ bytes)).size -
            (decoder.pending ++ [byte]).length) =
            (front (decoder.pending ++ [byte] ++ bytes)).size - decoder.pending.length := by
          omega
        rw [later, List.append_cons decoder.pending byte bytes, ← further,
          ← Reader.consume_consume, ← whole, length]
        exact if_neg (Nat.not_succ_le_self _)

/-! ## Steps for a single byte -/

/-- A byte that completes a character. -/
theorem decode_of_scalar {decoder : Decoder} {byte : UInt8} {reader : Reader}
    {character : Char} {size : Nat}
    (seen : decoder.reader.peek = (.ok (some byte), reader))
    (complete : front (decoder.pending ++ [byte]) = .scalar character size) :
    decoder.decode = (.ok (some character),
      { decoder with
        reader := reader.consume
        pending := []
        offset := decoder.offset + size }) := by
  by_cases empty : decoder.pending = []
  · rcases Reader.buffer_of_peek_some seen with ⟨rest, held⟩
    rw [empty, List.nil_append] at complete
    have found := front_append_of_scalar complete rest
    have positive := size_front_pos byte []
    have bound := size_front_le [byte]
    rw [complete, Front.size] at positive bound
    have single : size = 1 := Nat.le_antisymm bound positive
    rw [List.singleton_append, ← held] at found
    rw [decode_eq_settle_buffer seen empty, settle_of_scalar found, found, Front.size, single]
  · rw [decode_of_pending seen empty, complete]

/-- A byte that does not continue the bytes kept. -/
theorem decode_of_break {decoder : Decoder} {byte : UInt8} {reader : Reader} {size : Nat}
    (seen : decoder.reader.peek = (.ok (some byte), reader))
    (broken : front (decoder.pending ++ [byte]) = .malformed size)
    (short : size ≤ decoder.pending.length) :
    decoder.decode = { decoder with reader }.reject := by
  have kept : decoder.pending ≠ [] := by
    intro empty
    have positive := size_front_pos byte []
    rw [empty, List.nil_append] at broken
    rw [broken, Front.size] at positive
    rw [empty, List.length_nil] at short
    exact absurd positive (Nat.not_lt_of_le short)
  rw [decode_of_pending seen kept, broken]
  exact if_pos short

/-- A byte after which nothing is decided. -/
theorem decode_of_continue {decoder : Decoder} {byte : UInt8} {reader : Reader} {size : Nat}
    (seen : decoder.reader.peek = (.ok (some byte), reader))
    (broken : front (decoder.pending ++ [byte]) = .malformed size)
    (whole : decoder.pending.length < size) :
    decoder.decode = decode { decoder with
      reader := reader.consume
      pending := decoder.pending ++ [byte] } := by
  by_cases empty : decoder.pending = []
  · -- The buffer is decided on at once here, and byte by byte on the other side.
    rcases Reader.buffer_of_peek_some seen with ⟨rest, held⟩
    rw [empty, List.nil_append] at broken ⊢
    have bound := size_front_le [byte]
    rw [broken, Front.size] at bound
    have single : size = 1 := Nat.le_antisymm bound (Nat.lt_of_le_of_lt (Nat.zero_le _) whole)
    have unfinished : Unfinished [byte] := by rw [Unfinished, broken, single, List.length_singleton]
    have taken : reader.consume.buffer = rest := by
      change reader.buffer.drop 1 = rest
      rw [held, List.drop_one, List.tail_cons]
    have positive := size_front_pos byte rest
    have further : 1 + ((front (byte :: rest)).size - 1) = (front (byte :: rest)).size :=
      Nat.add_sub_cancel' positive
    have later : decode { decoder with reader := reader.consume, pending := [byte] } =
        decoder.settle (reader.consume.consume ((front (byte :: rest)).size - 1)) (byte :: rest) :=
      @decode_eq_settle_pending { decoder with reader := reader.consume, pending := [byte] } rest
        taken (List.cons_ne_nil byte []) unfinished
    rw [later, Reader.consume_consume, further, decode_eq_settle_buffer seen empty, held]
  · rw [decode_of_pending seen empty, broken]
    exact if_neg (Nat.not_le_of_gt whole)

end Decoder
end ForwardCursor
