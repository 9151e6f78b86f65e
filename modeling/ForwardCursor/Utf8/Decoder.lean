import ForwardCursor.Reader.Basic
import ForwardCursor.Utf8.Failure
import ForwardCursor.Utf8.Front

namespace ForwardCursor

/-!
# Decoding a reader

A decoder is the source of the characters that a reader's bytes stand for.  It looks at
the reader's buffer, and what the buffer starts with is usually decided there.  If the
buffer ends too early, its bytes are kept, and the decoder takes one byte after the other
for as long as the bytes kept are only the beginning of something.

A byte that does not continue the bytes kept is left in the reader, and these are a
malformed sequence.  So are they when the data ends behind them.  A malformed sequence
is used up before it is reported, so decoding can go on after it.

When the reader fails, the bytes kept stay for the next request.  The offset counts the
bytes of the characters and malformed sequences that have been given out, and not the
bytes kept.
-/

/-- What to make of a malformed sequence. -/
inductive Policy where
  /-- Report it as a failure. -/
  | strict
  /-- Give the replacement character in its place. -/
  | lossy
  deriving DecidableEq

/-- The reader, what to make of malformed sequences, the bytes taken from the reader for
which nothing has been given out yet, and the number of bytes for which something has. -/
structure Decoder where
  reader : Reader
  policy : Policy := .strict
  pending : List UInt8 := []
  offset : Nat := 0
  deriving DecidableEq

namespace Decoder

/-- The character that stands for a malformed sequence. -/
def replacement : Char := '\uFFFD'

/-- Give out the pending bytes as a malformed sequence. -/
def reject (decoder : Decoder) : Except Failure (Option Char) × Decoder :=
  let after := { decoder with
    pending := []
    offset := decoder.offset + decoder.pending.length }
  match decoder.policy with
  | .strict => (.error (.malformed ⟨decoder.pending, decoder.offset⟩), after)
  | .lossy => (.ok (some replacement), after)

/-- Decode the next character.  Every repetition takes bytes out of the reader. -/
def decode (decoder : Decoder) : Except Failure (Option Char) × Decoder :=
  match _ : decoder.reader.peek with
  | (.error fault, reader) => (.error (.read fault decoder.offset), { decoder with reader })
  | (.ok none, reader) =>
    if decoder.pending.isEmpty then (.ok none, { decoder with reader })
    else { decoder with reader }.reject
  | (.ok (some byte), reader) =>
    if decoder.pending.isEmpty then
      match _ : Utf8.front reader.buffer with
      | .scalar character size =>
        (.ok (some character),
          { decoder with
            reader := reader.consume size
            offset := decoder.offset + size })
      | .malformed size =>
        let kept := { decoder with
          reader := reader.consume size
          pending := reader.buffer.take size }
        if size = reader.buffer.length then decode kept else kept.reject
    else
      match Utf8.front (decoder.pending ++ [byte]) with
      | .scalar character size =>
        (.ok (some character),
          { decoder with
            reader := reader.consume
            pending := []
            offset := decoder.offset + size })
      | .malformed size =>
        if size ≤ decoder.pending.length then { decoder with reader }.reject
        else
          decode { decoder with
            reader := reader.consume
            pending := decoder.pending ++ [byte] }
termination_by decoder.reader.bytes.length
decreasing_by
  · refine Reader.length_consume_lt ‹_› ?_
    rcases Reader.buffer_of_peek_some ‹_› with ⟨rest, held⟩
    have positive := Utf8.size_front_pos byte rest
    rw [← held, ‹Utf8.front _ = _›] at positive
    exact positive
  · exact Reader.length_consume_lt ‹_› Nat.zero_lt_one

instance : Source Decoder Failure Char where
  pull := decode

/-! ## Single steps of the decoder -/

theorem pull_eq (decoder : Decoder) : Source.pull decoder = decoder.decode := rfl

theorem reject_strict {decoder : Decoder} (strict : decoder.policy = .strict) :
    decoder.reject = (.error (.malformed ⟨decoder.pending, decoder.offset⟩),
      { decoder with pending := [], offset := decoder.offset + decoder.pending.length }) := by
  simp only [reject, strict]

theorem reject_lossy {decoder : Decoder} (lossy : decoder.policy = .lossy) :
    decoder.reject = (.ok (some replacement),
      { decoder with pending := [], offset := decoder.offset + decoder.pending.length }) := by
  simp only [reject, lossy]

theorem decode_of_fault {decoder : Decoder} {fault : Fault} {reader : Reader}
    (failed : decoder.reader.peek = (.error fault, reader)) :
    decoder.decode = (.error (.read fault decoder.offset), { decoder with reader }) := by
  rw [decode]
  split
  · next found => cases failed.symm.trans found; rfl
  · next found => cases failed.symm.trans found
  · next found => cases failed.symm.trans found

theorem decode_of_end {decoder : Decoder} {reader : Reader}
    (ended : decoder.reader.peek = (.ok none, reader)) :
    decoder.decode = if decoder.pending.isEmpty then (.ok none, { decoder with reader })
      else { decoder with reader }.reject := by
  rw [decode]
  split
  · next found => cases ended.symm.trans found
  · next found => cases ended.symm.trans found; rfl
  · next found => cases ended.symm.trans found

/-- Without bytes kept the step depends on the front of the buffer. -/
theorem decode_of_buffer {decoder : Decoder} {byte : UInt8} {reader : Reader}
    (seen : decoder.reader.peek = (.ok (some byte), reader)) (empty : decoder.pending = []) :
    decoder.decode =
      match Utf8.front reader.buffer with
      | .scalar character size =>
        (.ok (some character),
          { decoder with
            reader := reader.consume size
            offset := decoder.offset + size })
      | .malformed size =>
        let kept := { decoder with
          reader := reader.consume size
          pending := reader.buffer.take size }
        if size = reader.buffer.length then decode kept else kept.reject := by
  rw [decode]
  split
  · next found => cases seen.symm.trans found
  · next found => cases seen.symm.trans found
  · next found =>
      cases seen.symm.trans found
      rw [if_pos (List.isEmpty_iff.mpr empty)]
      split <;> simp only [*]

/-- With bytes kept the step depends on the front of these bytes with the next one. -/
theorem decode_of_pending {decoder : Decoder} {byte : UInt8} {reader : Reader}
    (seen : decoder.reader.peek = (.ok (some byte), reader)) (kept : decoder.pending ≠ []) :
    decoder.decode =
      match Utf8.front (decoder.pending ++ [byte]) with
      | .scalar character size =>
        (.ok (some character),
          { decoder with
            reader := reader.consume
            pending := []
            offset := decoder.offset + size })
      | .malformed size =>
        if size ≤ decoder.pending.length then { decoder with reader }.reject
        else
          decode { decoder with
            reader := reader.consume
            pending := decoder.pending ++ [byte] } := by
  rw [decode]
  split
  · next found => cases seen.symm.trans found
  · next found => cases seen.symm.trans found
  · next found =>
      cases seen.symm.trans found
      exact if_neg (kept ∘ List.isEmpty_iff.mp)

end Decoder

end ForwardCursor
