import ForwardCursor.Proofs.Decoder.ByteByByte
import ForwardCursor.Proofs.Reader.Deliveries

namespace ForwardCursor

/-!
# What a request makes of the deliveries

A decoder sees its reader only through what the reader delivers.  So a request can be
described without a reader: it uses up some deliveries, it gives an answer, and it
leaves a decoder behind, for every reader that has these deliveries.

The first delivery usually settles the request.  If it does not, then it was a byte
that is kept, and the request is the same as one that starts behind this byte.  A fault
settles every request, and it is the only way to an answer that reports a fault.
-/

namespace Decoder

open Utf8

/-- The fault that an answer reports, if the reader is to blame. -/
def fault? : Except Failure (Option Char) → Option Fault
  | .ok _ => none
  | .error failure => failure.fault?

/-- A request with any reader that has the deliveries gives the answer, and leaves the
second decoder with a reader that has the rest. -/
def Answers (decoder : Decoder) (deliveries : List Delivery)
    (answer : Except Failure (Option Char)) (left : Decoder) (rest : List Delivery) : Prop :=
  ∀ reader : Reader, reader.Delivers deliveries →
    ∃ after : Reader, after.Delivers rest ∧
      decode { decoder with reader } = (answer, { left with reader := after })

/-- A request with any reader that has the deliveries is the same as one of the second
decoder with a reader that has the rest. -/
def Takes (decoder : Decoder) (deliveries : List Delivery) (left : Decoder)
    (rest : List Delivery) : Prop :=
  ∀ reader : Reader, reader.Delivers deliveries →
    ∃ after : Reader, after.Delivers rest ∧
      decode { decoder with reader } = decode { left with reader := after }

theorem Takes.refl (decoder : Decoder) (deliveries : List Delivery) :
    Takes decoder deliveries decoder deliveries :=
  fun reader delivers => ⟨reader, delivers, rfl⟩

theorem Takes.trans {first second third : Decoder} {before between after : List Delivery}
    (start : Takes first before second between) (further : Takes second between third after) :
    Takes first before third after := by
  intro reader delivers
  rcases start reader delivers with ⟨next, delivered, same⟩
  rcases further next delivered with ⟨last, remaining, later⟩
  exact ⟨last, remaining, same.trans later⟩

theorem Takes.answers {first second third : Decoder} {before between after : List Delivery}
    {answer : Except Failure (Option Char)} (start : Takes first before second between)
    (later : Answers second between answer third after) :
    Answers first before answer third after := by
  intro reader delivers
  rcases start reader delivers with ⟨next, delivered, same⟩
  rcases later next delivered with ⟨last, remaining, decoded⟩
  exact ⟨last, remaining, same.trans decoded⟩

/-! ## The first delivery -/

/-- A rejection does not look at the reader, and no fault is reported by it. -/
theorem reject_cases (decoder : Decoder) :
    ∃ (answer : Except Failure (Option Char)) (left : Decoder), fault? answer = none ∧
      ∀ reader : Reader, ({ decoder with reader } : Decoder).reject = (answer, { left with reader }) := by
  rcases decoder with ⟨_, policy, pending, offset⟩
  let left := Decoder.mk (.ofBytes []) policy [] (offset + pending.length)
  cases policy with
  | strict => exact ⟨.error (.malformed ⟨pending, offset⟩), left, rfl, fun _ => rfl⟩
  | lossy => exact ⟨.ok (some replacement), left, rfl, fun _ => rfl⟩

theorem answers_of_fault (decoder : Decoder) (fault : Fault) (rest : List Delivery) :
    Answers decoder (.error fault :: rest) (.error (.read fault decoder.offset)) decoder rest := by
  intro reader delivers
  rcases Reader.peek_of_fault delivers with ⟨after, seen, left⟩
  exact ⟨after, left, decode_of_fault seen⟩

/-- At an end the bytes kept are rejected, if there are any. -/
theorem answers_of_end (decoder : Decoder) :
    ∃ (answer : Except Failure (Option Char)) (left : Decoder), fault? answer = none ∧
      ∀ deliveries : List Delivery,
        deliveries = [] ∨ deliveries.head? = some (.ok none) →
        Answers decoder deliveries answer left deliveries.tail := by
  by_cases kept : decoder.pending.isEmpty
  · refine ⟨.ok none, decoder, rfl, ?_⟩
    intro deliveries ended reader delivers
    rcases Reader.peek_of_end delivers ended with ⟨after, seen, left⟩
    refine ⟨after, left, ?_⟩
    rw [decode_of_end seen]
    exact if_pos kept
  · rcases decoder.reject_cases with ⟨answer, left, silent, rejected⟩
    refine ⟨answer, left, silent, ?_⟩
    intro deliveries ended reader delivers
    rcases Reader.peek_of_end delivers ended with ⟨after, seen, rest⟩
    refine ⟨after, rest, ?_⟩
    rw [decode_of_end seen]
    exact (if_neg kept).trans (rejected after)

/-- A byte completes a character, is left for the next request, or is kept.  What it
does depends on the bytes kept before and on nothing else. -/
theorem answers_or_takes_of_byte (decoder : Decoder) (byte : UInt8) :
    (∃ (answer : Except Failure (Option Char)) (left : Decoder), fault? answer = none ∧
      ∀ rest, Answers decoder (.ok (some byte) :: rest) answer left rest) ∨
    (∃ (answer : Except Failure (Option Char)) (left : Decoder), fault? answer = none ∧
      ∀ rest, Answers decoder (.ok (some byte) :: rest) answer left (.ok (some byte) :: rest)) ∨
    (∀ rest, Takes decoder (.ok (some byte) :: rest)
      { decoder with pending := decoder.pending ++ [byte] } rest) := by
  cases found : front (decoder.pending ++ [byte]) with
  | scalar character size =>
      refine Or.inl ⟨.ok (some character),
        { decoder with pending := [], offset := decoder.offset + size }, rfl, ?_⟩
      intro rest reader delivers
      rcases Reader.peek_of_byte delivers with ⟨after, seen, _, consumed⟩
      exact ⟨after.consume, consumed, decode_of_scalar seen found⟩
  | malformed size =>
      by_cases short : size ≤ decoder.pending.length
      · rcases decoder.reject_cases with ⟨answer, left, silent, rejected⟩
        refine Or.inr (Or.inl ⟨answer, left, silent, ?_⟩)
        intro rest reader delivers
        rcases Reader.peek_of_byte delivers with ⟨after, seen, stays, _⟩
        have broken : ({ decoder with reader } : Decoder).decode =
            ({ decoder with reader := after } : Decoder).reject :=
          decode_of_break seen found short
        exact ⟨after, stays, broken.trans (rejected after)⟩
      · refine Or.inr (Or.inr ?_)
        intro rest reader delivers
        rcases Reader.peek_of_byte delivers with ⟨after, seen, _, consumed⟩
        exact ⟨after.consume, consumed, decode_of_continue seen found (Nat.lt_of_not_le short)⟩

end Decoder
end ForwardCursor
