import ForwardCursor.Proofs.Decoder.ByteByByte
import ForwardCursor.Proofs.Reader.Deliveries

namespace ForwardCursor

/-!
# A decoder answers with the front of its bytes

A decoder takes its bytes one at a time, but its answer is the one that all the bytes
it can get would give at once: the front of the bytes that it keeps together with those
that its reader has up to the next end or fault.  It takes exactly the bytes of that
front.  In particular the byte that breaks a sequence is still in the reader.

If all of those bytes are unfinished, they end up being kept, and the end or the fault
decides what becomes of them.
-/

namespace Decoder

open Delivery Utf8

theorem decode_eq_settle {decoder : Decoder} {bytes : List UInt8} {rest : List Delivery}
    (delivers : decoder.reader.Delivers (ofBytes bytes ++ rest))
    (unfinished : Unfinished decoder.pending) :
    let all := decoder.pending ++ bytes
    ∃ after : Reader, after.Delivers (ofBytes (all.drop (front all).size) ++ rest) ∧
      decoder.decode = decoder.settle after all := by
  induction bytes generalizing decoder with
  | nil =>
      refine ⟨decoder.reader, ?_, ?_⟩
      · rw [List.append_nil, unfinished, Front.size, List.drop_length]
        exact delivers
      · rw [List.append_nil, settle_of_unfinished unfinished]
  | cons byte bytes inductionHypothesis =>
      intro all
      rcases Reader.peek_of_byte delivers with ⟨seen, looked, stays, consumed⟩
      rcases front_append_cons_cases unfinished byte bytes with
        ⟨character, complete, found⟩ | ⟨broken, found⟩ | later
      · refine ⟨seen.consume, ?_, ?_⟩
        · have behind : all.drop (decoder.pending.length + 1) = bytes := by
            rw [← List.drop_drop, List.drop_left' rfl, List.drop_one, List.tail_cons]
          rw [found, Front.size, behind]
          exact consumed
        · rw [decode_of_scalar looked complete, settle_of_scalar found]
      · have short : decoder.pending.length < all.length := by
          rw [List.length_append, List.length_cons]
          omega
        refine ⟨seen, ?_, ?_⟩
        · rw [found, Front.size, List.drop_left' rfl]
          exact stays
        · rw [decode_of_break looked broken (Nat.le_refl _), settle_of_broken found short,
            List.take_left' rfl]
      · let kept : Decoder := { decoder with
          reader := seen.consume, pending := decoder.pending ++ [byte] }
        have grows : decoder.pending.length < (decoder.pending ++ [byte]).length := by
          rw [List.length_append, List.length_singleton]
          exact Nat.lt_succ_self _
        have regroup : all = kept.pending ++ bytes := List.append_cons decoder.pending byte bytes
        have unfinishedKept : Unfinished kept.pending := later
        rcases inductionHypothesis consumed unfinishedKept with ⟨after, left, decoded⟩
        refine ⟨after, ?_, ?_⟩
        · rw [regroup]
          exact left
        · rw [decode_of_continue looked later grows, regroup]
          exact decoded

end Decoder
end ForwardCursor
