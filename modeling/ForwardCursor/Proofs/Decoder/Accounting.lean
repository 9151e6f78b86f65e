import ForwardCursor.Proofs.Decoder.Chunking
import ForwardCursor.Proofs.Decoder.Segmentation

namespace ForwardCursor

/-!
# Where the bytes of a decoder are

Every byte that a decoder has taken out of its reader is either counted by the offset or kept.
A request moves bytes from the reader to the bytes kept, pass by pass, until it can give
something out for all of them.  If it gives out a part, the offset grows by the bytes of that
part, which are those that were kept and those that the request has taken.  If the reader
fails first, the bytes stay where they are.

The replacement character does not tell which part it was given out for, or that it was given
out for one at all.  Under every policy it is the first part of the bytes in front of the next
end or fault, where those kept are the first of them.

A pass that gives nothing out takes at least one byte, and the bytes kept are the beginning of
a character.  This bounds the passes of a request and the bytes that it can take.
-/

namespace Utf8

/-- The longest encoding has four bytes, so unfinished bytes are fewer. -/
theorem Unfinished.length_lt {bytes : List UInt8} (unfinished : Unfinished bytes) :
    bytes.length < 4 := by
  cases bytes with
  | nil => exact Nat.zero_lt_succ 3
  | cons lead rest =>
      cases leading : owed? lead with
      | none =>
          simp only [Unfinished, front, leading, Front.malformed.injEq] at unfinished
          rw [← unfinished]
          exact Nat.lt_add_left 2 (Nat.lt_succ_self 1)
      | some owed =>
          rcases viable_of_unfinished leading unfinished with ⟨character, more, nonempty, whole⟩
          have longest := character.utf8Size_le_four
          have positive := List.length_pos_iff.mpr nonempty
          rw [← String.length_utf8EncodeChar, whole, List.length_append] at longest
          omega

end Utf8

/-- Bytes are consumed from the front. -/
theorem Reader.take_append_bytes_consume (reader : Reader) (count : Nat) :
    reader.buffer.take count ++ (reader.consume count).bytes = reader.bytes := by
  rw [bytes, bytes, consume, ← List.append_assoc, List.take_append_drop]

namespace Decoder

open Utf8

/-! ## Passes -/

/-- One pass of a request.  It comes to an answer, or to a decoder for the next pass. -/
def pass (decoder : Decoder) : (Except Failure (Option Char) × Decoder) ⊕ Decoder :=
  match decoder.reader.peek with
  | (.error fault, reader) => .inl (.error (.read fault decoder.offset), { decoder with reader })
  | (.ok none, reader) =>
    if decoder.pending.isEmpty then .inl (.ok none, { decoder with reader })
    else .inl { decoder with reader }.reject
  | (.ok (some byte), reader) =>
    if decoder.pending.isEmpty then
      match front reader.buffer with
      | .scalar character size =>
        .inl (.ok (some character),
          { decoder with
            reader := reader.consume size
            offset := decoder.offset + size })
      | .malformed size =>
        let kept := { decoder with
          reader := reader.consume size
          pending := reader.buffer.take size }
        if size = reader.buffer.length then .inr kept else .inl kept.reject
    else
      match front (decoder.pending ++ [byte]) with
      | .scalar character size =>
        .inl (.ok (some character),
          { decoder with
            reader := reader.consume
            pending := []
            offset := decoder.offset + size })
      | .malformed size =>
        if size ≤ decoder.pending.length then .inl { decoder with reader }.reject
        else .inr { decoder with
          reader := reader.consume
          pending := decoder.pending ++ [byte] }

/-- The answer of a request within a number of passes. -/
def passes : Nat → Decoder → Option (Except Failure (Option Char) × Decoder)
  | 0, _ => none
  | count + 1, decoder =>
    match decoder.pass with
    | .inl outcome => some outcome
    | .inr next => passes count next

/-- A request is one pass, and if that comes to no answer, it is the same request again. -/
theorem decode_eq_pass (decoder : Decoder) :
    decoder.decode =
      match decoder.pass with
      | .inl outcome => outcome
      | .inr next => next.decode := by
  rcases seen : decoder.reader.peek with ⟨answer, reader⟩
  match answer with
  | .error fault => simp only [decode_of_fault seen, pass, seen]
  | .ok none =>
      simp only [decode_of_end seen, pass, seen]
      split <;> rfl
  | .ok (some byte) =>
      by_cases empty : decoder.pending = []
      · have none : decoder.pending.isEmpty = true := List.isEmpty_iff.mpr empty
        simp only [decode_of_buffer seen empty, pass, seen, none, if_true]
        cases front reader.buffer with
        | scalar character size => rfl
        | malformed size =>
            by_cases whole : size = reader.buffer.length
            · simp only [if_pos whole]
            · simp only [if_neg whole]
      · have some : decoder.pending.isEmpty = false := List.isEmpty_eq_false_iff.mpr empty
        simp only [decode_of_pending seen empty, pass, seen, some, Bool.false_eq_true, if_false]
        cases front (decoder.pending ++ [byte]) with
        | scalar character size => rfl
        | malformed size =>
            by_cases short : size ≤ decoder.pending.length
            · simp only [if_pos short]
            · simp only [if_neg short]

theorem decode_of_passes {count : Nat} {decoder : Decoder}
    {outcome : Except Failure (Option Char) × Decoder}
    (finished : decoder.passes count = some outcome) : decoder.decode = outcome := by
  induction count generalizing decoder with
  | zero => cases finished
  | succ count inductionHypothesis =>
      rw [decode_eq_pass]
      rw [passes] at finished
      cases passed : decoder.pass with
      | inl result =>
          rw [passed] at finished
          exact Option.some.inj finished
      | inr next =>
          rw [passed] at finished
          exact inductionHypothesis finished

/-! ## What a pass does to the bytes -/

/-- Bytes move from the reader to the bytes kept, and nothing else happens. -/
structure Keeps (before : Decoder) (taken : List UInt8) (after : Decoder) : Prop where
  bytes_eq : before.reader.bytes = taken ++ after.reader.bytes
  pending_eq : after.pending = before.pending ++ taken
  offset_eq : after.offset = before.offset
  policy_eq : after.policy = before.policy
  unfinished : Unfinished after.pending

/-- The ways in which a request can come to its answer, and the bytes that it takes. -/
inductive Settles (before : Decoder) (taken : List UInt8) :
    Except Failure (Option Char) → Decoder → Prop where
  /-- The reader fails. -/
  | failed {after : Decoder} (fault : Fault) (keeps : Keeps before taken after) :
      Settles before taken (.error (.read fault before.offset)) after
  /-- The data ends, and there are no bytes that something could be given out for. -/
  | ended {after : Decoder} (keeps : Keeps before taken after) (empty : after.pending = []) :
      Settles before taken (.ok none) after
  /-- A part is given out, which is a character or a malformed sequence. -/
  | gave {after : Decoder} (part : Part) (spelled : before.pending ++ taken = part.bytes)
      (short : part.bytes.length ≤ 4) (bytes_eq : before.reader.bytes = taken ++ after.reader.bytes)
      (empty : after.pending = []) (offset_eq : after.offset = before.offset + part.bytes.length)
      (policy_eq : after.policy = before.policy) :
      Settles before taken (answer before.policy before.offset part) after

theorem Keeps.settles {before middle after : Decoder} {earlier taken : List UInt8}
    {answer : Except Failure (Option Char)} (keeps : Keeps before earlier middle)
    (settles : Settles middle taken answer after) :
    Settles before (earlier ++ taken) answer after := by
  rcases keeps with ⟨bytes, pending, offset, policy, _⟩
  have whole {rest : List UInt8} (later : middle.reader.bytes = taken ++ rest) :
      before.reader.bytes = earlier ++ taken ++ rest := by
    rw [bytes, later, List.append_assoc]
  have all : middle.pending ++ taken = before.pending ++ (earlier ++ taken) := by
    rw [pending, List.append_assoc]
  cases settles with
  | failed fault later =>
      rw [offset]
      exact .failed fault ⟨whole later.bytes_eq, later.pending_eq.trans all,
        later.offset_eq.trans offset, later.policy_eq.trans policy, later.unfinished⟩
  | ended later empty =>
      exact .ended ⟨whole later.bytes_eq, later.pending_eq.trans all,
        later.offset_eq.trans offset, later.policy_eq.trans policy, later.unfinished⟩ empty
  | gave part spelled short later empty counted same =>
      rw [offset, policy]
      rw [offset] at counted
      exact .gave part (all.symm.trans spelled) short (whole later) empty counted
        (same.trans policy)

/-- To reject the bytes kept is to give them out as a malformed part. -/
theorem Keeps.settles_reject {before kept : Decoder} {taken : List UInt8}
    (keeps : Keeps before taken kept) : Settles before taken kept.reject.1 kept.reject.2 := by
  rcases keeps with ⟨bytes, pending, offset, policy, unfinished⟩
  rw [reject_eq, policy, offset]
  exact .gave (.malformed kept.pending) pending.symm (Nat.le_of_lt unfinished.length_lt) bytes rfl
    rfl rfl

theorem settles_scalar {before after : Decoder} {taken : List UInt8} {character : Char} {size : Nat}
    (bytes : before.reader.bytes = taken ++ after.reader.bytes)
    (found : front (before.pending ++ taken) = .scalar character size)
    (whole : (before.pending ++ taken).length = size) (empty : after.pending = [])
    (counted : after.offset = before.offset + size) (policy : after.policy = before.policy) :
    Settles before taken (.ok (some character)) after := by
  rcases front_eq_scalar_iff.mp found with ⟨start, rfl⟩
  have spelled : before.pending ++ taken = (Part.scalar character).bytes :=
    (start.eq_of_length whole.symm).symm
  have short : (Part.scalar character).bytes.length ≤ 4 := by
    rw [Part.bytes, String.length_utf8EncodeChar]
    exact character.utf8Size_le_four
  exact .gave (.scalar character) spelled short bytes empty counted policy

/-- A look at the reader takes nothing. -/
theorem keeps_peek {before : Decoder} {answer : Except Fault (Option UInt8)} {reader : Reader}
    (seen : before.reader.peek = (answer, reader)) (unfinished : Unfinished before.pending) :
    Keeps before [] { before with reader } := by
  have bytes := before.reader.bytes_peek
  rw [seen] at bytes
  exact ⟨bytes.symm, (List.append_nil _).symm, rfl, rfl, unfinished⟩

/-- A pass comes to an answer, or it takes some bytes and keeps them all. -/
inductive Proceeds (before : Decoder) : (Except Failure (Option Char) × Decoder) ⊕ Decoder → Prop where
  | answered {answer : Except Failure (Option Char)} {after : Decoder} {taken : List UInt8}
      (settles : Settles before taken answer after) : Proceeds before (.inl (answer, after))
  | kept {next : Decoder} {taken : List UInt8} (nonempty : taken ≠ [])
      (keeps : Keeps before taken next) : Proceeds before (.inr next)

/-- Without bytes kept, those of the front of the buffer are taken. -/
theorem proceeds_of_buffer {before : Decoder} {byte : UInt8} {reader : Reader}
    (seen : before.reader.peek = (.ok (some byte), reader)) (empty : before.pending = []) :
    Proceeds before before.pass := by
  have none : before.pending.isEmpty = true := List.isEmpty_iff.mpr empty
  have taken (size : Nat) : before.reader.bytes =
      reader.buffer.take size ++ (reader.consume size).bytes := by
    rw [reader.take_append_bytes_consume, ← before.reader.bytes_peek, seen]
  have bound := size_front_le reader.buffer
  simp only [pass, seen, none, if_true]
  cases found : front reader.buffer with
  | scalar character size =>
      rw [found, Front.size] at bound
      refine .answered (settles_scalar (taken size) ?_ ?_ empty rfl rfl)
      · rw [empty, List.nil_append]
        exact front_take_of_scalar found
      · rw [empty, List.nil_append, List.length_take, Nat.min_eq_left bound]
  | malformed size =>
      have keeps : Keeps before (reader.buffer.take size)
          { before with reader := reader.consume size, pending := reader.buffer.take size } := by
        refine ⟨taken size, ?_, rfl, rfl, unfinished_take found⟩
        rw [empty, List.nil_append]
      by_cases whole : size = reader.buffer.length
      · rcases Reader.buffer_of_peek_some seen with ⟨rest, held⟩
        have nonempty : reader.buffer.take size ≠ [] := by
          rw [whole, List.take_length, held]
          exact List.cons_ne_nil byte rest
        simp only [if_pos whole]
        exact .kept nonempty keeps
      · simp only [if_neg whole]
        exact .answered keeps.settles_reject

/-- With bytes kept, the next byte is taken unless it does not continue them. -/
theorem proceeds_of_pending {before : Decoder} {byte : UInt8} {reader : Reader}
    (seen : before.reader.peek = (.ok (some byte), reader)) (some : before.pending ≠ [])
    (unfinished : Unfinished before.pending) : Proceeds before before.pass := by
  have some : before.pending.isEmpty = false := List.isEmpty_eq_false_iff.mpr some
  have longer : (before.pending ++ [byte]).length = before.pending.length + 1 := by
    rw [List.length_append, List.length_singleton]
  have taken := Reader.bytes_consume_of_peek_some seen
  simp only [pass, seen, some, Bool.false_eq_true, if_false]
  rcases front_snoc_cases unfinished byte with ⟨character, found⟩ | broken | later
  · simp only [found]
    exact .answered (settles_scalar taken found longer rfl rfl rfl)
  · simp only [broken, Nat.le_refl, if_true]
    exact .answered (keeps_peek seen unfinished).settles_reject
  · have continues : ¬ (before.pending ++ [byte]).length ≤ before.pending.length := by
      rw [longer]
      exact Nat.not_succ_le_self _
    have found : front (before.pending ++ [byte]) = .malformed (before.pending ++ [byte]).length :=
      later
    simp only [found, if_neg continues]
    exact .kept (List.cons_ne_nil byte []) ⟨taken, rfl, rfl, rfl, later⟩

theorem proceeds_pass {before : Decoder} (unfinished : Unfinished before.pending) :
    Proceeds before before.pass := by
  rcases seen : before.reader.peek with ⟨answer, reader⟩
  match answer with
  | .error fault =>
      simp only [pass, seen]
      exact .answered (.failed fault (keeps_peek seen unfinished))
  | .ok none =>
      by_cases empty : before.pending = []
      · simp only [pass, seen, List.isEmpty_iff.mpr empty, if_true]
        exact .answered (.ended (keeps_peek seen unfinished) empty)
      · simp only [pass, seen, List.isEmpty_eq_false_iff.mpr empty, Bool.false_eq_true, if_false]
        exact .answered (keeps_peek seen unfinished).settles_reject
  | .ok (some byte) =>
      by_cases empty : before.pending = []
      · exact proceeds_of_buffer seen empty
      · exact proceeds_of_pending seen empty unfinished

/-! ## Requests -/

/-- Each pass that comes to no answer adds to the bytes kept, of which there are never four. -/
theorem passes_settle {count : Nat} {before : Decoder} (unfinished : Unfinished before.pending)
    (enough : 4 ≤ count + before.pending.length) :
    ∃ answer after taken, before.passes count = some (answer, after) ∧
      Settles before taken answer after := by
  -- What is counted down is the room for bytes that may still be kept.
  induction count generalizing before with
  | zero =>
      rw [Nat.zero_add] at enough
      exact absurd unfinished.length_lt (Nat.not_lt_of_le enough)
  | succ count inductionHypothesis =>
      have proceeds := proceeds_pass unfinished
      rw [passes]
      cases passed : before.pass with
      | inl outcome =>
          rw [passed] at proceeds
          cases proceeds with
          | answered settles => exact ⟨_, _, _, rfl, settles⟩
      | inr next =>
          rw [passed] at proceeds
          cases proceeds with
          | kept nonempty keeps =>
              have more := List.length_pos_iff.mpr nonempty
              have later : 4 ≤ count + next.pending.length := by
                rw [keeps.pending_eq, List.length_append]
                omega
              rcases inductionHypothesis keeps.unfinished later with
                ⟨answer, after, taken, finished, settles⟩
              exact ⟨answer, after, _, finished, keeps.settles settles⟩

/-- A request comes to its answer within four passes. -/
theorem decode_settles {before : Decoder} (unfinished : Unfinished before.pending) :
    ∃ answer after taken, before.decode = (answer, after) ∧
      before.passes 4 = some (answer, after) ∧ Settles before taken answer after := by
  rcases passes_settle unfinished (Nat.le_add_right 4 before.pending.length) with
    ⟨answer, after, taken, finished, settles⟩
  exact ⟨answer, after, taken, decode_of_passes finished, finished, settles⟩

namespace Settles

variable {before after : Decoder} {taken : List UInt8} {answer : Except Failure (Option Char)}

theorem bytes_eq (settles : Settles before taken answer after) :
    before.reader.bytes = taken ++ after.reader.bytes := by
  cases settles with
  | failed _ keeps | ended keeps _ => exact keeps.bytes_eq
  | gave _ _ _ bytes _ _ _ => exact bytes

theorem policy_eq (settles : Settles before taken answer after) : after.policy = before.policy := by
  cases settles with
  | failed _ keeps | ended keeps _ => exact keeps.policy_eq
  | gave _ _ _ _ _ _ policy => exact policy

theorem unfinished (settles : Settles before taken answer after) : Unfinished after.pending := by
  cases settles with
  | failed _ keeps | ended keeps _ => exact keeps.unfinished
  | gave _ _ _ _ empty _ _ =>
      rw [empty]
      exact unfinished_nil

/-- The offset and the bytes kept grow together by the bytes that are taken. -/
theorem offset_add_pending (settles : Settles before taken answer after) :
    after.offset + after.pending.length =
      before.offset + before.pending.length + taken.length := by
  cases settles with
  | failed _ keeps | ended keeps _ =>
      rw [keeps.offset_eq, keeps.pending_eq, List.length_append, Nat.add_assoc]
  | gave part spelled _ _ empty counted _ =>
      rw [counted, empty, List.length_nil, Nat.add_zero, ← spelled, List.length_append,
        Nat.add_assoc]

theorem length_taken_le (settles : Settles before taken answer after) : taken.length ≤ 4 := by
  cases settles with
  | failed _ keeps | ended keeps _ =>
      have fewer := keeps.unfinished.length_lt
      rw [keeps.pending_eq, List.length_append] at fewer
      omega
  | gave part spelled short _ _ _ _ =>
      rw [← spelled, List.length_append] at short
      exact Nat.le_trans (Nat.le_add_left _ _) short

end Settles

/-! ## The part that is given out -/

/-- What is answered for a part is not the fault of the reader. -/
theorem fault?_answer (policy : Policy) (offset : Nat) (part : Part) :
    fault? (answer policy offset part) = none := by
  cases part with
  | scalar character => rfl
  | malformed bytes => cases policy <;> rfl

/-- An answer for a part is the answer for the first part of the bytes ahead, and the offset counts
the bytes of that. -/
theorem decode_eq_firstPart {before after : Decoder} {part : Part}
    (room : 0 < before.reader.capacity) (unfinished : Unfinished before.pending)
    (given : before.decode = (answer before.policy before.offset part, after)) :
    let ahead := before.pending ++ Delivery.bytesAhead before.reader.deliveries
    ahead ≠ [] ∧ after.offset = before.offset + (firstPart ahead).bytes.length ∧
      answer before.policy before.offset part =
        answer before.policy before.offset (firstPart ahead) := by
  intro ahead
  rcases Delivery.exists_stopped before.reader.deliveries with ⟨rest, divided, stopped⟩
  rcases decode_eq_settle ⟨room, divided⟩ unfinished with ⟨next, left, settled⟩
  rw [given] at settled
  by_cases undecided : Unfinished ahead
  · -- Only an end gives them out: with a fault the answer would report it.
    rw [settle_of_unfinished undecided] at settled
    rw [undecided, Front.size, List.drop_length, Delivery.ofBytes_nil, List.nil_append] at left
    cases stopped with
    | ended ended =>
        rcases Reader.peek_of_end left ended with ⟨last, seen, _⟩
        rw [decode_of_end seen] at settled
        by_cases empty : ahead.isEmpty
        · rw [if_pos empty] at settled
          exact absurd (congrArg Prod.fst settled) (answer_ne_end _ _ _)
        · rw [if_neg empty, reject_eq] at settled
          rw [firstPart_of_unfinished undecided]
          exact ⟨fun nothing => empty (List.isEmpty_iff.mpr nothing),
            congrArg (·.2.offset) settled, congrArg Prod.fst settled⟩
    | failed fault later =>
        rcases Reader.peek_of_fault left with ⟨last, seen, _⟩
        rw [decode_of_fault seen] at settled
        have reported := congrArg (fault? ·.1) settled
        rw [fault?_answer] at reported
        cases reported
  · rw [settle_of_decided undecided] at settled
    refine ⟨?_, ?_, congrArg Prod.fst settled⟩
    · intro nothing
      apply undecided
      rw [nothing]
      exact unfinished_nil
    · rw [length_bytes_firstPart]
      exact congrArg (·.2.offset) settled

/-! ## Runs -/

/-- The bytes of a device are those for which something has been given out, those kept and
those left in the reader.  The offset counts the first of them. -/
structure Accounted (device : Device) (policy : Policy) (decoder : Decoder) : Prop where
  policy_eq : decoder.policy = policy
  bytes_eq : ∃ decoded, decoded.length = decoder.offset ∧
    device.bytes = decoded ++ decoder.pending ++ decoder.reader.bytes
  unfinished : Unfinished decoder.pending

namespace Accounted

variable {device : Device} {policy : Policy} {before after : Decoder}

theorem ofDevice (device : Device) (capacity : Nat) (policy : Policy) :
    Accounted device policy { reader := .ofDevice device capacity, policy } :=
  ⟨rfl, ⟨[], rfl, rfl⟩, unfinished_nil⟩

theorem drop_offset (accounted : Accounted device policy before) :
    device.bytes.drop before.offset = before.pending ++ before.reader.bytes := by
  rcases accounted.bytes_eq with ⟨decoded, counted, whole⟩
  rw [whole, ← counted, List.append_assoc, List.drop_left]

theorem settles {taken : List UInt8} {answer : Except Failure (Option Char)}
    (accounted : Accounted device policy before) (settles : Settles before taken answer after) :
    Accounted device policy after := by
  rcases accounted.bytes_eq with ⟨decoded, counted, whole⟩
  rw [settles.bytes_eq] at whole
  refine ⟨settles.policy_eq.trans accounted.policy_eq, ?_, settles.unfinished⟩
  cases settles with
  | failed _ keeps | ended keeps _ =>
      refine ⟨decoded, counted.trans keeps.offset_eq.symm, ?_⟩
      rw [whole, keeps.pending_eq, List.append_assoc, List.append_assoc, List.append_assoc]
  | gave part spelled _ _ empty grown _ =>
      refine ⟨decoded ++ part.bytes, ?_, ?_⟩
      · rw [List.length_append, counted, grown]
      · rw [whole, empty, List.append_nil, ← spelled, List.append_assoc, List.append_assoc,
          List.append_assoc]

/-- The bytes ahead are the first of those behind the offset. -/
theorem ahead_prefix (accounted : Accounted device policy before) :
    before.pending ++ Delivery.bytesAhead before.reader.deliveries <+:
      device.bytes.drop before.offset := by
  rw [accounted.drop_offset]
  exact (List.prefix_append_right_inj _).mpr before.reader.bytesAhead_prefix

theorem pulls (count : Nat) (accounted : Accounted device policy before) :
    Accounted device policy (Source.pulls count before).2 := by
  induction count generalizing before with
  | zero => exact accounted
  | succ count inductionHypothesis =>
      rcases decode_settles accounted.unfinished with ⟨answer, after, taken, decoded, _, settles⟩
      rw [Source.pulls_succ, pull_eq, decoded]
      exact inductionHypothesis (accounted.settles settles)

end Accounted

/-- A decoder whose reader has room for data always has room. -/
theorem capacity_pulls (device : Device) {capacity : Nat} (positive : 0 < capacity)
    (policy : Policy) (count : Nat) :
    0 < (Source.pulls count
      ({ reader := .ofDevice device capacity, policy } : Decoder)).2.reader.capacity := by
  let start : Decoder := { reader := .ofDevice device capacity, policy }
  rcases pulls_determined count start device.deliveries with ⟨answers, left, rest, pulled⟩
  rcases pulled start.reader (Reader.delivers_ofDevice positive device) with
    ⟨after, delivers, same⟩
  have reader := congrArg (·.2.reader) same
  exact reader ▸ delivers.capacity_pos

/-- After every request, whatever the device does, the bytes taken from the reader are those that
the offset counts and those kept.  Bytes are kept only if the reader has just failed, there are
at most three of them, and they are the beginning of a part.  A request takes at most four bytes
in as many passes, and the offset grows by the bytes of the part that it gives out.  If there is
room for data, that part is the first one of the bytes kept and those that the reader has up to
the next end or fault.  So a malformed one starts where no character does, and is as long as it
can be, also if a replacement is all that is seen of it. -/
theorem pulls_account_for_bytes (device : Device) (capacity : Nat) (policy : Policy) (count : Nat) :
    let before : Decoder :=
      (Source.pulls count ({ reader := .ofDevice device capacity, policy } : Decoder)).2
    let ahead := before.pending ++ Delivery.bytesAhead before.reader.deliveries
    let answer := (Source.pull before).1
    let after := (Source.pull before).2
    (∃ decoded, decoded.length = after.offset ∧
        device.bytes = decoded ++ after.pending ++ after.reader.bytes) ∧
      (after.pending.length ≤ 3 ∧ front after.pending = .malformed after.pending.length) ∧
      ((∃ fault, answer = .error (.read fault before.offset) ∧ after.offset = before.offset) ∨
        after.pending = [] ∧ after.reader.bytes = device.bytes.drop after.offset ∧
          (answer = .ok none ∧ after.offset = before.offset ∨
            ∃ part : Part, answer = Decoder.answer policy before.offset part ∧
              part.bytes <+: device.bytes.drop before.offset ∧
              after.offset = before.offset + part.bytes.length ∧
              (0 < capacity → part = firstPart ahead ∧
                ∀ bytes, part = .malformed bytes → MalformedPart ahead bytes))) ∧
      (∃ taken, taken.length ≤ 4 ∧ before.reader.bytes = taken ++ after.reader.bytes ∧
        after.offset + after.pending.length =
          before.offset + before.pending.length + taken.length) ∧
      before.passes 4 = some (answer, after) := by
  intro before ahead answer after
  have start := Accounted.ofDevice device capacity policy
  have accounted : Accounted device policy before := start.pulls count
  rcases decode_settles accounted.unfinished with ⟨given, left, taken, decoded, finished, settles⟩
  have answered : answer = given := congrArg Prod.fst decoded
  have leaves : after = left := congrArg Prod.snd decoded
  rw [answered, leaves]
  have later := accounted.settles settles
  refine ⟨later.bytes_eq, ⟨Nat.le_of_lt_succ later.unfinished.length_lt, later.unfinished⟩, ?_,
    ⟨taken, settles.length_taken_le, settles.bytes_eq, settles.offset_add_pending⟩, finished⟩
  have unread (empty : left.pending = []) : left.reader.bytes = device.bytes.drop left.offset := by
    rw [later.drop_offset, empty, List.nil_append]
  cases settles with
  | failed fault keeps => exact Or.inl ⟨fault, rfl, keeps.offset_eq⟩
  | ended keeps empty => exact Or.inr ⟨empty, unread empty, Or.inl ⟨rfl, keeps.offset_eq⟩⟩
  | gave part spelled _ bytes empty counted _ =>
      refine Or.inr ⟨empty, unread empty, Or.inr ?_⟩
      rw [← accounted.policy_eq]
      rcases Nat.eq_zero_or_pos capacity with zero | positive
      · refine ⟨part, rfl, ?_, counted, fun room => absurd zero (Nat.ne_of_gt room)⟩
        rw [accounted.drop_offset, bytes, ← List.append_assoc, spelled]
        exact List.prefix_append _ _
      · have room : 0 < before.reader.capacity := capacity_pulls device positive policy count
        rcases decode_eq_firstPart room accounted.unfinished decoded with ⟨nonempty, grown, same⟩
        refine ⟨firstPart ahead, same, ?_, grown, fun _ => ⟨rfl, ?_⟩⟩
        · rw [bytes_firstPart]
          exact (List.take_prefix _ _).trans accounted.ahead_prefix
        · intro malformed first
          exact malformedPart_of_firstPart nonempty first

/-- The data ends inside of a character and then goes on. -/
def cutByEnd : Device := ⟨[.data [0xE2, 0x82], .data [], .data [0xAC]], 0⟩

/-- The bytes in front of the end are replaced, although the last one of the character follows. -/
theorem pulls_account_for_bytes_cutByEnd :
    let start : Decoder := { reader := .ofDevice cutByEnd 4, policy := .lossy }
    0 < 4 ∧ (Source.pull start).1 = .ok (some replacement) ∧ (Source.pull start).2.offset = 2 ∧
      ∃ part : Part, part = .malformed [0xE2, 0x82] ∧
        .ok (some replacement) = answer .lossy 0 part ∧
        MalformedPart [0xE2, 0x82] [0xE2, 0x82] := by
  intro start
  have decoded : start.decode = (.ok (some replacement),
      { start with reader := ⟨4, [], ⟨[.data [0xAC]], 2⟩⟩, offset := 2 }) :=
    @decode_of_passes 2 _ _ rfl
  have positive : 0 < 4 := by decide
  have answered : (Source.pull start).1 = .ok (some replacement) := congrArg Prod.fst decoded
  refine ⟨positive, answered, congrArg (·.2.offset) decoded, ?_⟩
  rcases (pulls_account_for_bytes cutByEnd 4 .lossy 0).2.2.1 with
    ⟨fault, failed, _⟩ | ⟨_, _, ⟨ended, _⟩ | ⟨part, given, _, _, pinned⟩⟩
  · cases answered.symm.trans failed
  · cases answered.symm.trans ended
  · have first : part = .malformed [0xE2, 0x82] := (pinned positive).1
    exact ⟨part, first, answered.symm.trans given, (pinned positive).2 _ first⟩

/-- A character whose bytes arrive one at a time needs all four passes. -/
example :
    let pieces : List Event := [.data [0xF0], .data [0x9F], .data [0x98], .data [0x80]]
    let start : Decoder := { reader := .ofDevice ⟨pieces, 0⟩ }
    start.passes 3 = none ∧ (start.passes 4).isSome = true := by
  decide

end Decoder
end ForwardCursor
