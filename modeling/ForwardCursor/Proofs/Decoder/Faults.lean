import ForwardCursor.Proofs.Decoder.Answers
import ForwardCursor.Proofs.Reader.Faults

namespace ForwardCursor

/-!
# Decoding goes on as if a failed read had not happened

A fault of the reader is reported by one request, and only by that.  The decoder is left
at the same offset, with all bytes kept that the request has taken before, so the next
requests answer what they would have answered without the fault.

This is a simulation of two runs, one over a device and one over the same device without
its faults.  A request that reports a fault is a step of the first run alone.  It may have
taken bytes, which the second run has not, but a request of the second run would take the
same bytes first.  Every other request is a step of both runs with the same answer.
-/

namespace Decoder

open Delivery (faults faultless)

/-! ## One request -/

/-- A request reports the first fault if it comes to it, and otherwise gives an answer
that does not depend on the faults. -/
theorem decode_cases (decoder : Decoder) (deliveries : List Delivery) :
    (∃ (fault : Fault) (left : Decoder) (rest : List Delivery),
      left.offset = decoder.offset ∧ faults deliveries = fault :: faults rest ∧
      Answers decoder deliveries (.error (.read fault decoder.offset)) left rest ∧
      Takes decoder (faultless deliveries) left (faultless rest)) ∨
    (∃ (answer : Except Failure (Option Char)) (left : Decoder) (rest : List Delivery),
      fault? answer = none ∧ faults deliveries = faults rest ∧
      Answers decoder deliveries answer left rest ∧
      Answers decoder (faultless deliveries) answer left (faultless rest)) := by
  induction deliveries generalizing decoder with
  | nil =>
      rcases decoder.answers_of_end with ⟨answer, left, silent, answers⟩
      have ended := answers [] (Or.inl rfl)
      exact Or.inr ⟨answer, left, [], silent, rfl, ended, ended⟩
  | cons delivery deliveries inductionHypothesis =>
      match delivery with
      | .error fault =>
          exact Or.inl ⟨fault, decoder, deliveries, rfl, Delivery.faults_error_cons fault deliveries,
            decoder.answers_of_fault fault deliveries, Takes.refl decoder (faultless deliveries)⟩
      | .ok none =>
          rcases decoder.answers_of_end with ⟨answer, left, silent, answers⟩
          exact Or.inr ⟨answer, left, deliveries, silent, Delivery.faults_ok_cons none deliveries,
            answers _ (Or.inr rfl), answers _ (Or.inr rfl)⟩
      | .ok (some byte) =>
          rcases decoder.answers_or_takes_of_byte byte with ⟨answer, left, silent, answers⟩ |
            ⟨answer, left, silent, answers⟩ | takes
          · exact Or.inr ⟨answer, left, deliveries, silent,
              Delivery.faults_ok_cons (some byte) deliveries, answers _, answers _⟩
          · exact Or.inr ⟨answer, left, .ok (some byte) :: deliveries, silent, rfl,
              answers _, answers _⟩
          · rcases inductionHypothesis { decoder with pending := decoder.pending ++ [byte] } with
              ⟨fault, left, rest, stays, first, answers, later⟩ |
              ⟨answer, left, rest, silent, same, answers, later⟩
            · exact Or.inl ⟨fault, left, rest, stays, first,
                (takes _).answers answers, (takes _).trans later⟩
            · exact Or.inr ⟨answer, left, rest, silent, same,
                (takes _).answers answers, (takes _).answers later⟩

/-- A reported fault brings the offset with it, and leaves it as it is. -/
theorem offset_of_decode_fault {decoder after : Decoder} {fault : Fault} {offset : Nat}
    (positive : 0 < decoder.reader.capacity)
    (failed : decoder.decode = (.error (.read fault offset), after)) :
    offset = decoder.offset ∧ after.offset = decoder.offset := by
  rcases decoder.decode_cases decoder.reader.deliveries with
    ⟨first, left, rest, stays, _, answers, _⟩ | ⟨answer, left, rest, silent, _, answers, _⟩
  · rcases answers decoder.reader ⟨positive, rfl⟩ with ⟨last, _, decoded⟩
    cases failed.symm.trans decoded
    exact ⟨rfl, stays⟩
  · rcases answers decoder.reader ⟨positive, rfl⟩ with ⟨last, _, decoded⟩
    cases failed.symm.trans decoded
    cases silent

/-! ## All requests -/

/-- The answers that report no fault of the reader. -/
def settled (answers : List (Except Failure (Option Char))) : List (Except Failure (Option Char)) :=
  answers.filter fun answer => (fault? answer).isNone

theorem settled_cons_of_fault {answer : Except Failure (Option Char)} {fault : Fault}
    (reported : fault? answer = some fault) (answers : List (Except Failure (Option Char))) :
    settled (answer :: answers) = settled answers := by
  simp only [settled, List.filter_cons, reported, Option.isNone_some, Bool.false_eq_true, if_false]

theorem settled_cons_of_none {answer : Except Failure (Option Char)}
    (silent : fault? answer = none) (answers : List (Except Failure (Option Char))) :
    settled (answer :: answers) = answer :: settled answers := by
  simp only [settled, List.filter_cons, silent, Option.isNone_none, if_true]

theorem length_settled_add (answers : List (Except Failure (Option Char))) :
    (settled answers).length + (answers.filterMap fault?).length = answers.length := by
  induction answers with
  | nil => rfl
  | cons answer answers inductionHypothesis =>
      cases reported : fault? answer with
      | none =>
          rw [settled_cons_of_none reported, List.filterMap_cons_none reported, List.length_cons,
            List.length_cons, Nat.add_right_comm, inductionHypothesis]
      | some fault =>
          rw [settled_cons_of_fault reported, List.filterMap_cons_some reported, List.length_cons,
            List.length_cons, ← Nat.add_assoc, inductionHypothesis]

/-- Two runs, of which the second has none of the faults to come.  The second decoder is
behind the first one by the bytes that the first has kept before a fault, which its next
request takes first. -/
theorem pulls_settled (count : Nat) {decoder calm : Decoder} {reader : Reader}
    {deliveries : List Delivery} (delivers : decoder.reader.Delivers deliveries)
    (remains : reader.Delivers (faultless deliveries))
    (catchesUp : calm.decode = decode { decoder with reader })
    (same : calm.offset = decoder.offset) :
    ∃ (answers : List (Except Failure (Option Char))) (after calmAfter : Decoder),
      Source.pulls count decoder = (answers, after) ∧
      Source.pulls (settled answers).length calm = (settled answers, calmAfter) ∧
      calmAfter.offset = after.offset ∧ 0 < after.reader.capacity ∧
      faults deliveries = answers.filterMap fault? ++ after.reader.device.faults := by
  induction count generalizing decoder calm reader deliveries with
  | zero =>
      refine ⟨[], decoder, calm, rfl, rfl, same, delivers.capacity_pos, ?_⟩
      rw [← delivers.deliveries_eq, Reader.faults_deliveries]
      rfl
  | succ count inductionHypothesis =>
      rcases decoder.decode_cases deliveries with
        ⟨fault, left, rest, stays, first, answering, takes⟩ |
        ⟨answer, left, rest, silent, first, answering, calmly⟩
      · -- The second run makes no step, and stays behind by the bytes taken here.
        rcases answering decoder.reader delivers with ⟨next, delivered, decoded⟩
        rcases takes reader remains with ⟨behind, remaining, later⟩
        rcases @inductionHypothesis { left with reader := next } calm behind rest delivered
          remaining (catchesUp.trans later) (same.trans stays.symm) with
          ⟨answers, after, calmAfter, pulled, calmPulled, sameOffset, positive, listed⟩
        refine ⟨.error (.read fault decoder.offset) :: answers, after, calmAfter, ?_, calmPulled,
          sameOffset, positive, ?_⟩
        · rw [Source.pulls_succ, pull_eq, decoded, pulled]
        · rw [first, listed]
          rfl
      · rcases answering decoder.reader delivers with ⟨next, delivered, decoded⟩
        rcases calmly reader remains with ⟨behind, remaining, later⟩
        rcases @inductionHypothesis { left with reader := next } { left with reader := behind }
          behind rest delivered remaining rfl rfl with
          ⟨answers, after, calmAfter, pulled, calmPulled, sameOffset, positive, listed⟩
        refine ⟨answer :: answers, after, calmAfter, ?_, ?_, sameOffset, positive, ?_⟩
        · rw [Source.pulls_succ, pull_eq, decoded, pulled]
        · rw [settled_cons_of_none silent, List.length_cons, Source.pulls_succ, pull_eq, catchesUp,
            later, calmPulled]
        · rw [first, listed, List.filterMap_cons_none silent]

/-- Leaving out the answers that report a fault leaves the answers of a decoder whose device
has no faults, with the same offset after each of them.  No more answers are left out than
the device has faults, so all answers of that decoder are met.  The faults reported are those
that the device has returned, unchanged and in order, and a request that reports one does
not move the offset. -/
theorem pulls_withoutFaults (device : Device) {capacity : Nat} (positive : 0 < capacity)
    (policy : Policy) (count : Nat) :
    ∃ (answers : List (Except Failure (Option Char))) (after calmAfter : Decoder),
      Source.pulls count ({ reader := .ofDevice device capacity, policy } : Decoder) =
        (answers, after) ∧
      Source.pulls (settled answers).length
          ({ reader := .ofDevice device.withoutFaults capacity, policy } : Decoder) =
        (settled answers, calmAfter) ∧
      calmAfter.offset = after.offset ∧
      count ≤ (settled answers).length + device.faults.length ∧
      device.faults = answers.filterMap fault? ++ after.reader.device.faults ∧
      ∀ fault offset last, after.decode = (.error (.read fault offset), last) →
        last.offset = after.offset := by
  let decoder : Decoder := { reader := .ofDevice device capacity, policy }
  let calm : Decoder := { reader := .ofDevice device.withoutFaults capacity, policy }
  have delivers : decoder.reader.Delivers device.deliveries :=
    Reader.delivers_ofDevice positive device
  have remains : calm.reader.Delivers (faultless device.deliveries) :=
    ⟨positive, device.deliveries_withoutFaults⟩
  have catchesUp : calm.decode = decode { decoder with reader := calm.reader } := rfl
  rcases pulls_settled count delivers remains catchesUp rfl with
    ⟨answers, after, calmAfter, pulled, calmPulled, sameOffset, room, listed⟩
  rw [device.faults_deliveries] at listed
  refine ⟨answers, after, calmAfter, pulled, calmPulled, sameOffset, ?_, listed, ?_⟩
  · have total : count = answers.length := by
      rw [← Source.length_pulls count decoder, pulled]
    rw [listed, List.length_append, total, ← length_settled_add]
    exact Nat.add_le_add_left (Nat.le_add_right _ _) _
  · intro fault offset last failed
    exact (offset_of_decode_fault room failed).2

/-- A fault between the bytes of a character, one in front of a byte that breaks a sequence,
and one in front of an end that cuts a sequence short. -/
def oftenFailing : Device :=
  ⟨[.data [0xE2, 0x82], .fault ⟨.timedOut, .standard⟩, .data [0xAC, 0xE2],
    .fault ⟨.interrupted, .standard⟩, .fault ⟨.other, .message "jammed"⟩, .data [0x41, 0xC3],
    .fault ⟨.brokenPipe, .standard⟩, .data []], 0⟩

theorem pulls_withoutFaults_oftenFailing :
    0 < 3 ∧ ∃ (answers : List (Except Failure (Option Char))) (after calmAfter : Decoder),
      Source.pulls 8 ({ reader := .ofDevice oftenFailing 3, policy := .strict } : Decoder) =
        (answers, after) ∧
      Source.pulls (settled answers).length
          ({ reader := .ofDevice oftenFailing.withoutFaults 3, policy := .strict } : Decoder) =
        (settled answers, calmAfter) ∧
      [⟨.timedOut, .standard⟩, ⟨.other, .message "jammed"⟩, ⟨.brokenPipe, .standard⟩] =
        answers.filterMap fault? ++ after.reader.device.faults := by
  have positive : 0 < 3 := by decide
  rcases pulls_withoutFaults oftenFailing positive .strict 8 with
    ⟨answers, after, calmAfter, pulled, calmPulled, _, _, listed, _⟩
  exact ⟨positive, answers, after, calmAfter, pulled, calmPulled, listed⟩

end Decoder
end ForwardCursor
