import ForwardCursor.Proofs.Decoder.Answers

namespace ForwardCursor

/-!
# Decoding does not depend on how bytes are cut

The bytes of one character may come from one read or from several, and the reads may
be interrupted.  None of this shows in what a decoder answers.  Its answer, its offset,
and the bytes that it keeps are determined by what the reader has yet to deliver, and
so is what the reader has yet to deliver afterwards.  The step below says so for one
request, and the run lemma carries it through any number of them.

Faults and ends stay where they are among the bytes.  They may come between the bytes
of one character.
-/

namespace Decoder

/-- Requests of decoders that agree in everything but the reader have the same outcome,
if the readers have the same to deliver. -/
def Determined {β : Type} (request : Decoder → β × Decoder) (decoder : Decoder)
    (deliveries : List Delivery) : Prop :=
  ∃ (answer : β) (left : Decoder) (rest : List Delivery),
    ∀ reader : Reader, reader.Delivers deliveries →
    ∃ after : Reader, after.Delivers rest ∧
      request { decoder with reader } = (answer, { left with reader := after })

theorem decode_determined (decoder : Decoder) (deliveries : List Delivery) :
    Determined decode decoder deliveries := by
  induction deliveries generalizing decoder with
  | nil =>
      rcases decoder.answers_of_end with ⟨answer, left, _, answers⟩
      exact ⟨answer, left, [], answers [] (Or.inl rfl)⟩
  | cons delivery deliveries inductionHypothesis =>
      match delivery with
      | .ok none =>
          rcases decoder.answers_of_end with ⟨answer, left, _, answers⟩
          exact ⟨answer, left, deliveries, answers _ (Or.inr rfl)⟩
      | .error fault => exact ⟨_, _, _, decoder.answers_of_fault fault deliveries⟩
      | .ok (some byte) =>
          rcases decoder.answers_or_takes_of_byte byte with ⟨answer, left, _, answers⟩ |
            ⟨answer, left, _, answers⟩ | takes
          · exact ⟨answer, left, _, answers deliveries⟩
          · exact ⟨answer, left, _, answers deliveries⟩
          · rcases inductionHypothesis { decoder with pending := decoder.pending ++ [byte] } with
              ⟨answer, left, rest, later⟩
            exact ⟨answer, left, rest, (takes deliveries).answers later⟩

/-- The same for any number of requests in a row. -/
theorem pulls_determined (count : Nat) (decoder : Decoder) (deliveries : List Delivery) :
    Determined (Source.pulls count) decoder deliveries := by
  induction count generalizing decoder deliveries with
  | zero =>
      refine ⟨[], decoder, deliveries, ?_⟩
      intro reader delivers
      exact ⟨reader, delivers, rfl⟩
  | succ count inductionHypothesis =>
      rcases decode_determined decoder deliveries with ⟨answer, middle, between, first⟩
      rcases inductionHypothesis middle between with ⟨answers, left, rest, later⟩
      refine ⟨answer :: answers, left, rest, ?_⟩
      intro reader delivers
      rcases first reader delivers with ⟨next, delivered, decoded⟩
      rcases later next delivered with ⟨after, remaining, pulled⟩
      refine ⟨after, remaining, ?_⟩
      rw [Source.pulls_succ, pull_eq, decoded, pulled]

/-- Two devices that deliver the same are decoded to the same answers, with the same
offset after each of them, whatever the pieces, the interruptions, and the buffers. -/
theorem pulls_eq_of_deliveries_eq {first second : Device}
    (same : first.deliveries = second.deliveries) {firstCapacity secondCapacity : Nat}
    (firstPositive : 0 < firstCapacity) (secondPositive : 0 < secondCapacity)
    (policy : Policy) (count : Nat) :
    let left := Source.pulls count
      ({ reader := .ofDevice first firstCapacity, policy } : Decoder)
    let right := Source.pulls count
      ({ reader := .ofDevice second secondCapacity, policy } : Decoder)
    left.1 = right.1 ∧ left.2.offset = right.2.offset := by
  intro left right
  rcases pulls_determined count { reader := .ofDevice first, policy } first.deliveries with
    ⟨answers, decoder, rest, pulled⟩
  rcases pulled _ (Reader.delivers_ofDevice firstPositive first) with ⟨_, _, leftPulled⟩
  rcases pulled _ (same ▸ Reader.delivers_ofDevice secondPositive second) with ⟨_, _, rightPulled⟩
  have leftEq : left = _ := leftPulled
  have rightEq : right = _ := rightPulled
  rw [leftEq, rightEq]
  exact ⟨rfl, rfl⟩

/-- A character that a fault cuts in two. -/
def cutByFault : Device :=
  ⟨[.data [0xE2, 0x82], .fault ⟨.timedOut, .standard⟩, .data [0xAC, 0x41]], 0⟩

/-- The same in single bytes, with interruptions. -/
def cutFurther : Device :=
  ⟨[.data [0xE2], .fault ⟨.interrupted, .standard⟩, .data [0x82], .fault ⟨.timedOut, .standard⟩,
    .fault ⟨.interrupted, .standard⟩, .data [0xAC], .data [0x41]], 0⟩

theorem pulls_eq_of_deliveries_eq_cutFurther :
    cutByFault.deliveries = cutFurther.deliveries ∧ 0 < 4096 ∧ 0 < 1 ∧
      (Source.pulls 4
          ({ reader := .ofDevice cutByFault 4096, policy := .strict } : Decoder)).1 =
        (Source.pulls 4
          ({ reader := .ofDevice cutFurther 1, policy := .strict } : Decoder)).1 := by
  have same : cutByFault.deliveries = cutFurther.deliveries := rfl
  have first : 0 < 4096 := by decide
  have second : 0 < 1 := by decide
  exact ⟨same, first, second, (pulls_eq_of_deliveries_eq same first second .strict 4).1⟩

end Decoder
end ForwardCursor
