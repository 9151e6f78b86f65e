import ForwardCursor.Proofs.Decoder.Segmentation
import ForwardCursor.Proofs.Utf8.Boundary

namespace ForwardCursor

/-!
# Decoding in front of a boundary and behind it

If some bytes are followed by one that cannot continue a character, decoding all of them is to
decode those in front, and then those behind as if nothing had come before.  Only the offsets
of the later failures tell the difference.  A sequence that is broken off at the boundary takes
nothing from what is behind it.

The bytes in front and behind may come from any devices, cut in any way, since the answers
depend on the bytes alone.
-/

/-- The same failure in a stream that has so many bytes more in front. -/
def Failure.moved (distance : Nat) : Failure → Failure
  | .read fault offset => .read fault (distance + offset)
  | .malformed sequence => .malformed ⟨sequence.bytes, distance + sequence.offset⟩

namespace Decoder

open Utf8

/-- The same answer in a stream that has so many bytes more in front. -/
def moved (distance : Nat) : Except Failure (Option Char) → Except Failure (Option Char) :=
  Except.mapError (Failure.moved distance)

theorem answer_moved (policy : Policy) (distance offset : Nat) (part : Part) :
    answer policy (distance + offset) part = moved distance (answer policy offset part) := by
  cases part with
  | scalar character => rfl
  | malformed bytes => cases policy <;> rfl

theorem answers_moved (policy : Policy) (distance offset : Nat) (parts : List Part) :
    answers policy (distance + offset) parts = (answers policy offset parts).map (moved distance) := by
  induction parts generalizing offset with
  | nil => rfl
  | cons part parts inductionHypothesis =>
      simp only [answers, List.map_cons, answer_moved, Nat.add_assoc, inductionHypothesis]

theorem answers_append (policy : Policy) (offset : Nat) (earlier later : List Part) :
    answers policy offset (earlier ++ later) =
      answers policy offset earlier ++
        answers policy (offset + (earlier.flatMap Part.bytes).length) later := by
  induction earlier generalizing offset with
  | nil => simp [answers]
  | cons part earlier inductionHypothesis =>
      simp only [List.cons_append, answers, inductionHypothesis, List.flatMap_cons,
        List.length_append, Nat.add_assoc]

/-- The answers for bytes with a boundary among them, if the first of them are at the offset. -/
theorem answers_parts_append (policy : Policy) (offset : Nat) {bytes more : List UInt8}
    (boundary : ∀ byte ∈ more.head?, ¬ Continuing byte) :
    answers policy offset (parts (bytes ++ more)) =
      answers policy offset (parts bytes) ++
        answers policy (offset + bytes.length) (parts more) := by
  rw [parts_append boundary, answers_append, flatMap_bytes_parts]

/-- All answers of a fresh decoder up to the first end. -/
theorem pulls_ofDevice {device : Device} {bytes : List UInt8} (provides : device.Provides bytes)
    {capacity : Nat} (positive : 0 < capacity) (policy : Policy) :
    ∃ after : Decoder,
      Source.pulls ((answers policy 0 (parts bytes)).length + 1)
          ({ reader := .ofDevice device capacity, policy } : Decoder) =
        (answers policy 0 (parts bytes) ++ [.ok none], after) := by
  have provided := Reader.provides_ofDevice positive provides
  let decoder : Decoder := { reader := .ofDevice device capacity, policy }
  rcases @pulls_of_provides decoder bytes provided unfinished_nil with ⟨after, _, pulled⟩
  rw [length_answers]
  exact ⟨_, pulled⟩

/-- The answers up to the first end for bytes that are followed by others.  Unless the first of
these could continue a character, they are the answers for the bytes and then those for the
others, with the number of the bytes added to the offset of each failure. -/
theorem pulls_append_of_boundary {device first second : Device} {bytes more : List UInt8}
    (provides : device.Provides (bytes ++ more)) (providesBytes : first.Provides bytes)
    (providesMore : second.Provides more) (boundary : ∀ byte ∈ more.head?, ¬ Continuing byte)
    {capacity firstCapacity secondCapacity : Nat} (positive : 0 < capacity)
    (firstPositive : 0 < firstCapacity) (secondPositive : 0 < secondCapacity) (policy : Policy) :
    ∃ (early late : List (Except Failure (Option Char))) (after firstAfter secondAfter : Decoder),
      .ok none ∉ early ∧ .ok none ∉ late ∧
      Source.pulls (early.length + 1)
          ({ reader := .ofDevice first firstCapacity, policy } : Decoder) =
        (early ++ [.ok none], firstAfter) ∧
      Source.pulls (late.length + 1)
          ({ reader := .ofDevice second secondCapacity, policy } : Decoder) =
        (late ++ [.ok none], secondAfter) ∧
      Source.pulls (early.length + late.length + 1)
          ({ reader := .ofDevice device capacity, policy } : Decoder) =
        (early ++ late.map (moved bytes.length) ++ [.ok none], after) := by
  let early := answers policy 0 (parts bytes)
  let late := answers policy 0 (parts more)
  have whole : answers policy 0 (parts (bytes ++ more)) = early ++ late.map (moved bytes.length) := by
    rw [answers_parts_append policy 0 boundary, Nat.zero_add]
    exact congrArg (early ++ ·) (answers_moved policy bytes.length 0 (parts more))
  have total : (early ++ late.map (moved bytes.length)).length = early.length + late.length := by
    rw [List.length_append, List.length_map]
  rcases pulls_ofDevice provides positive policy with ⟨after, pulled⟩
  rcases pulls_ofDevice providesBytes firstPositive policy with ⟨firstAfter, firstPulled⟩
  rcases pulls_ofDevice providesMore secondPositive policy with ⟨secondAfter, secondPulled⟩
  rw [whole, total] at pulled
  exact ⟨early, late, after, firstAfter, secondAfter, end_not_mem_answers _ _ _,
    end_not_mem_answers _ _ _, firstPulled, secondPulled, pulled⟩

/-- A letter and a sequence that breaks off, and behind the boundary a letter and a stray byte.
The first read ends inside the sequence and the second one behind the boundary. -/
def brokenOff : Device := ⟨[.data [0x41, 0xE2], .data [0x82, 0x42, 0xFF]], 0⟩

theorem pulls_append_of_boundary_brokenOff :
    brokenOff.Provides ([0x41, 0xE2, 0x82] ++ [0x42, 0xFF]) ∧
      (∀ byte ∈ [0x42, 0xFF].head?, ¬ Continuing byte) ∧ 0 < 2 ∧ 0 < 3 ∧ 0 < 1 ∧
      ∃ (early late : List (Except Failure (Option Char))) (after firstAfter secondAfter : Decoder),
        Source.pulls (early.length + 1)
            ({ reader := .ofDevice ⟨[.data [0x41, 0xE2, 0x82]], 0⟩ 3, policy := .strict } : Decoder) =
          (early ++ [.ok none], firstAfter) ∧
        Source.pulls (late.length + 1)
            ({ reader := .ofDevice ⟨[.data [0x42, 0xFF]], 0⟩ 1, policy := .strict } : Decoder) =
          (late ++ [.ok none], secondAfter) ∧
        Source.pulls (early.length + late.length + 1)
            ({ reader := .ofDevice brokenOff 2, policy := .strict } : Decoder) =
          (early ++ late.map (moved 3) ++ [.ok none], after) := by
  have provides : brokenOff.Provides ([0x41, 0xE2, 0x82] ++ [0x42, 0xFF]) := ⟨0, rfl⟩
  have inFront : Device.Provides ⟨[.data [0x41, 0xE2, 0x82]], 0⟩ [0x41, 0xE2, 0x82] := ⟨0, rfl⟩
  have behind : Device.Provides ⟨[.data [0x42, 0xFF]], 0⟩ [0x42, 0xFF] := ⟨0, rfl⟩
  have boundary : ∀ byte ∈ [0x42, 0xFF].head?, ¬ Continuing byte := by
    intro byte next
    cases Option.mem_some_iff.mp next
    decide
  have two : 0 < 2 := by decide
  have three : 0 < 3 := by decide
  have one : 0 < 1 := by decide
  rcases pulls_append_of_boundary provides inFront behind boundary two three one .strict with
    ⟨early, late, after, firstAfter, secondAfter, _, _, firstPulled, secondPulled, pulled⟩
  exact ⟨provides, boundary, two, three, one, early, late, after, firstAfter, secondAfter,
    firstPulled, secondPulled, pulled⟩

end Decoder
end ForwardCursor
