import ForwardCursor.Proofs.Decoder.Segmentation
import ForwardCursor.Proofs.Source.Elements

namespace ForwardCursor

/-!
# Decoding undoes encoding

A strict decoder gives characters and then the end exactly if the bytes are what the
encoder writes for these characters.  In one direction nothing that was encoded is
refused.  In the other nothing is accepted that the encoder does not write, so encoding
the characters gives the bytes back.
-/

namespace Source

variable {σ ε α : Type} [Source σ ε α]

/-- The answers before the first end do not depend on the number of requests. -/
theorem pulls_end_unique {source : σ} {fewer more : Nat} (le : fewer ≤ more)
    {before other : List (Except ε (Option α))} (single : .ok none ∉ other)
    (ended : (pulls fewer source).1 = before ++ [.ok none])
    (otherEnded : (pulls more source).1 = other ++ [.ok none]) : before = other := by
  have start := pulls_prefix le source
  rw [ended, otherEnded, List.prefix_concat_iff] at start
  rcases start with same | inside
  · exact List.append_cancel_right same
  · have member := inside.subset (List.mem_append_right before (List.mem_singleton_self _))
    exact absurd member single

end Source

namespace Decoder

open Delivery Utf8
open String (utf8EncodeChar)

/-- Answers that give characters only. -/
def characterAnswers (characters : List Char) : List (Except Failure (Option Char)) :=
  characters.map fun character => .ok (some character)

theorem end_not_mem_characterAnswers (characters : List Char) :
    .ok none ∉ characterAnswers characters := by
  intro member
  rcases List.mem_map.mp member with ⟨character, _, same⟩
  cases same

theorem answers_scalars (policy : Policy) (offset : Nat) (characters : List Char) :
    answers policy offset (characters.map .scalar) = characterAnswers characters := by
  induction characters generalizing offset with
  | nil => rfl
  | cons character characters inductionHypothesis =>
      rw [List.map_cons, answers, inductionHypothesis]
      rfl

/-- A strict decoder gives characters only for parts that are characters. -/
theorem parts_of_answers_eq {offset : Nat} {parts : List Part} {characters : List Char}
    (same : answers .strict offset parts = characterAnswers characters) :
    parts = characters.map .scalar := by
  induction parts generalizing offset characters with
  | nil =>
      cases characters with
      | nil => rfl
      | cons character characters => cases same
  | cons part parts inductionHypothesis =>
      cases characters with
      | nil => cases same
      | cons character characters =>
          rcases List.cons.inj same with ⟨first, later⟩
          cases part with
          | malformed bytes => cases first
          | scalar other =>
              cases first
              rw [inductionHypothesis later, List.map_cons]

section Fresh

variable {decoder : Decoder} {bytes : List UInt8} {characters : List Char}

theorem parts_of_pulls_eq (provides : decoder.reader.Provides bytes)
    (strict : decoder.policy = .strict) (empty : decoder.pending = [])
    (same : (Source.pulls (characters.length + 1) decoder).1 =
      characterAnswers characters ++ [.ok none]) :
    parts bytes = characters.map .scalar := by
  have unfinished : Unfinished decoder.pending := empty ▸ unfinished_nil
  rcases pulls_of_provides provides unfinished with ⟨after, _, whole⟩
  rw [empty, List.nil_append, strict] at whole
  have own := congrArg Prod.fst whole
  apply @parts_of_answers_eq decoder.offset
  rcases Nat.le_total (characters.length + 1) ((parts bytes).length + 1) with fewer | more
  · exact (Source.pulls_end_unique fewer (end_not_mem_answers _ _ _) same own).symm
  · exact Source.pulls_end_unique more (end_not_mem_characterAnswers _) own same

/-- Characters are given as such under either policy. -/
theorem pulls_of_parts_eq (provides : decoder.reader.Provides bytes)
    (empty : decoder.pending = []) (divided : parts bytes = characters.map .scalar) :
    ∃ after : Reader, Source.pulls (characters.length + 1) decoder =
      (characterAnswers characters ++ [.ok none],
        { decoder with
          reader := after, pending := [], offset := decoder.offset + bytes.length }) := by
  have unfinished : Unfinished decoder.pending := empty ▸ unfinished_nil
  rcases pulls_of_provides provides unfinished with ⟨after, _, whole⟩
  rw [empty, List.nil_append, divided, answers_scalars, List.length_map] at whole
  exact ⟨after, whole⟩

end Fresh

/-- The bytes are exactly the encoded characters if a strict decoder gives these characters
up to the end, and then the offset is the number of bytes. -/
theorem pulls_eq_characters_iff {device : Device} {bytes : List UInt8}
    (provides : device.Provides bytes) {capacity : Nat} (positive : 0 < capacity)
    (characters : List Char) :
    let run := Source.pulls (characters.length + 1)
      ({ reader := .ofDevice device capacity, policy := .strict } : Decoder)
    (run.1 = characterAnswers characters ++ [.ok none] ↔
        bytes = characters.flatMap utf8EncodeChar) ∧
      (run.1 = characterAnswers characters ++ [.ok none] → run.2.offset = bytes.length) := by
  intro run
  let decoder : Decoder := { reader := .ofDevice device capacity, policy := .strict }
  have provided : decoder.reader.Provides bytes := Reader.provides_ofDevice positive provides
  have decoded : run.1 = characterAnswers characters ++ [.ok none] →
      parts bytes = characters.map .scalar := parts_of_pulls_eq provided rfl rfl
  constructor
  · constructor
    · intro same
      exact parts_eq_scalars_iff.mp (decoded same)
    · intro encoded
      rcases pulls_of_parts_eq provided rfl (parts_eq_scalars_iff.mpr encoded) with ⟨_, whole⟩
      exact congrArg Prod.fst whole
  · intro same
    rcases pulls_of_parts_eq provided rfl (decoded same) with ⟨_, whole⟩
    have left : run.2.offset = 0 + bytes.length := congrArg (fun pair => pair.2.offset) whole
    rw [left, Nat.zero_add]

/-- A letter, a character of three bytes, and one of four, of which the last is cut. -/
def written : Device :=
  ⟨[.data [0x41, 0xE2, 0x82, 0xAC, 0xF0], .data [0x9F, 0x98], .data [0x80]], 0⟩

theorem pulls_eq_characters_iff_written :
    written.Provides [0x41, 0xE2, 0x82, 0xAC, 0xF0, 0x9F, 0x98, 0x80] ∧ 0 < 3 ∧
      (Source.pulls 4
          ({ reader := .ofDevice written 3, policy := .strict } : Decoder)).1 =
        characterAnswers ['A', '€', '😀'] ++ [.ok none] := by
  have provides : written.Provides [0x41, 0xE2, 0x82, 0xAC, 0xF0, 0x9F, 0x98, 0x80] := ⟨0, rfl⟩
  have positive : 0 < 3 := by decide
  have encoded : [0x41, 0xE2, 0x82, 0xAC, 0xF0, 0x9F, 0x98, 0x80] =
      ['A', '€', '😀'].flatMap utf8EncodeChar := by decide
  exact ⟨provides, positive, (pulls_eq_characters_iff provides positive _).1.mpr encoded⟩

end Decoder
end ForwardCursor
