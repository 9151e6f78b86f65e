import ForwardCursor.Proofs.Decoder.Front
import ForwardCursor.Proofs.Utf8.Parts

namespace ForwardCursor

/-!
# One answer for each part

If nothing but bytes comes before the end, a decoder answers once for each part of
them, in order, and then reports the end.  The bytes are divided as a whole, and
neither the pieces in which they arrive nor the bytes kept from before have a share in
it.

A strict decoder spells all of the bytes out again.  Its characters are encoded, its
failures carry their bytes, and together these are the bytes that went in.
-/

namespace Decoder

open Delivery Utf8
open String (utf8EncodeChar)

/-- What is answered for a part that starts at an offset. -/
def answer (policy : Policy) (offset : Nat) : Part → Except Failure (Option Char)
  | .scalar character => .ok (some character)
  | .malformed bytes =>
    match policy with
    | .strict => .error (.malformed ⟨bytes, offset⟩)
    | .lossy => .ok (some replacement)

def answers (policy : Policy) : Nat → List Part → List (Except Failure (Option Char))
  | _, [] => []
  | offset, part :: parts =>
    answer policy offset part :: answers policy (offset + part.bytes.length) parts

theorem length_answers (policy : Policy) (offset : Nat) (parts : List Part) :
    (answers policy offset parts).length = parts.length := by
  induction parts generalizing offset with
  | nil => rfl
  | cons part parts inductionHypothesis =>
      rw [answers, List.length_cons, inductionHypothesis, List.length_cons]

theorem reject_eq (decoder : Decoder) :
    decoder.reject = (answer decoder.policy decoder.offset (.malformed decoder.pending),
      { decoder with pending := [], offset := decoder.offset + decoder.pending.length }) := by
  cases policy : decoder.policy with
  | strict => rw [reject_strict policy, answer, policy]
  | lossy => rw [reject_lossy policy, answer, policy]

/-! ## One request -/

/-- Decided bytes are answered for by their first part. -/
theorem settle_of_decided {bytes : List UInt8} (decided : ¬ Unfinished bytes) (decoder : Decoder)
    (reader : Reader) :
    decoder.settle reader bytes = (answer decoder.policy decoder.offset (firstPart bytes),
      { decoder with reader, pending := [], offset := decoder.offset + (front bytes).size }) := by
  have bound := size_front_le bytes
  cases found : front bytes with
  | scalar character size =>
      rw [settle_of_scalar found, firstPart_of_scalar found, answer, Front.size]
  | malformed size =>
      rw [found, Front.size] at bound
      have short : size < bytes.length := by
        apply Nat.lt_of_le_of_ne bound
        rintro rfl
        exact decided found
      rw [settle_of_broken found short, firstPart_of_malformed found, reject_eq, List.length_take,
        Nat.min_eq_left bound, Front.size]

/-- A request is answered for the first part, and uses up the bytes of that part. -/
theorem decode_of_provides {decoder : Decoder} {bytes : List UInt8}
    (provides : decoder.reader.Provides bytes) (unfinished : Unfinished decoder.pending)
    (nonempty : decoder.pending ++ bytes ≠ []) :
    let all := decoder.pending ++ bytes
    ∃ after : Reader, after.Provides (all.drop (front all).size) ∧
      decoder.decode = (answer decoder.policy decoder.offset (firstPart all),
        { decoder with
          reader := after, pending := [], offset := decoder.offset + (front all).size }) := by
  intro all
  rcases provides with ⟨ends, delivers⟩
  rcases decode_eq_settle delivers unfinished with ⟨after, left, decoded⟩
  by_cases undecided : Unfinished all
  · -- Every byte is kept when the end comes, and then they are rejected together.
    rw [undecided, Front.size, List.drop_length] at left
    rcases Reader.peek_of_ends left with ⟨last, seen, nothing⟩
    have kept : ¬ all.isEmpty := fun empty => nonempty (List.isEmpty_iff.mp empty)
    refine ⟨last, ?_, ?_⟩
    · rw [undecided, Front.size, List.drop_length]
      exact nothing
    · rw [decoded, settle_of_unfinished undecided, decode_of_end seen, if_neg kept, reject_eq,
        firstPart_of_unfinished undecided, undecided, Front.size]
  · refine ⟨after, ⟨ends, left⟩, ?_⟩
    rw [decoded, settle_of_decided undecided]

theorem decode_of_provides_nil {decoder : Decoder} (provides : decoder.reader.Provides [])
    (empty : decoder.pending = []) :
    ∃ after : Reader, after.Provides [] ∧
      decoder.decode = (.ok none, { decoder with reader := after, pending := [] }) := by
  rcases provides with ⟨ends, delivers⟩
  rcases Reader.peek_of_ends delivers with ⟨after, seen, left⟩
  refine ⟨after, left, ?_⟩
  rw [decode_of_end seen, if_pos (List.isEmpty_iff.mpr empty), ← empty]

/-! ## All requests up to the end -/

theorem pulls_of_provides {decoder : Decoder} {bytes : List UInt8}
    (provides : decoder.reader.Provides bytes) (unfinished : Unfinished decoder.pending) :
    let all := decoder.pending ++ bytes
    ∃ after : Reader, after.Provides [] ∧
      Source.pulls ((parts all).length + 1) decoder =
        (answers decoder.policy decoder.offset (parts all) ++ [.ok none],
          { decoder with
            reader := after, pending := [], offset := decoder.offset + all.length }) := by
  intro all
  have whole : decoder.pending ++ bytes = all := rfl
  clear_value all
  induction all using parts.induct generalizing decoder bytes with
  | case1 =>
      rcases List.append_eq_nil_iff.mp whole with ⟨empty, rfl⟩
      rcases decode_of_provides_nil provides empty with ⟨after, left, decoded⟩
      refine ⟨after, left, ?_⟩
      rw [parts_nil, List.length_nil, Source.pulls_succ, pull_eq, decoded, Source.pulls_zero]
      rfl
  | case2 lead rest inductionHypothesis =>
      have nonempty : decoder.pending ++ bytes ≠ [] := whole ▸ List.cons_ne_nil lead rest
      rcases decode_of_provides provides unfinished nonempty with ⟨next, provided, decoded⟩
      rw [whole] at provided decoded
      let size := (front (lead :: rest)).size
      let later := (lead :: rest).drop size
      have total : decoder.offset + size + later.length = decoder.offset + (lead :: rest).length := by
        have bound : size ≤ (lead :: rest).length := size_front_le (lead :: rest)
        rw [List.length_drop, Nat.add_assoc, Nat.add_sub_cancel' bound]
      rcases @inductionHypothesis
          { decoder with reader := next, pending := [], offset := decoder.offset + size }
          later provided unfinished_nil rfl with ⟨after, left, pulled⟩
      refine ⟨after, left, ?_⟩
      have remaining : Source.pulls ((parts later).length + 1)
          ({ decoder with
            reader := next, pending := [], offset := decoder.offset + size } : Decoder) =
          (answers decoder.policy (decoder.offset + size) (parts later) ++ [.ok none],
            { decoder with
              reader := after, pending := [], offset := decoder.offset + (lead :: rest).length }) := by
        rw [← total]
        exact pulled
      rw [parts, List.length_cons, Source.pulls_succ, pull_eq, decoded, remaining, answers,
        length_bytes_firstPart]
      rfl

/-! ## Answers and their bytes -/

/-- The bytes that an answer stands for. -/
def spelled : Except Failure (Option Char) → List UInt8
  | .ok (some character) => utf8EncodeChar character
  | .error (.malformed sequence) => sequence.bytes
  | .ok none => []
  | .error (.read _ _) => []

theorem spelled_answer (offset : Nat) (part : Part) :
    spelled (answer .strict offset part) = part.bytes := by
  cases part <;> rfl

theorem flatMap_spelled_answers (offset : Nat) (parts : List Part) :
    (answers .strict offset parts).flatMap spelled = parts.flatMap Part.bytes := by
  induction parts generalizing offset with
  | nil => rfl
  | cons part parts inductionHypothesis =>
      rw [answers, List.flatMap_cons, spelled_answer, inductionHypothesis, List.flatMap_cons]

theorem answer_ne_end (policy : Policy) (offset : Nat) (part : Part) :
    answer policy offset part ≠ .ok none := by
  cases part with
  | scalar character => exact nofun
  | malformed bytes => cases policy <;> exact nofun

theorem end_not_mem_answers (policy : Policy) (offset : Nat) (parts : List Part) :
    .ok none ∉ answers policy offset parts := by
  induction parts generalizing offset with
  | nil => exact List.not_mem_nil
  | cons part parts inductionHypothesis =>
      rw [answers, List.mem_cons, not_or]
      exact ⟨(answer_ne_end policy offset part).symm, inductionHypothesis _⟩

/-- Each answer is given for a part, at the offset where the part starts. -/
theorem answers_eq_append_cons {policy : Policy} {offset : Nat} {parts : List Part}
    {before after : List (Except Failure (Option Char))} {given : Except Failure (Option Char)}
    (divided : answers policy offset parts = before ++ given :: after) :
    ∃ earlier part later, parts = earlier ++ part :: later ∧
      before = answers policy offset earlier ∧
      given = answer policy (offset + (earlier.flatMap Part.bytes).length) part := by
  induction parts generalizing offset before with
  | nil => cases before <;> cases divided
  | cons part parts inductionHypothesis =>
      rw [answers] at divided
      cases before with
      | nil =>
          rcases List.cons.inj divided with ⟨same, _⟩
          exact ⟨[], part, parts, rfl, rfl, same.symm⟩
      | cons first before =>
          rcases List.cons.inj divided with ⟨same, rest⟩
          rcases inductionHypothesis rest with ⟨earlier, found, later, rfl, rfl, rfl⟩
          refine ⟨part :: earlier, found, later, rfl, ?_, ?_⟩
          · rw [answers, same]
          · rw [List.flatMap_cons, List.length_append, Nat.add_assoc]

/-- Up to the end a strict decoder loses no byte.  A failure carries a malformed part, which
starts at the offset in the failure and is as long as it can be. -/
theorem pulls_spell_bytes {device : Device} {bytes : List UInt8}
    (provides : device.Provides bytes) {capacity : Nat} (positive : 0 < capacity) :
    ∃ (given : List (Except Failure (Option Char))) (after : Decoder),
      Source.pulls (given.length + 1)
          ({ reader := .ofDevice device capacity, policy := .strict } : Decoder) =
        (given ++ [.ok none], after) ∧
      .ok none ∉ given ∧
      given.flatMap spelled = bytes ∧
      ∀ before failure later, given = before ++ .error failure :: later →
        ∃ part, failure = .malformed ⟨part, (before.flatMap spelled).length⟩ ∧
          MalformedPart (bytes.drop (before.flatMap spelled).length) part := by
  let decoder : Decoder := { reader := .ofDevice device capacity, policy := .strict }
  have provided : decoder.reader.Provides bytes := Reader.provides_ofDevice positive provides
  rcases pulls_of_provides provided unfinished_nil with ⟨after, _, pulled⟩
  refine ⟨answers .strict 0 (parts bytes),
    { decoder with reader := after, pending := [], offset := 0 + bytes.length }, ?_, ?_, ?_, ?_⟩
  · rw [length_answers]
    exact pulled
  · exact end_not_mem_answers .strict 0 (parts bytes)
  · rw [flatMap_spelled_answers, flatMap_bytes_parts]
  · intro before failure later divided
    rcases answers_eq_append_cons divided with ⟨earlier, part, rest, whole, rfl, same⟩
    rw [flatMap_spelled_answers]
    cases part with
    | scalar character => cases same
    | malformed part =>
        rw [answer, Nat.zero_add] at same
        exact ⟨part, Except.error.inj same, malformedPart_of_parts whole⟩

/-- A character, a broken sequence, a byte that leads nothing, and a sequence that ends early. -/
def damaged : Device :=
  ⟨[.data [0x41, 0xE2], .fault ⟨.interrupted, .standard⟩, .data [0x82, 0xFF, 0xC3]], 0⟩

theorem pulls_spell_bytes_damaged :
    damaged.Provides [0x41, 0xE2, 0x82, 0xFF, 0xC3] ∧ 0 < 2 ∧
      ∃ (given : List (Except Failure (Option Char))) (after : Decoder),
        Source.pulls (given.length + 1)
            ({ reader := .ofDevice damaged 2, policy := .strict } : Decoder) =
          (given ++ [.ok none], after) ∧
        given.flatMap spelled = [0x41, 0xE2, 0x82, 0xFF, 0xC3] := by
  have provides : damaged.Provides [0x41, 0xE2, 0x82, 0xFF, 0xC3] :=
    Device.provides_of_pieces (by decide)
  have positive : 0 < 2 := by decide
  rcases pulls_spell_bytes provides positive with ⟨given, after, pulled, _, whole, _⟩
  exact ⟨provides, positive, given, after, pulled, whole⟩

end Decoder
end ForwardCursor
