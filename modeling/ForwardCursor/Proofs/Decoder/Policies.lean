import ForwardCursor.Proofs.Decoder.RoundTrip
import ForwardCursor.Proofs.Utf8.Substitution

namespace ForwardCursor

/-!
# The policies differ in malformed sequences only

A strict decoder and a lossy one over equal readers take the same bytes at the same
requests.  Where the strict one reports a malformed sequence, the lossy one gives the
replacement character, and nothing else is different: not the faults of the reader and
their offsets, not the ends, and not what is left for the next request.  Nothing is assumed
about the reader here.

If nothing but bytes comes before the end, the characters of a lossy decoder are therefore
known without decoding piece by piece.  They are the text that the bytes stand for when each
malformed part is replaced.
-/

namespace Decoder

open Utf8

/-- The answer with the replacement character in place of a malformed sequence. -/
def lenient : Except Failure (Option Char) → Except Failure (Option Char)
  | .error (.malformed _) => .ok (some replacement)
  | answer => answer

/-- The policy decides on the answer to a request, by way of `weaken`, and on nothing else.
What is left differs in the policy alone. -/
def SameButFor {β : Type} (weaken : β → β) (request : Decoder → β × Decoder)
    (decoder : Decoder) : Prop :=
  ∃ (answer : β) (left : Decoder),
    request { decoder with policy := .strict } = (answer, { left with policy := .strict }) ∧
    request { decoder with policy := .lossy } = (weaken answer, { left with policy := .lossy })

/-- A request that is answered alike under both policies. -/
theorem sameButFor_of_answer {β : Type} {weaken : β → β} {request : Decoder → β × Decoder}
    {decoder : Decoder} {answer : β} (left : Decoder) (kept : weaken answer = answer)
    (answered : ∀ policy, request { decoder with policy } = (answer, { left with policy })) :
    SameButFor weaken request decoder := by
  refine ⟨answer, left, answered .strict, ?_⟩
  rw [kept]
  exact answered .lossy

/-- A request that turns into another one under both policies. -/
theorem SameButFor.of_eq {β : Type} {weaken : β → β} {request other : Decoder → β × Decoder}
    {decoder next : Decoder} (later : SameButFor weaken other next)
    (same : ∀ policy, request { decoder with policy } = other { next with policy }) :
    SameButFor weaken request decoder := by
  rcases later with ⟨answer, left, strictly, leniently⟩
  exact ⟨answer, left, (same .strict).trans strictly, (same .lossy).trans leniently⟩

theorem reject_sameButFor (decoder : Decoder) : SameButFor lenient reject decoder := by
  refine ⟨.error (.malformed ⟨decoder.pending, decoder.offset⟩), { decoder with
    pending := []
    offset := decoder.offset + decoder.pending.length }, ?_, ?_⟩
  · exact reject_strict rfl
  · exact reject_lossy rfl

theorem decode_sameButFor (decoder : Decoder) : SameButFor lenient decode decoder := by
  induction size : decoder.reader.bytes.length using Nat.strong_induction_on
    generalizing decoder with
  | _ size inductionHypothesis =>
      match looked : decoder.reader.peek with
      | (.error fault, reader) =>
          have failed : ∀ policy, decode { decoder with policy } =
              (.error (.read fault decoder.offset), { decoder with reader, policy }) :=
            fun policy => decode_of_fault looked
          exact sameButFor_of_answer { decoder with reader } rfl failed
      | (.ok none, reader) =>
          have ended : ∀ policy, decode { decoder with policy } =
              if decoder.pending.isEmpty then (.ok none, { decoder with reader, policy })
              else reject { decoder with reader, policy } :=
            fun policy => decode_of_end looked
          by_cases empty : decoder.pending.isEmpty
          · exact sameButFor_of_answer { decoder with reader } rfl
              fun policy => (ended policy).trans (if_pos empty)
          · apply (reject_sameButFor { decoder with reader }).of_eq
            exact fun policy => (ended policy).trans (if_neg empty)
      | (.ok (some byte), reader) =>
          cases found : front (decoder.pending ++ [byte]) with
          | scalar character width =>
              exact sameButFor_of_answer { decoder with
                reader := reader.consume
                pending := []
                offset := decoder.offset + width } rfl fun policy => decode_of_scalar looked found
          | malformed width =>
              by_cases short : width ≤ decoder.pending.length
              · apply (reject_sameButFor { decoder with reader }).of_eq
                exact fun policy => decode_of_break looked found short
              · -- The byte is kept, so that fewer bytes are left to the reader.
                have fewer := Reader.length_consume_lt looked Nat.zero_lt_one
                have longer := Nat.lt_of_not_le short
                apply (inductionHypothesis _ (size ▸ fewer) { decoder with
                  reader := reader.consume
                  pending := decoder.pending ++ [byte] } rfl).of_eq
                exact fun policy => decode_of_continue looked found longer

/-- The same for any number of requests in a row. -/
theorem pulls_sameButFor (count : Nat) (decoder : Decoder) :
    SameButFor (List.map lenient) (Source.pulls count) decoder := by
  induction count generalizing decoder with
  | zero => exact ⟨[], decoder, rfl, rfl⟩
  | succ count inductionHypothesis =>
      rcases decoder.decode_sameButFor with ⟨answer, middle, strictly, leniently⟩
      rcases inductionHypothesis middle with ⟨answers, left, strictlyLater, lenientlyLater⟩
      refine ⟨answer :: answers, left, ?_, ?_⟩
      · rw [Source.pulls_succ, pull_eq, strictly, strictlyLater]
      · rw [Source.pulls_succ, pull_eq, leniently, lenientlyLater, List.map_cons]

/-! ## The characters of a lossy decoder -/

/-- A lossy decoder answers for each part with the character that is shown for it. -/
theorem answers_lossy (offset : Nat) (parts : List Part) :
    answers .lossy offset parts = characterAnswers (parts.map Part.shown) := by
  induction parts generalizing offset with
  | nil => rfl
  | cons part parts inductionHypothesis =>
      rw [answers, inductionHypothesis]
      cases part <;> rfl

theorem pulls_of_lossy {decoder : Decoder} {bytes : List UInt8}
    (provides : decoder.reader.Provides bytes) (lossy : decoder.policy = .lossy)
    (empty : decoder.pending = []) :
    let characters := (parts bytes).map Part.shown
    ∃ after : Decoder, Source.pulls (characters.length + 1) decoder =
        (characterAnswers characters ++ [.ok none], after) ∧
      after.offset = decoder.offset + bytes.length := by
  intro characters
  have unfinished : Unfinished decoder.pending := empty ▸ unfinished_nil
  rcases pulls_of_provides provides unfinished with ⟨after, _, pulled⟩
  rw [empty, List.nil_append, lossy, answers_lossy, ← List.length_map Part.shown] at pulled
  exact ⟨_, pulled, rfl⟩

/-- A lossy decoder answers any number of requests as a strict one does, except that it gives
the replacement character for each malformed sequence, and both are left with the same reader,
the same bytes kept, and the same offset.  If nothing but bytes comes before the end, it gives
the text that these bytes stand for, and the offset is then the number of bytes. -/
theorem pulls_lossy_eq_strict (device : Device) (capacity count : Nat) :
    (∃ (answers : List (Except Failure (Option Char))) (left : Decoder),
      Source.pulls count ({ reader := .ofDevice device capacity, policy := .strict } : Decoder) =
        (answers, { left with policy := .strict }) ∧
      Source.pulls count ({ reader := .ofDevice device capacity, policy := .lossy } : Decoder) =
        (answers.map lenient, { left with policy := .lossy })) ∧
    ∀ bytes, device.Provides bytes → 0 < capacity →
      ∃ characters, Substitutes bytes characters ∧
        (∀ others, Substitutes bytes others → others = characters) ∧
        ∃ after : Decoder,
          Source.pulls (characters.length + 1)
              ({ reader := .ofDevice device capacity, policy := .lossy } : Decoder) =
            (characterAnswers characters ++ [.ok none], after) ∧
          after.offset = bytes.length := by
  constructor
  · exact pulls_sameButFor count { reader := .ofDevice device capacity }
  · intro bytes provides positive
    have provided := Reader.provides_ofDevice positive provides
    let decoder : Decoder := { reader := .ofDevice device capacity, policy := .lossy }
    rcases @pulls_of_lossy decoder bytes provided rfl rfl with ⟨after, pulled, counted⟩
    refine ⟨(parts bytes).map Part.shown, substitutes_parts bytes, ?_, after, pulled, ?_⟩
    · intro others substitutes
      exact substitutes.eq_parts
    · exact counted.trans (Nat.zero_add _)

/-- What damaged bytes stand for: a character, a sequence that breaks off, a byte that leads
nothing, and a sequence that the end cuts off. -/
theorem substitutes_damaged :
    Substitutes [0x41, 0xE2, 0x82, 0xFF, 0xC3] ['A', '\uFFFD', '\uFFFD', '\uFFFD'] := by
  have cut : front [0xC3] = .malformed 1 := rfl
  have stray : front [0xFF, 0xC3] = .malformed 1 := rfl
  have broken : front [0xE2, 0x82, 0xFF, 0xC3] = .malformed 2 := rfl
  have last : Substitutes [0xC3] ['\uFFFD'] := substitutes_of_front cut .nil
  have later : Substitutes [0xFF, 0xC3] ['\uFFFD', '\uFFFD'] := substitutes_of_front stray last
  exact .character 'A' (substitutes_of_front broken later)

theorem pulls_lossy_eq_strict_damaged :
    damaged.Provides [0x41, 0xE2, 0x82, 0xFF, 0xC3] ∧ 0 < 2 ∧
      ∃ after : Decoder,
        Source.pulls 5 ({ reader := .ofDevice damaged 2, policy := .lossy } : Decoder) =
          (characterAnswers ['A', '\uFFFD', '\uFFFD', '\uFFFD'] ++ [.ok none], after) ∧
        after.offset = 5 := by
  have provides : damaged.Provides [0x41, 0xE2, 0x82, 0xFF, 0xC3] :=
    Device.provides_of_pieces (by decide)
  have positive : 0 < 2 := by decide
  rcases (pulls_lossy_eq_strict damaged 2 5).2 _ provides positive with
    ⟨characters, _, unique, after, pulled, counted⟩
  cases unique _ substitutes_damaged
  exact ⟨provides, positive, after, pulled, counted⟩

end Decoder
end ForwardCursor
