import ForwardCursor.Proofs.Cursor.Retrying
import ForwardCursor.Proofs.Decoder.Boundary
import ForwardCursor.Text.Decoded

namespace ForwardCursor

/-!
# Text with malformed parts in it

A text cursor over a strict decoder starts unless the bytes start with a malformed part.  A part
further behind does no more than fail one call.  The character in front of it is still ahead
after this call, and it is given out by the first call that meets no malformed part.

So the characters are all given out, in order and once each, if each failure is answered by
another call.  There is one failure for each malformed part, and it carries the place of that
part in the bytes.
-/

namespace TextCursor

open Decoder (answer answers)
open Stretch (attemptsFrom)
open Utf8

/-- Ask for the next character so many times, whatever the answers are. -/
def attempts {σ ε : Type} [Source σ ε Char] :
    Nat → TextCursor σ → List (Attempt ε Char) × TextCursor σ
  | 0, text => ([], text)
  | count + 1, text =>
    let (answer, next) := text.next
    let (later, after) := attempts count next
    (⟨text.position, text.ahead, answer⟩ :: later, after)

/-- These are the calls of the cursor inside. -/
theorem attempts_eq {σ ε : Type} [Source σ ε Char] (count : Nat) (text : TextCursor σ) :
    text.attempts count = ((text.cursor.attempts count).1, ⟨(text.cursor.attempts count).2⟩) := by
  induction count generalizing text with
  | zero => rfl
  | succ count inductionHypothesis =>
      simp only [attempts, next_eq, inductionHypothesis, Cursor.attempts_succ, position, ahead]

/-! ## The first answer -/

/-- A strict decoder fails at first only because of a malformed part in front. -/
theorem malformed_of_answers {failure : Failure} {others : List (Except Failure (Option Char))}
    {parts : List Part}
    (opened : .error failure :: others = answers .strict 0 parts ++ [.ok none]) :
    ∃ part later, parts = .malformed part :: later ∧ failure = .malformed ⟨part, 0⟩ := by
  cases parts with
  | nil => cases opened
  | cons part later =>
      rw [answers, List.cons_append, List.cons.injEq] at opened
      cases part with
      | scalar character => cases opened.1
      | malformed bytes => exact ⟨bytes, later, rfl, Except.error.inj opened.1⟩

/-- How a text cursor over these bytes starts, and what it gives out until it is at the end. -/
structure Recovers (bytes : List UInt8)
    (started : Except (Failure × Decoder) (TextCursor Decoder)) : Prop where
  fails_iff : (∃ failed, started = .error failed) ↔
    ∃ part later, parts bytes = .malformed part :: later
  /-- The failure is that of the part in front. -/
  failure_eq : ∀ {failure : Failure} {left : Decoder}, started = .error (failure, left) →
    ∃ part later, parts bytes = .malformed part :: later ∧ failure = .malformed ⟨part, 0⟩
  /-- The answers for the parts are divided by their characters.  While a character is ahead,
  the malformed parts between it and the next one are reported, and then it is given out. -/
  attempts_eq : ∀ {text : TextCursor Decoder}, started = .ok text →
    ∃ (stretches : List (Stretch Failure Char)) (after : TextCursor Decoder),
      answers .strict 0 (parts bytes) = stretches.flatMap Stretch.answers ∧
      text.attempts ((parts bytes).length + 1) =
        (attemptsFrom 0 stretches ++ [⟨stretches.length, none, .ok none⟩], after)

theorem recovers_of_pulls {decoder rest : Decoder} {bytes : List UInt8}
    (pulled : Source.pulls ((answers .strict 0 (parts bytes)).length + 1) decoder =
      (answers .strict 0 (parts bytes) ++ [.ok none], rest)) : Recovers bytes (ofSource decoder) := by
  have opened := congrArg Prod.fst pulled
  rw [Source.pulls_succ] at opened
  rw [ofSource]
  cases started : Cursor.ofSource (α := Char) decoder with
  | error failed =>
      rcases failed with ⟨failure, left⟩
      rw [Cursor.pull_of_refused started] at opened
      rcases malformed_of_answers opened with ⟨part, later, divided, same⟩
      refine ⟨⟨fun _ => ⟨part, later, divided⟩, fun _ => ⟨_, rfl⟩⟩, ?_, nofun⟩
      intro other left refused
      cases refused
      exact ⟨part, later, divided, same⟩
  | ok cursor =>
      rw [(Cursor.eq_of_started started).1] at opened
      refine ⟨⟨nofun, ?_⟩, nofun, ?_⟩
      · rintro ⟨part, later, divided⟩
        rw [divided, answers, List.cons_append] at opened
        cases (List.cons.inj opened).1
      · rintro text ⟨⟩
        have unended := Decoder.end_not_mem_answers .strict 0 (parts bytes)
        rcases Cursor.exists_attempts unended pulled started with ⟨stretches, divided, called⟩
        rw [Decoder.length_answers] at called
        refine ⟨stretches, ⟨⟨rest, none, stretches.length⟩⟩, divided, ?_⟩
        rw [TextCursor.attempts_eq, called]

/-- Malformed parts in the bytes of a device cost a text cursor no character.  It fails to start
if and only if one of them is in front.  Otherwise all characters are given out in order, each at
its position, and the failures in order, each while the last character in front of the part is
ahead. -/
theorem recovers_ofDevice {device : Device} {bytes : List UInt8} (provides : device.Provides bytes)
    {capacity : Nat} (positive : 0 < capacity) :
    Recovers bytes
        (ofSource ({ reader := .ofDevice device capacity, policy := .strict } : Decoder)) ∧
      Recovers bytes (ofDevice device) := by
  rcases Decoder.pulls_ofDevice provides positive .strict with ⟨rest, pulled⟩
  have room : 0 < Reader.defaultCapacity := by decide
  rcases Decoder.pulls_ofDevice provides room .strict with ⟨others, defaultPulled⟩
  exact ⟨recovers_of_pulls pulled, recovers_of_pulls defaultPulled⟩

/-- Two malformed parts between two letters, and one in front of the end. -/
def interspersed : Device := ⟨[.data [0x41, 0xE2], .data [0x82, 0xFF, 0x42], .data [0xC3]], 0⟩

theorem recovers_ofDevice_interspersed :
    interspersed.Provides [0x41, 0xE2, 0x82, 0xFF, 0x42, 0xC3] ∧ 0 < 3 ∧
      ∃ (text : TextCursor Decoder) (stretches : List (Stretch Failure Char))
        (after : TextCursor Decoder),
        ofSource ({ reader := .ofDevice interspersed 3, policy := .strict } : Decoder) = .ok text ∧
        answers .strict 0 (parts [0x41, 0xE2, 0x82, 0xFF, 0x42, 0xC3]) =
          stretches.flatMap Stretch.answers ∧
        text.attempts ((parts [0x41, 0xE2, 0x82, 0xFF, 0x42, 0xC3]).length + 1) =
          (attemptsFrom 0 stretches ++ [⟨stretches.length, none, .ok none⟩], after) := by
  have provides : interspersed.Provides [0x41, 0xE2, 0x82, 0xFF, 0x42, 0xC3] := ⟨0, rfl⟩
  have positive : 0 < 3 := by decide
  have recovers := (recovers_ofDevice provides positive).1
  cases started : ofSource ({ reader := .ofDevice interspersed 3, policy := .strict } : Decoder) with
  | ok text =>
      rcases recovers.attempts_eq started with ⟨stretches, after, divided, called⟩
      exact ⟨provides, positive, text, stretches, after, rfl, divided, called⟩
  | error failed =>
      rcases recovers.fails_iff.mp ⟨failed, started⟩ with ⟨part, later, divided⟩
      have letter := parts_encode_append 'A' [0xE2, 0x82, 0xFF, 0x42, 0xC3]
      cases letter.symm.trans divided

end TextCursor
end ForwardCursor
