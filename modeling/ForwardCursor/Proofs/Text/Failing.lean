import ForwardCursor.Proofs.Cursor.Failing
import ForwardCursor.Proofs.Text.Boundary
import ForwardCursor.Proofs.Text.Counterpart

namespace ForwardCursor

/-!
# Failures of operations on both kinds of cursor

A text cursor takes the steps of the cursor inside, so a failure leaves the same behind.  This
includes a line, which can fail in three places.  Trying again goes on with whatever had not
been taken, and not with the line.
-/

namespace TextCursor

variable {σ ε : Type} [Source σ ε Char]

open Cursor (Meets)

theorem perform_meets {text : TextCursor σ} {given : List (Option Char)} {failure : ε} {rest : σ}
    (breaks : Source.Breaks text.cursor.source given failure rest) {rounds : Nat}
    (enough : given.length < rounds) (operation : Operation) :
    ∃ answer after, text.perform rounds operation = some (answer, after) ∧
      Meets operation.AsksAfter text.cursor given failure rest answer after.cursor := by
  have answered : (text.perform rounds operation).isSome = true := by
    apply isSome_perform
    intro τ test state
    rw [takeUntilWith, Option.isSome_map]
    exact Cursor.isSome_foldUntil_of_breaks test String.push state "" breaks enough
  rcases Option.isSome_iff_exists.mp answered with ⟨⟨answer, after⟩, performed⟩
  rcases perform_ends performed with ⟨taken, ends⟩
  exact ⟨answer, after, performed, ends.meets breaks⟩

/-- Every operation has related outcomes on text cursors over related sources. -/
theorem perform_abreast {ρ φ : Type} [Source ρ φ Char] {failing : ε → φ → Prop}
    {related : σ → ρ → Prop} (alike : Source.AnswerAlike failing related) (rounds : Nat)
    (operation : Operation) {text : TextCursor σ} {other : TextCursor ρ}
    (abreast : text.cursor.Abreast related other.cursor) :
    Option.Rel (Together (Alike failing Eq) fun text other => text.cursor.Abreast related other.cursor)
      (text.perform rounds operation) (other.perform rounds operation) := by
  rw [perform_eq_outcome, perform_eq_outcome]
  apply rel_map (outcome_abreast alike rounds operation abreast)
  rintro outcome given ⟨answers, _, afters⟩
  exact ⟨answers, afters⟩

end TextCursor

section Failures

variable {σ ρ ε φ α : Type} [Source σ ε α] [Source ρ φ Char]

open Cursor (Abreast Fails Meets)

/-- An operation that gets to a failing request has the failure as its answer, and leaves the
cursor where the steps in front of it lead.  Trying again is like an operation on a cursor that
was led there without the failure, and counted taking gives out what was left of the first
request. -/
theorem failure_ends_operation :
    (∀ (cursor : Cursor σ α) (given : List (Option α)) (failure : ε) (rest : σ),
      Source.pulls (given.length + 1) cursor.source = (given.map .ok ++ [.error failure], rest) →
      ∀ rounds, given.length < rounds → ∀ operation : Cursor.Operation α,
      ∃ answer after, cursor.perform rounds operation = some (answer, after) ∧
        Meets operation.AsksAfter cursor given failure rest answer after) ∧
    (∀ (cursor after : Cursor σ α) (given : List (Option α)) (failure : ε) (rest : σ),
      Fails cursor given failure rest after →
      (∀ rounds (operation : Cursor.Operation α),
        Option.Rel (Together (Alike Eq Eq) (Abreast Preceded.Exhausted))
          (after.perform rounds operation)
          ((after.spared [] rest).perform rounds operation)) ∧
      ∀ count elements, (after.take (count - given.length)).1 = .ok elements →
        elements.toList = (cursor.remaining.take count).drop given.length) ∧
    (∀ (text : TextCursor ρ) (given : List (Option Char)) (failure : φ) (rest : ρ),
      Source.pulls (given.length + 1) text.source = (given.map .ok ++ [.error failure], rest) →
      ∀ rounds, given.length < rounds → ∀ operation : TextCursor.Operation,
      ∃ answer after, text.perform rounds operation = some (answer, after) ∧
        Meets operation.AsksAfter text.cursor given failure rest answer after.cursor) ∧
    ∀ (text after : TextCursor ρ) (given : List (Option Char)) (failure : φ) (rest : ρ),
      Fails text.cursor given failure rest after.cursor →
      (∀ rounds (operation : TextCursor.Operation),
        Option.Rel (Together (Alike Eq Eq)
            fun text other => text.cursor.Abreast Preceded.Exhausted other.cursor)
          (after.perform rounds operation)
          ((TextCursor.mk (after.cursor.spared [] rest)).perform rounds operation)) ∧
      ∀ count string, (after.take (count - given.length)).1 = .ok string →
        string.toList = (text.cursor.remaining.take count).drop given.length := by
  refine ⟨?_, ?_, ?_, ?_⟩
  · intro cursor given failure rest answers rounds enough operation
    exact Cursor.perform_meets (Source.breaks_of_pulls answers) enough operation
  · intro cursor after given failure rest fails
    refine ⟨?_, ?_⟩
    · intro rounds operation
      exact Cursor.perform_abreast Preceded.answerAlike rounds operation fails.abreast_spared
    · intro count elements succeeded
      rw [Cursor.foldTake_of_ok succeeded, Cursor.toList_foldl_push, fails.rest_eq]
  · intro text given failure rest answers rounds enough operation
    exact TextCursor.perform_meets (Source.breaks_of_pulls answers) enough operation
  · intro text after given failure rest fails
    refine ⟨?_, ?_⟩
    · intro rounds operation
      exact TextCursor.perform_abreast Preceded.answerAlike rounds operation fails.abreast_spared
    · intro count string succeeded
      rw [Cursor.foldTake_of_ok succeeded, TextCursor.foldl_push_eq_ofList, String.toList_ofList,
        fails.rest_eq]

/-- A script that fails once, between its second and its third element. -/
def halting : Recorded (Script String Nat) String Nat :=
  ⟨⟨[.ok (some 2), .error "late", .ok (some 3), .ok none]⟩, [.ok (some 1)]⟩

/-- A script that fails once, behind a pair. -/
def haltingBehindPair : Recorded (Script String Char) String Char :=
  ⟨⟨[.ok (some '\r'), .ok (some '\n'), .error "late", .ok none]⟩, [.ok (some 'a')]⟩

theorem failure_ends_operation_halting :
    let start : Cursor (Recorded (Script String Nat) String Nat) Nat := ⟨halting, some 1, 0⟩
    let stopped := (start.take 3).2
    let text : TextCursor (Recorded (Script String Char) String Char) :=
      ⟨⟨haltingBehindPair, some 'a', 0⟩⟩
    let insidePair : TextCursor (Recorded (Script String Char) String Char) :=
      ⟨⟨(Source.pulls 3 haltingBehindPair).2, some '\n', 2⟩⟩
    (start.perform 2 (.take 3) = some (.error "late", stopped) ∧
        stopped.source.answers = [.ok (some 1), .ok (some 2), .error "late"] ∧
        stopped.position = 1 ∧ (stopped.take 2).1 = .ok #[2, 3] ∧
        [2, 3] = (start.remaining.take 3).drop 1) ∧
      text.perform 3 .nextLine = some (.error "late", insidePair) ∧
        insidePair.source.answers =
          [.ok (some 'a'), .ok (some '\r'), .ok (some '\n'), .error "late"] ∧
        (insidePair.take 1).1 = .ok "\n" ∧ ['\n'] = (text.cursor.remaining.take 3).drop 2 := by
  intro start stopped text insidePair
  rcases failure_ends_operation (σ := Recorded (Script String Nat) String Nat)
    (ρ := Recorded (Script String Char) String Char) with ⟨plain, again, inText, onwards⟩
  refine ⟨?_, ?_⟩
  · rcases plain start [some 2] "late" stopped.source rfl 2 (by decide) (.take 3) with
      ⟨answer, after, performed, meets⟩
    have failed : start.perform 2 (.take 3) = some (.error "late", stopped) := rfl
    cases failed.symm.trans performed
    cases meets with
    | met _ fails =>
        have rest := (again start stopped [some 2] "late" stopped.source fails).2 3 #[2, 3] rfl
        exact ⟨performed, fails.logged _ Recorded.logs, fails.position_eq, rfl, rest⟩
  · rcases inText text [some '\r', some '\n'] "late" insidePair.source rfl 3 (by decide) .nextLine
      with ⟨answer, after, performed, meets⟩
    have failed : text.perform 3 .nextLine = some (.error "late", insidePair) := rfl
    cases failed.symm.trans performed
    cases meets with
    | met _ fails =>
        have rest := (onwards text insidePair _ "late" insidePair.source fails).2 3 "\n" rfl
        exact ⟨performed, fails.logged _ Recorded.logs, rfl, rest⟩

end Failures

end ForwardCursor
