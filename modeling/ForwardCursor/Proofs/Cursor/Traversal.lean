import ForwardCursor.Proofs.Cursor.Boundary
import ForwardCursor.Proofs.Source.Elements

namespace ForwardCursor

/-!
# What a traversal passes over

The elements that a cursor has not taken are the one ahead and then those of its
source.  An operation splits this list: the run of elements that it passes over
comes first, and the elements remaining afterwards follow.  The position grows by
the length of the run.

The split holds whether the operation succeeds or fails, because a failed step
takes nothing.  What a successful operation gives out is the whole run.  Since both
repetitions, counted and bounded, are steps of which only the last one can fail,
they inherit the split from single steps, and all operations inherit it from them.
-/

namespace Cursor

variable {σ ε α β τ : Type} [Source σ ε α]

/-- The elements that have not been taken, starting with the one ahead. -/
noncomputable def remaining (cursor : Cursor σ α) : Stream'.Seq α :=
  match cursor.ahead with
  | none => .nil
  | some element => .cons element (Source.elements cursor.source)

theorem remaining_of_end {cursor : Cursor σ α} (ended : cursor.ahead = none) :
    cursor.remaining = .nil := by
  simp only [remaining, ended]

theorem remaining_of_ahead {cursor : Cursor σ α} {element : α}
    (present : cursor.ahead = some element) :
    cursor.remaining = .cons element (Source.elements cursor.source) := by
  simp only [remaining, present]

theorem head_remaining (cursor : Cursor σ α) : cursor.remaining.head = cursor.ahead := by
  match present : cursor.ahead with
  | none => rw [remaining_of_end present, Stream'.Seq.head_nil]
  | some element => rw [remaining_of_ahead present, Stream'.Seq.head_cons]

theorem remaining_eq_nil_iff (cursor : Cursor σ α) :
    cursor.remaining = .nil ↔ cursor.ahead = none := by
  rw [← Stream'.Seq.head_eq_none_iff, head_remaining]

/-- A successful request decides what is ahead, and loses no element of the source. -/
theorem remaining_of_pull {source rest : σ} {ahead : Option α} (position : Nat)
    (answered : Source.pull source = (.ok ahead, rest)) :
    (Cursor.mk rest ahead position).remaining = Source.elements source := by
  cases ahead with
  | none => rw [remaining_of_end rfl, Source.elements_of_none answered]
  | some element => rw [remaining_of_ahead rfl, Source.elements_of_element answered]

/-! ## Passing over a run -/

/-- One cursor gets to another by taking the elements of a run. -/
structure Passes (before : Cursor σ α) (run : List α) (after : Cursor σ α) : Prop where
  remaining_eq : before.remaining = (Stream'.Seq.ofList run).append after.remaining
  position_eq : after.position = before.position + run.length

namespace Passes

theorem refl (cursor : Cursor σ α) : Passes cursor [] cursor where
  remaining_eq := by rw [Stream'.Seq.ofList_nil, Stream'.Seq.nil_append]
  position_eq := rfl

theorem trans {first second third : Cursor σ α} {run later : List α}
    (start : Passes first run second) (rest : Passes second later third) :
    Passes first (run ++ later) third where
  remaining_eq := by
    rw [start.remaining_eq, rest.remaining_eq, Stream'.Seq.ofList_append,
      Stream'.Seq.append_assoc]
  position_eq := by
    rw [rest.position_eq, start.position_eq, List.length_append, Nat.add_assoc]

/-- The length of the run can be read off the positions. -/
theorem length_run {before after : Cursor σ α} {run : List α} (passes : Passes before run after) :
    run.length = after.position - before.position := by
  rw [passes.position_eq, Nat.add_sub_cancel_left]

end Passes

/-! ## Single steps -/

theorem passes_of_taken {cursor : Cursor σ α} {element : α} {ahead : Option α} {rest : σ}
    (present : cursor.ahead = some element)
    (answered : Source.pull cursor.source = (.ok ahead, rest)) :
    Passes cursor [element] ⟨rest, ahead, cursor.position + 1⟩ where
  remaining_eq := by
    rw [remaining_of_ahead present, remaining_of_pull _ answered, Stream'.Seq.ofList_cons,
      Stream'.Seq.ofList_nil, Stream'.Seq.cons_append, Stream'.Seq.nil_append]
  position_eq := rfl

/-- The element that could not be taken is still the first one remaining. -/
theorem passes_of_failed {cursor : Cursor σ α} {element : α} {failure : ε} {rest : σ}
    (present : cursor.ahead = some element)
    (failed : Source.pull cursor.source = (.error failure, rest)) :
    Passes cursor [] { cursor with source := rest } where
  remaining_eq := by
    have kept : ({ cursor with source := rest } : Cursor σ α).ahead = some element := present
    rw [remaining_of_ahead present, remaining_of_ahead kept, Source.elements_of_error failed,
      Stream'.Seq.ofList_nil, Stream'.Seq.nil_append]
  position_eq := rfl

/-- What a single step passes over: the element it gives, or nothing. -/
theorem next_passes (cursor : Cursor σ α) :
    ∃ run, Passes cursor run cursor.next.2 ∧
      ∀ given, cursor.next.1 = .ok given → given = cursor.ahead ∧ run = given.toList := by
  rcases cursor.next_cases with ⟨ended, stepped⟩ |
    ⟨element, ahead, rest, present, answered, stepped⟩ |
    ⟨element, failure, rest, present, failed, stepped⟩
  · refine ⟨[], stepped ▸ Passes.refl cursor, ?_⟩
    intro given answer
    rw [stepped] at answer
    cases answer
    exact ⟨ended.symm, rfl⟩
  · refine ⟨[element], stepped ▸ passes_of_taken present answered, ?_⟩
    intro given answer
    rw [stepped] at answer
    cases answer
    exact ⟨present.symm, rfl⟩
  · refine ⟨[], stepped ▸ passes_of_failed present failed, ?_⟩
    intro given answer
    rw [stepped] at answer
    cases answer

/-! ## Steps and operations -/

theorem passes_of_next_some {cursor after : Cursor σ α} {element : α}
    (stepped : cursor.next = (.ok (some element), after)) : Passes cursor [element] after := by
  rcases cursor.next_cases with ⟨_, ended⟩ | ⟨_, _, _, present, answered, taken⟩ |
    ⟨_, _, _, _, _, failed⟩
  · cases stepped.symm.trans ended
  · cases stepped.symm.trans taken
    exact passes_of_taken present answered
  · cases stepped.symm.trans failed

theorem passes_of_next_error {cursor after : Cursor σ α} {failure : ε}
    (stepped : cursor.next = (.error failure, after)) : Passes cursor [] after := by
  rcases cursor.next_cases with ⟨_, ended⟩ | ⟨_, _, _, _, _, taken⟩ |
    ⟨_, _, _, present, refused, failed⟩
  · cases stepped.symm.trans ended
  · cases stepped.symm.trans taken
  · cases stepped.symm.trans failed
    exact passes_of_failed present refused

theorem Steps.passes {cursor after : Cursor σ α} {taken : List α}
    (steps : Steps cursor taken after) : Passes cursor taken after := by
  induction steps with
  | refl cursor => exact Passes.refl cursor
  | cons stepped _ inductionHypothesis =>
      exact (passes_of_next_some stepped).trans inductionHypothesis

/-- A step that fails in the end passes over nothing more. -/
theorem Ends.passes {asks : Nat → Prop} {cursor after : Cursor σ α} {taken : List α}
    {answer : Except ε β} (ends : Ends asks cursor taken answer after) :
    Passes cursor taken after := by
  cases ends with
  | succeeded steps _ => exact steps.passes
  | failed steps _ stepped =>
      have whole := steps.passes.trans (passes_of_next_error stepped)
      rwa [List.append_nil] at whole

/-- Counted taking pushes exactly the run that it passes over. -/
theorem foldTake_passes (push : β → α → β) (count : Nat) (taken : β) (cursor : Cursor σ α) :
    ∃ run, Passes cursor run (foldTake push count taken cursor).2 ∧
      ∀ given, (foldTake push count taken cursor).1 = .ok given → given = run.foldl push taken := by
  rcases foldTake_collects push count taken cursor with ⟨run, result, collects, answer⟩
  refine ⟨run, collects.ends.passes, ?_⟩
  intro given succeeded
  rw [answer] at succeeded
  cases collects with
  | enough _ _ | ended _ _ _ => exact (Except.ok.inj succeeded).symm
  | failed _ _ _ => cases succeeded

theorem advance_passes (count : Nat) (cursor : Cursor σ α) :
    ∃ run, Passes cursor run (advance count cursor).2 := by
  rw [advance_eq_foldTake]
  rcases foldTake_passes (fun _ _ => ()) count () cursor with ⟨run, passes, _⟩
  exact ⟨run, passes⟩

/-- Bounded taking pushes exactly the run that it passes over, if it comes to an end. -/
theorem foldUntil_passes (test : τ → α → Bool × τ) (push : β → α → β) {rounds : Nat}
    {state last : τ} {taken : β} {cursor after : Cursor σ α} {answer : Except ε β}
    (finished : foldUntil test push rounds state taken cursor = some (answer, last, after)) :
    ∃ run, Passes cursor run after ∧
      ∀ given, answer = .ok given → given = run.foldl push taken := by
  rcases foldUntil_stops finished with ⟨run, _, result, _, stops, rfl⟩
  refine ⟨run, stops.ends.passes, ?_⟩
  intro given succeeded
  cases stops with
  | accepted _ _ _ _ | ended _ _ _ => exact (Except.ok.inj succeeded).symm
  | failed _ _ _ _ _ => cases succeeded

end Cursor
end ForwardCursor
