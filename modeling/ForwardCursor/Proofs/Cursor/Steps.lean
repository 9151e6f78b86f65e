import ForwardCursor.Cursor.Extract

namespace ForwardCursor
namespace Cursor

/-!
# Operations are steps

Whatever an operation does, it does by taking single steps.  Steps that succeed take one
element each.  A step that fails takes none, and it is the last step of its operation.  So
there are two ways in which an operation can end, and what it has taken until then is the
same in both: the elements of the steps that succeeded.

Each repetition is described once, by its steps.  What is true of steps is carried over to
operations from this description, and the repetitions are not gone through again.
-/

variable {σ ε α β γ : Type} [Source σ ε α]

/-- Steps that all succeed lead from one cursor to another, and take these elements. -/
inductive Steps : Cursor σ α → List α → Cursor σ α → Prop where
  | refl (cursor : Cursor σ α) : Steps cursor [] cursor
  | cons {cursor next after : Cursor σ α} {element : α} {taken : List α}
      (stepped : cursor.next = (.ok (some element), next)) (later : Steps next taken after) :
      Steps cursor (element :: taken) after

namespace Steps

theorem append {first second third : Cursor σ α} {taken later : List α}
    (start : Steps first taken second) (rest : Steps second later third) :
    Steps first (taken ++ later) third := by
  induction start with
  | refl => exact rest
  | cons stepped _ inductionHypothesis => exact .cons stepped (inductionHypothesis rest)

end Steps

/-- A step that gives an element has taken the one ahead by a request that succeeded. -/
theorem pull_of_next_some {cursor after : Cursor σ α} {element : α}
    (stepped : cursor.next = (.ok (some element), after)) :
    cursor.ahead = some element ∧ Source.pull cursor.source = (.ok after.ahead, after.source) ∧
      after.position = cursor.position + 1 := by
  rcases cursor.next_cases with ⟨_, ended⟩ | ⟨_, _, _, present, asked, taken⟩ | ⟨_, _, _, _, _, failed⟩
  · cases stepped.symm.trans ended
  · cases stepped.symm.trans taken
    exact ⟨present, asked, rfl⟩
  · cases stepped.symm.trans failed

/-- A step that fails has changed nothing but the source. -/
theorem pull_of_next_error {cursor after : Cursor σ α} {failure : ε}
    (stepped : cursor.next = (.error failure, after)) :
    Source.pull cursor.source = (.error failure, after.source) ∧
      after = { cursor with source := after.source } := by
  rcases cursor.next_cases with ⟨_, ended⟩ | ⟨_, _, _, _, _, taken⟩ | ⟨_, _, _, _, asked, failed⟩
  · cases stepped.symm.trans ended
  · cases stepped.symm.trans taken
  · cases stepped.symm.trans failed
    exact ⟨asked, rfl⟩

/-- A step that does not fail takes what is ahead, if there is anything. -/
theorem next_steps {cursor after : Cursor σ α} {given : Option α}
    (stepped : cursor.next = (.ok given, after)) : Steps cursor given.toList after := by
  cases given with
  | none =>
      rcases cursor.next_cases with ⟨_, ended⟩ | ⟨_, _, _, _, _, taken⟩ | ⟨_, _, _, _, _, failed⟩
      · cases stepped.symm.trans ended
        exact .refl cursor
      · cases stepped.symm.trans taken
      · cases stepped.symm.trans failed
  | some element => exact .cons stepped (.refl after)

theorem Steps.position_eq {cursor after : Cursor σ α} {taken : List α}
    (steps : Steps cursor taken after) : after.position = cursor.position + taken.length := by
  induction steps with
  | refl => rfl
  | cons stepped _ inductionHypothesis =>
      rw [inductionHypothesis, (pull_of_next_some stepped).2.2, List.length_cons, Nat.add_assoc,
        Nat.add_comm 1]

/-- The steps of an operation with this answer, and the elements that they take.  All of them
have succeeded, or one more has failed with the answer.  An operation need not go on for ever,
so it may be known how many elements it has taken when it can still ask for another one. -/
inductive Ends (asks : Nat → Prop) (cursor : Cursor σ α) (taken : List α) :
    Except ε β → Cursor σ α → Prop where
  | succeeded {after : Cursor σ α} (steps : Steps cursor taken after) (value : β) :
      Ends asks cursor taken (.ok value) after
  | failed {stopped after : Cursor σ α} {failure : ε} (steps : Steps cursor taken stopped)
      (asked : asks taken.length) (stepped : stopped.next = (.error failure, after)) :
      Ends asks cursor taken (.error failure) after

namespace Ends

variable {asks further : Nat → Prop} {cursor after : Cursor σ α} {taken : List α}
  {answer : Except ε β}

theorem map (f : β → γ) (ends : Ends asks cursor taken answer after) :
    Ends asks cursor taken (answer.map f) after := by
  cases ends with
  | succeeded steps value => exact .succeeded steps (f value)
  | failed steps asked stepped => exact .failed steps asked stepped

/-- An operation of which nothing is known about when it stops to ask. -/
theorem unlimited (ends : Ends asks cursor taken answer after) :
    Ends (fun _ => True) cursor taken answer after := by
  cases ends with
  | succeeded steps value => exact .succeeded steps value
  | failed steps _ stepped => exact .failed steps trivial stepped

theorem of_steps {start : Cursor σ α} {earlier : List α} (steps : Steps start earlier cursor)
    (ends : Ends (fun _ => True) cursor taken answer after) :
    Ends (fun _ => True) start (earlier ++ taken) answer after := by
  cases ends with
  | succeeded later value => exact .succeeded (steps.append later) value
  | failed later _ stepped => exact .failed (steps.append later) trivial stepped

end Ends

/-! ## Single steps -/

theorem next_ends (cursor : Cursor σ α) :
    ∃ taken, Ends (· = 0) cursor taken cursor.next.1 cursor.next.2 := by
  rcases cursor.next_cases with ⟨_, stepped⟩ | ⟨element, _, _, _, _, stepped⟩ |
    ⟨_, _, _, _, _, stepped⟩
  · rw [stepped]
    exact ⟨[], .succeeded (.refl cursor) none⟩
  · rw [stepped]
    exact ⟨[element], .succeeded (.cons stepped (.refl _)) (some element)⟩
  · rw [stepped]
    exact ⟨[], .failed (.refl cursor) rfl stepped⟩

theorem skip_ends (cursor : Cursor σ α) :
    ∃ taken, Ends (· = 0) cursor taken cursor.skip.1 cursor.skip.2 := by
  rcases cursor.next_ends with ⟨taken, ends⟩
  exact ⟨taken, ends.map fun _ => ()⟩

/-! ## Counted operations -/

/-- The three ways in which counted taking stops: there are enough elements, there are no more,
or the step for another one fails. -/
inductive Collects (count : Nat) (cursor : Cursor σ α) (taken : List α) :
    Except ε (List α) → Cursor σ α → Prop where
  | enough {after : Cursor σ α} (steps : Steps cursor taken after) (counted : taken.length = count) :
      Collects count cursor taken (.ok taken) after
  | ended {after : Cursor σ α} (steps : Steps cursor taken after) (short : taken.length < count)
      (absent : after.ahead = none) : Collects count cursor taken (.ok taken) after
  | failed {stopped after : Cursor σ α} {failure : ε} (steps : Steps cursor taken stopped)
      (short : taken.length < count) (stepped : stopped.next = (.error failure, after)) :
      Collects count cursor taken (.error failure) after

namespace Collects

variable {count : Nat} {cursor next after : Cursor σ α} {taken : List α}
  {result : Except ε (List α)}

theorem cons {element : α} (stepped : cursor.next = (.ok (some element), next))
    (later : Collects count next taken result after) :
    Collects (count + 1) cursor (element :: taken) (result.map (element :: ·)) after := by
  cases later with
  | enough steps counted => exact .enough (.cons stepped steps) (congrArg (· + 1) counted)
  | ended steps short absent => exact .ended (.cons stepped steps) (Nat.succ_lt_succ short) absent
  | failed steps short failed => exact .failed (.cons stepped steps) (Nat.succ_lt_succ short) failed

theorem ends (collects : Collects count cursor taken result after) :
    Ends (· < count) cursor taken result after := by
  cases collects with
  | enough steps _ => exact .succeeded steps taken
  | ended steps _ _ => exact .succeeded steps taken
  | failed steps short stepped => exact .failed steps short stepped

end Collects

theorem map_foldl_cons (push : β → α → β) (start : β) (element : α) (result : Except ε (List α)) :
    (result.map (element :: ·)).map (List.foldl push start) =
      result.map (List.foldl push (push start element)) := by
  cases result <;> rfl

/-- Counted taking stops in one of these ways, and pushes what it takes. -/
theorem foldTake_collects (push : β → α → β) (count : Nat) (start : β) (cursor : Cursor σ α) :
    ∃ taken result, Collects count cursor taken result (foldTake push count start cursor).2 ∧
      (foldTake push count start cursor).1 = result.map (List.foldl push start) := by
  induction count generalizing start cursor with
  | zero => exact ⟨[], .ok [], .enough (.refl cursor) rfl, rfl⟩
  | succ count inductionHypothesis =>
      rcases cursor.next_cases with ⟨ended, _⟩ | ⟨element, ahead, rest, _, _, stepped⟩ |
        ⟨_, failure, rest, _, _, stepped⟩
      · rw [foldTake_of_end push _ start ended]
        exact ⟨[], .ok [], .ended (.refl cursor) (Nat.zero_lt_succ count) ended, rfl⟩
      · rcases inductionHypothesis (push start element) ⟨rest, ahead, cursor.position + 1⟩ with
          ⟨taken, result, later, answer⟩
        simp only [foldTake, stepped]
        exact ⟨element :: taken, _, later.cons stepped,
          answer.trans (map_foldl_cons push start element result).symm⟩
      · simp only [foldTake, stepped]
        exact ⟨[], .error failure, .failed (.refl cursor) (Nat.zero_lt_succ count) stepped, rfl⟩

/-- To pass over elements is to take them and to push nothing. -/
theorem advance_eq_foldTake (count : Nat) (cursor : Cursor σ α) :
    advance count cursor = foldTake (fun _ _ => ()) count () cursor := by
  induction count generalizing cursor with
  | zero => rfl
  | succ count inductionHypothesis =>
      rcases cursor.next_cases with ⟨ended, _⟩ | ⟨element, ahead, rest, present, _, stepped⟩ |
        ⟨element, failure, rest, present, _, stepped⟩
      · rw [advance_of_end _ ended, foldTake_of_end _ _ _ ended]
      · rw [foldTake, stepped, advance, skip_eq, stepped, atEnd, present]
        exact inductionHypothesis _
      · rw [foldTake, stepped, advance, skip_eq, stepped, atEnd, present]
        rfl

theorem foldTake_ends (push : β → α → β) (count : Nat) (start : β) (cursor : Cursor σ α) :
    ∃ taken, Ends (· < count) cursor taken (foldTake push count start cursor).1
      (foldTake push count start cursor).2 := by
  rcases foldTake_collects push count start cursor with ⟨taken, result, collects, answer⟩
  rw [answer]
  exact ⟨taken, collects.ends.map _⟩

theorem drop_ends (count : Nat) (cursor : Cursor σ α) :
    ∃ taken, Ends (· < count) cursor taken (cursor.drop count).1 (cursor.drop count).2 := by
  rcases foldTake_ends (fun _ _ => ()) count () cursor with ⟨taken, ends⟩
  rw [← advance_eq_foldTake] at ends
  exact ⟨taken, ends.map fun _ => (advance count cursor).2.position - cursor.position⟩

end Cursor
end ForwardCursor
