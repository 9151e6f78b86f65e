import ForwardCursor.Proofs.Cursor.Boundary

namespace ForwardCursor

/-!
# Operations and runs of a cursor

A caller drives a cursor through its operations only.  An operation is kept here as
a value, with its count, target, or test, so that statements can speak of all of
them at once and of any number of them in a row.

A run goes on after a failure: the next operation is performed on the cursor that
the failed one left.  A bounded operation that does not come to an end within its
rounds performs no step of a run, whatever the number of rounds.

All operations take single steps until one of them fails.  What is true of a single step
and can be put together is therefore true of every operation and of every run.
-/

/-- How often an answer is a failure, which is once or not at all. -/
def failures {ε β : Type} : Except ε β → Nat
  | .ok _ => 0
  | .error _ => 1

/-- One state is left by a finite run of calls on another, and some number of the calls
failed. -/
inductive Run {S ε β : Type} (call : S → Except ε β → S → Prop) (start : S) : Nat → S → Prop where
  | refl : Run call start 0 start
  | step {failed : Nat} {state after : S} {answer : Except ε β} (run : Run call start failed state)
      (called : call state answer after) : Run call start (failed + failures answer) after

/-- A state that every call leaves as it is, without failing, is left by no run. -/
theorem Run.stays {S ε β : Type} {call : S → Except ε β → S → Prop} {start state : S} {failed : Nat}
    (still : ∀ answer after, call start answer after → after = start ∧ failures answer = 0)
    (run : Run call start failed state) : state = start ∧ failed = 0 := by
  induction run with
  | refl => exact ⟨rfl, rfl⟩
  | step _ called inductionHypothesis =>
      rcases inductionHypothesis with ⟨rfl, rfl⟩
      rcases still _ _ called with ⟨same, succeeded⟩
      exact ⟨same, by rw [succeeded]⟩

namespace Cursor

/-- The operations of a cursor.  A test may have a state of any type, and the
equality used to find a target may be any relation that can be computed. -/
inductive Operation (α : Type) : Type 1 where
  | next
  | skip
  | drop (count : Nat)
  | take (count : Nat)
  | takeUntilWith {τ : Type} (test : τ → α → Bool × τ) (state : τ)
  | takeTo (equality : BEq α) (target : α)
  | takeAll

/-- What an operation gives out when it succeeds. -/
inductive Answer (α : Type) where
  | element (given : Option α)
  | done
  | count (passed : Nat)
  | elements (taken : Array α)

variable {σ ε α β : Type} [Source σ ε α]

/-- Perform an operation.  The answer is missing only if a bounded operation needs
more rounds. -/
def perform (rounds : Nat) (cursor : Cursor σ α) :
    Operation α → Option (Except ε (Answer α) × Cursor σ α)
  | .next => some (cursor.next.1.map .element, cursor.next.2)
  | .skip => some (cursor.skip.1.map fun _ => .done, cursor.skip.2)
  | .drop count => some ((cursor.drop count).1.map .count, (cursor.drop count).2)
  | .take count => some ((cursor.take count).1.map .elements, (cursor.take count).2)
  | .takeUntilWith test state =>
    (cursor.takeUntilWith rounds test state).map
      fun (answer, _, after) => (answer.map .elements, after)
  | .takeTo _ target =>
    (cursor.takeTo rounds target).map fun (answer, after) => (answer.map .elements, after)
  | .takeAll =>
    (cursor.takeAll rounds).map fun (answer, after) => (answer.map .elements, after)

/-! ## More rounds -/

theorem takeUntilWith_of_le {rounds larger : Nat} (enough : rounds ≤ larger) {τ : Type}
    {test : τ → α → Bool × τ} {state : τ} {cursor : Cursor σ α}
    {answer : Except ε (Array α) × τ × Cursor σ α}
    (finished : cursor.takeUntilWith rounds test state = some answer) :
    cursor.takeUntilWith larger test state = some answer :=
  foldUntil_of_le test Array.push enough state #[] cursor finished

theorem takeUntil_of_le {rounds larger : Nat} (enough : rounds ≤ larger) {predicate : α → Bool}
    {cursor : Cursor σ α} {answer : Except ε (Array α) × Cursor σ α}
    (finished : cursor.takeUntil rounds predicate = some answer) :
    cursor.takeUntil larger predicate = some answer := by
  rcases Option.map_eq_some_iff.mp finished with ⟨inner, stopped, same⟩
  exact Option.map_eq_some_iff.mpr ⟨inner, takeUntilWith_of_le enough stopped, same⟩

/-- An answer within some rounds is the answer within more rounds. -/
theorem perform_of_le {rounds larger : Nat} (enough : rounds ≤ larger) {operation : Operation α}
    {cursor : Cursor σ α} {answer : Except ε (Answer α) × Cursor σ α}
    (performed : cursor.perform rounds operation = some answer) :
    cursor.perform larger operation = some answer := by
  cases operation with
  | next => exact performed
  | skip => exact performed
  | drop count => exact performed
  | take count => exact performed
  | takeUntilWith test state =>
      rcases Option.map_eq_some_iff.mp performed with ⟨inner, finished, same⟩
      exact Option.map_eq_some_iff.mpr ⟨inner, takeUntilWith_of_le enough finished, same⟩
  | takeTo equality target =>
      rcases Option.map_eq_some_iff.mp performed with ⟨inner, finished, same⟩
      exact Option.map_eq_some_iff.mpr ⟨inner, takeUntil_of_le enough finished, same⟩
  | takeAll =>
      rcases Option.map_eq_some_iff.mp performed with ⟨inner, finished, same⟩
      exact Option.map_eq_some_iff.mpr ⟨inner, takeUntil_of_le enough finished, same⟩

/-- An operation has an answer if every bounded one comes to an end. -/
theorem isSome_perform {rounds : Nat} (operation : Operation α) {cursor : Cursor σ α}
    (bounded : ∀ {τ : Type} (test : τ → α → Bool × τ) (state : τ),
      (cursor.takeUntilWith rounds test state).isSome = true) :
    (cursor.perform rounds operation).isSome = true := by
  cases operation with
  | next | skip | drop | take => rfl
  | takeUntilWith test state =>
      rw [perform, Option.isSome_map]
      exact bounded test state
  | takeTo equality target | takeAll =>
      simp only [perform, Option.isSome_map, takeTo, takeAll, takeUntil]
      exact bounded _ _

/-! ## Operations at the end -/

/-- What an operation gives out when there are no elements. -/
def Operation.nothing : Operation α → Answer α
  | .next => .element none
  | .skip => .done
  | .drop _ => .count 0
  | .take _ | .takeUntilWith _ _ | .takeTo _ _ | .takeAll => .elements #[]

/-- At the end a test is not asked: the answer does not depend on it, and its state stays. -/
theorem takeUntilWith_of_end (rounds : Nat) {τ : Type} (test : τ → α → Bool × τ) (state : τ)
    {cursor : Cursor σ α} (ended : cursor.ahead = none) :
    cursor.takeUntilWith (rounds + 1) test state = some (.ok #[], state, cursor) :=
  foldUntil_of_end test Array.push rounds state #[] ended

theorem takeUntil_of_end (rounds : Nat) (predicate : α → Bool) {cursor : Cursor σ α}
    (ended : cursor.ahead = none) :
    cursor.takeUntil (rounds + 1) predicate = some (.ok #[], cursor) := by
  rw [takeUntil, takeUntilWith_of_end rounds _ () ended, Option.map_some]

/-- At the end every operation gives out nothing and leaves the cursor as it is. -/
theorem perform_of_end (rounds : Nat) (operation : Operation α) {cursor : Cursor σ α}
    (ended : cursor.ahead = none) :
    cursor.perform (rounds + 1) operation = some (.ok operation.nothing, cursor) := by
  cases operation with
  | next => simp only [perform, next_of_end ended, Except.map, Operation.nothing]
  | skip => simp only [perform, skip_eq, next_of_end ended, Except.map, Operation.nothing]
  | drop count => simp only [perform, drop_of_end count ended, Except.map, Operation.nothing]
  | take count =>
      simp only [perform, take, foldTake_of_end _ count _ ended, Except.map, Operation.nothing]
  | takeUntilWith test state =>
      simp only [perform, takeUntilWith_of_end rounds test state ended, Option.map_some, Except.map,
        Operation.nothing]
  | takeTo equality target =>
      simp only [perform, takeTo, takeUntil_of_end rounds _ ended, Option.map_some, Except.map,
        Operation.nothing]
  | takeAll =>
      simp only [perform, takeAll, takeUntil_of_end rounds _ ended, Option.map_some, Except.map,
        Operation.nothing]

/-! ## Runs -/

/-- One cursor is left by a finite run of operations on another.  Operations that fail
are part of the run. -/
inductive Reaches (start : Cursor σ α) : Cursor σ α → Prop where
  | refl : Reaches start start
  | step {cursor after : Cursor σ α} {rounds : Nat} {operation : Operation α}
      {answer : Except ε (Answer α)} (run : Reaches start cursor)
      (performed : cursor.perform rounds operation = some (answer, after)) :
      Reaches start after

/-- A call is an operation that was performed within some number of rounds. -/
def Call (cursor : Cursor σ α) (answer : Except ε (Answer α)) (after : Cursor σ α) : Prop :=
  ∃ (rounds : Nat) (operation : Operation α),
    cursor.perform rounds operation = some (answer, after)

/-- Whatever is called at the end, the cursor stays as it is. -/
theorem Call.of_end {cursor after : Cursor σ α} {answer : Except ε (Answer α)}
    (called : cursor.Call answer after) (ended : cursor.ahead = none) :
    after = cursor ∧ failures answer = 0 := by
  rcases called with ⟨rounds, operation, performed⟩
  have later := perform_of_le (Nat.le_succ rounds) performed
  rw [perform_of_end rounds operation ended] at later
  cases later
  exact ⟨rfl, rfl⟩

/-- Nothing happens any more: operations give out nothing, tests are not asked, and no run
leads away. -/
structure Rests (cursor : Cursor σ α) : Prop where
  perform_eq : ∀ (rounds : Nat) (operation : Operation α),
    cursor.perform (rounds + 1) operation = some (.ok operation.nothing, cursor)
  test_not_asked : ∀ {τ : Type} (rounds : Nat) (test : τ → α → Bool × τ) (state : τ),
    cursor.takeUntilWith (rounds + 1) test state = some (.ok #[], state, cursor)
  run_eq : ∀ {failed : Nat} {later : Cursor σ α}, Run Call cursor failed later →
    later = cursor ∧ failed = 0

theorem rests_of_end {cursor : Cursor σ α} (ended : cursor.ahead = none) : cursor.Rests where
  perform_eq := fun rounds operation => perform_of_end rounds operation ended
  test_not_asked := fun rounds test state => takeUntilWith_of_end rounds test state ended
  run_eq := fun run => run.stays fun _ _ called => called.of_end ended

/-! ## The steps of an operation -/

/-- An operation that has taken so many elements can still ask for another one. -/
def Operation.AsksAfter : Operation α → Nat → Prop
  | .next | .skip => fun taken => taken = 0
  | .drop count | .take count => fun taken => taken < count
  | .takeUntilWith _ _ | .takeTo _ _ | .takeAll => fun _ => True

theorem takeUntilWith_ends {τ : Type} {test : τ → α → Bool × τ} {rounds : Nat} {state last : τ}
    {cursor after : Cursor σ α} {answer : Except ε (Array α)}
    (finished : cursor.takeUntilWith rounds test state = some (answer, last, after)) :
    ∃ taken, Ends (fun _ => True) cursor taken answer after :=
  foldUntil_ends finished

theorem takeUntil_ends {predicate : α → Bool} {rounds : Nat} {cursor after : Cursor σ α}
    {answer : Except ε (Array α)}
    (finished : cursor.takeUntil rounds predicate = some (answer, after)) :
    ∃ taken, Ends (fun _ => True) cursor taken answer after := by
  rcases Option.map_eq_some_iff.mp finished with ⟨⟨inner, last, left⟩, stopped, same⟩
  cases same
  exact takeUntilWith_ends stopped

/-- Every operation is steps of which only the last one can fail. -/
theorem perform_ends {rounds : Nat} {operation : Operation α} {cursor after : Cursor σ α}
    {answer : Except ε (Answer α)}
    (performed : cursor.perform rounds operation = some (answer, after)) :
    ∃ taken, Ends operation.AsksAfter cursor taken answer after := by
  cases operation with
  | next =>
      cases performed
      rcases cursor.next_ends with ⟨taken, ends⟩
      exact ⟨taken, ends.map _⟩
  | skip =>
      cases performed
      rcases cursor.skip_ends with ⟨taken, ends⟩
      exact ⟨taken, ends.map _⟩
  | drop count =>
      cases performed
      rcases cursor.drop_ends count with ⟨taken, ends⟩
      exact ⟨taken, ends.map _⟩
  | take count =>
      cases performed
      rcases foldTake_ends Array.push count #[] cursor with ⟨taken, ends⟩
      exact ⟨taken, ends.map _⟩
  | takeUntilWith test state =>
      rcases Option.map_eq_some_iff.mp performed with ⟨⟨inner, last, left⟩, finished, same⟩
      cases same
      rcases takeUntilWith_ends finished with ⟨taken, ends⟩
      exact ⟨taken, ends.map _⟩
  | takeTo equality target =>
      rcases Option.map_eq_some_iff.mp performed with ⟨⟨inner, left⟩, finished, same⟩
      cases same
      rcases takeUntil_ends finished with ⟨taken, ends⟩
      exact ⟨taken, ends.map _⟩
  | takeAll =>
      rcases Option.map_eq_some_iff.mp performed with ⟨⟨inner, left⟩, finished, same⟩
      cases same
      rcases takeUntil_ends finished with ⟨taken, ends⟩
      exact ⟨taken, ends.map _⟩

/-! ## What is done step by step -/

/-- A relation between two cursors and the number of failures on the way from one to the other.
It holds of single steps, and ways can be put together. -/
structure Stepwise (related : Cursor σ α → Nat → Cursor σ α → Prop) : Prop where
  refl : ∀ cursor, related cursor 0 cursor
  next : ∀ cursor, related cursor (failures cursor.next.1) cursor.next.2
  trans : ∀ {first second third : Cursor σ α} {failed later : Nat},
    related first failed second → related second later third → related first (failed + later) third

namespace Stepwise

/-- What a single step keeps is such a relation, whatever fails. -/
theorem of_kept {property : Cursor σ α → Prop}
    (kept : ∀ cursor, property cursor → property cursor.next.2) :
    Stepwise fun before _ after => property before → property after where
  refl := fun _ holds => holds
  next := kept
  trans := fun start rest holds => rest (start holds)

variable {related : Cursor σ α → Nat → Cursor σ α → Prop}

/-- An operation goes on after a step that did not fail. -/
theorem then_of_ok (stepwise : Stepwise related) {first second third : Cursor σ α} {later : Nat}
    (start : related first 0 second) (rest : related second later third) :
    related first later third := by
  have whole := stepwise.trans start rest
  rwa [Nat.zero_add] at whole

theorem of_next (stepwise : Stepwise related) {cursor after : Cursor σ α}
    {answer : Except ε (Option α)} (stepped : cursor.next = (answer, after)) :
    related cursor (failures answer) after := by
  have single := stepwise.next cursor
  rwa [stepped] at single

theorem of_steps (stepwise : Stepwise related) {cursor after : Cursor σ α} {taken : List α}
    (steps : Steps cursor taken after) : related cursor 0 after := by
  induction steps with
  | refl => exact stepwise.refl _
  | cons stepped _ inductionHypothesis =>
      exact stepwise.then_of_ok (stepwise.of_next stepped) inductionHypothesis

theorem of_ends (stepwise : Stepwise related) {asks : Nat → Prop} {cursor after : Cursor σ α}
    {taken : List α} {answer : Except ε β} (ends : Ends asks cursor taken answer after) :
    related cursor (failures answer) after := by
  cases ends with
  | succeeded steps _ => exact stepwise.of_steps steps
  | failed steps _ stepped =>
      exact stepwise.then_of_ok (stepwise.of_steps steps) (stepwise.of_next stepped)

theorem of_call (stepwise : Stepwise related) {cursor after : Cursor σ α}
    {answer : Except ε (Answer α)} (called : cursor.Call answer after) :
    related cursor (failures answer) after := by
  rcases called with ⟨rounds, operation, performed⟩
  rcases perform_ends performed with ⟨taken, ends⟩
  exact stepwise.of_ends ends

theorem of_run (stepwise : Stepwise related) {start cursor : Cursor σ α} {failed : Nat}
    (run : Run Call start failed cursor) : related start failed cursor := by
  induction run with
  | refl => exact stepwise.refl start
  | step _ called inductionHypothesis =>
      exact stepwise.trans inductionHypothesis (stepwise.of_call called)

end Stepwise

end Cursor
end ForwardCursor
