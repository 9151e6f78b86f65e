import ForwardCursor.Cursor.Basic

namespace ForwardCursor
namespace Cursor

/-!
# Extracting runs of elements

Two families of operations take several elements at once.  The counted ones stop
after a given number of elements or at the end.  The bounded ones stop in front of
the first element that passes a test, which stays ahead of the cursor, or at the
end.

All of them are repetitions of a single step.  A failed step stops the repetition
and is its answer: the elements taken until then are not given out, but they stay
taken, and the element that could not be taken is still ahead.

A bounded operation on an endless source need not stop.  The number of `rounds` limits
how often it looks ahead, where finding the end is one look, and it answers `none` if
that was not enough.  A larger limit changes nothing else.

The elements taken are collected by a `push` of the caller's choice, so that the
same repetitions serve arrays and strings.
-/

variable {σ ε α β τ : Type} [Source σ ε α]

/-! ## Counted operations -/

/-- Pass over `count` elements, or fewer if the end comes first. -/
def advance : Nat → Cursor σ α → Except ε Unit × Cursor σ α
  | 0, cursor => (.ok (), cursor)
  | count + 1, cursor =>
    if cursor.atEnd then (.ok (), cursor)
    else
      match cursor.skip with
      | (.ok (), cursor) => advance count cursor
      | (.error failure, cursor) => (.error failure, cursor)

/-- Pass over `count` elements, or fewer if the end comes first, and tell how many
there were. -/
def drop (count : Nat) (cursor : Cursor σ α) : Except ε Nat × Cursor σ α :=
  let (answer, after) := advance count cursor
  (answer.map fun _ => after.position - cursor.position, after)

/-- Take `count` elements, or fewer if the end comes first, and push them in order. -/
def foldTake (push : β → α → β) : Nat → β → Cursor σ α → Except ε β × Cursor σ α
  | 0, taken, cursor => (.ok taken, cursor)
  | count + 1, taken, cursor =>
    match cursor.next with
    | (.ok (some element), cursor) => foldTake push count (push taken element) cursor
    | (.ok none, cursor) => (.ok taken, cursor)
    | (.error failure, cursor) => (.error failure, cursor)

/-- Take `count` elements, or fewer if the end comes first. -/
def take (count : Nat) (cursor : Cursor σ α) : Except ε (Array α) × Cursor σ α :=
  foldTake Array.push count #[] cursor

/-! ## Bounded operations -/

/-- Take elements and push them in order, until the test accepts the one ahead.

The test has a state of its own, which is threaded through its calls.  It is asked
about each element once, before that element is taken. -/
def foldUntil (test : τ → α → Bool × τ) (push : β → α → β) :
    Nat → τ → β → Cursor σ α → Option (Except ε β × τ × Cursor σ α)
  | 0, _, _, _ => none
  | rounds + 1, state, taken, cursor =>
    match cursor.ahead with
    | none => some (.ok taken, state, cursor)
    | some element =>
      match test state element with
      | (true, state) => some (.ok taken, state, cursor)
      | (false, state) =>
        match cursor.next with
        | (.ok _, cursor) => foldUntil test push rounds state (push taken element) cursor
        | (.error failure, cursor) => some (.error failure, state, cursor)

/-- Take elements until a test with a state accepts the one ahead; the last state is
part of the answer. -/
def takeUntilWith (rounds : Nat) (test : τ → α → Bool × τ) (state : τ)
    (cursor : Cursor σ α) : Option (Except ε (Array α) × τ × Cursor σ α) :=
  foldUntil test Array.push rounds state #[] cursor

/-- Take elements until the one ahead satisfies the predicate. -/
def takeUntil (rounds : Nat) (predicate : α → Bool) (cursor : Cursor σ α) :
    Option (Except ε (Array α) × Cursor σ α) :=
  (cursor.takeUntilWith rounds (fun _ element => (predicate element, ())) ()).map
    fun (answer, _, cursor) => (answer, cursor)

/-- Take elements until the one ahead equals the target.  Equality is the one of the
element type, which need not be reflexive. -/
def takeTo [BEq α] (rounds : Nat) (target : α) (cursor : Cursor σ α) :
    Option (Except ε (Array α) × Cursor σ α) :=
  cursor.takeUntil rounds (· == target)

/-- Take all remaining elements. -/
def takeAll (rounds : Nat) (cursor : Cursor σ α) :
    Option (Except ε (Array α) × Cursor σ α) :=
  cursor.takeUntil rounds fun _ => false

/-! ## One round -/

theorem foldUntil_of_accepted {test : τ → α → Bool × τ} (push : β → α → β) (rounds : Nat)
    {state last : τ} (taken : β) {cursor : Cursor σ α} {element : α}
    (present : cursor.ahead = some element) (accepted : test state element = (true, last)) :
    foldUntil test push (rounds + 1) state taken cursor = some (.ok taken, last, cursor) := by
  simp only [foldUntil, present, accepted]

theorem foldUntil_of_taken {test : τ → α → Bool × τ} (push : β → α → β) (rounds : Nat)
    {state later : τ} (taken : β) {cursor after : Cursor σ α} {element : α} {given : Option α}
    (present : cursor.ahead = some element) (refused : test state element = (false, later))
    (stepped : cursor.next = (.ok given, after)) :
    foldUntil test push (rounds + 1) state taken cursor =
      foldUntil test push rounds later (push taken element) after := by
  simp only [foldUntil, present, refused, stepped]

theorem foldUntil_of_failed {test : τ → α → Bool × τ} (push : β → α → β) (rounds : Nat)
    {state later : τ} (taken : β) {cursor after : Cursor σ α} {element : α} {failure : ε}
    (present : cursor.ahead = some element) (refused : test state element = (false, later))
    (stepped : cursor.next = (.error failure, after)) :
    foldUntil test push (rounds + 1) state taken cursor = some (.error failure, later, after) := by
  simp only [foldUntil, present, refused, stepped]

/-! ## What the end and the limit mean -/

theorem advance_of_end (count : Nat) {cursor : Cursor σ α} (ended : cursor.ahead = none) :
    advance count cursor = (.ok (), cursor) := by
  cases count with
  | zero => rfl
  | succ count => simp [advance, atEnd, ended]

theorem drop_of_end (count : Nat) {cursor : Cursor σ α} (ended : cursor.ahead = none) :
    cursor.drop count = (.ok 0, cursor) := by
  simp [drop, advance_of_end count ended, Except.map]

theorem foldTake_of_end (push : β → α → β) (count : Nat) (taken : β)
    {cursor : Cursor σ α} (ended : cursor.ahead = none) :
    foldTake push count taken cursor = (.ok taken, cursor) := by
  cases count with
  | zero => rfl
  | succ count => simp only [foldTake, next_of_end ended]

/-- At the end the test is not asked, and neither is the source. -/
theorem foldUntil_of_end (test : τ → α → Bool × τ) (push : β → α → β) (rounds : Nat)
    (state : τ) (taken : β) {cursor : Cursor σ α} (ended : cursor.ahead = none) :
    foldUntil test push (rounds + 1) state taken cursor = some (.ok taken, state, cursor) := by
  simp only [foldUntil, ended]

/-- An answer within the limit is the answer for every larger limit. -/
theorem foldUntil_of_le (test : τ → α → Bool × τ) (push : β → α → β)
    {rounds larger : Nat} (enough : rounds ≤ larger) (state : τ) (taken : β)
    (cursor : Cursor σ α) {answer : Except ε β × τ × Cursor σ α}
    (finished : foldUntil test push rounds state taken cursor = some answer) :
    foldUntil test push larger state taken cursor = some answer := by
  induction rounds generalizing larger state taken cursor with
  | zero => simp [foldUntil] at finished
  | succ rounds inductionHypothesis =>
      cases larger with
      | zero => exact absurd enough (Nat.not_succ_le_zero rounds)
      | succ larger =>
          have enough : rounds ≤ larger := Nat.le_of_succ_le_succ enough
          unfold foldUntil at finished ⊢
          split at finished
          · exact finished
          · split at finished
            · exact finished
            · split at finished
              · exact inductionHypothesis enough _ _ _ finished
              · exact finished

end Cursor
end ForwardCursor
