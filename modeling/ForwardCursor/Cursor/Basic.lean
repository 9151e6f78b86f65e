import ForwardCursor.Source.Basic

namespace ForwardCursor

/-!
# Cursors

A cursor traverses a source forwards and shows the next element before it is
taken.  It stands between two elements: `ahead` is the one after it and `position`
counts the ones before it.

The element ahead has already been asked of the source, so a cursor is always one
request in advance of its position.  Taking an element asks for its successor
first.  If that request fails, the cursor keeps both its element and its position,
and the failure is passed on unchanged; only the source has moved.

The end is not a failure.  It is reached at the first report of no elements, and it
is final: a cursor at its end makes no further request, even of a source that would
have elements again.
-/

/-- A source, the element that was last asked of it, and the number of elements
taken.  There is no element ahead exactly when the end has been reached. -/
structure Cursor (σ α : Type) where
  source : σ
  ahead : Option α
  position : Nat

namespace Cursor

variable {σ ε α : Type} [Source σ ε α]

/-- Start a cursor by asking for the first element.  A failure of that request is
returned with the source, which has then given no element. -/
def ofSource (source : σ) : Except (ε × σ) (Cursor σ α) :=
  match Source.pull source with
  | (.ok ahead, source) => .ok ⟨source, ahead, 0⟩
  | (.error failure, source) => .error (failure, source)

/-- Start a cursor over a source that cannot fail. -/
def ofSequence [Source σ Empty α] (source : σ) : Cursor σ α :=
  match ofSource source with
  | .ok cursor => cursor
  | .error (failure, _) => nomatch failure

/-- Whether the end has been reached. -/
def atEnd (cursor : Cursor σ α) : Bool := cursor.ahead.isNone

/-- Take the next element, or nothing at the end. -/
def next (cursor : Cursor σ α) : Except ε (Option α) × Cursor σ α :=
  match cursor.ahead with
  | none => (.ok none, cursor)
  | some element =>
    match Source.pull cursor.source with
    | (.ok ahead, source) => (.ok (some element), ⟨source, ahead, cursor.position + 1⟩)
    | (.error failure, source) => (.error failure, { cursor with source })

/-- Pass over the next element, if there is one. -/
def skip (cursor : Cursor σ α) : Except ε Unit × Cursor σ α :=
  let (answer, cursor) := cursor.next
  (answer.map fun _ => (), cursor)

/-! ## The three ways of a single step -/

theorem atEnd_iff (cursor : Cursor σ α) : cursor.atEnd = true ↔ cursor.ahead = none :=
  Option.isNone_iff_eq_none

/-- At the end nothing happens, and in particular the source is left alone. -/
theorem next_of_end {cursor : Cursor σ α} (ended : cursor.ahead = none) :
    cursor.next = (.ok none, cursor) := by
  simp only [next, ended]

theorem next_of_ok {cursor : Cursor σ α} {element : α} {ahead : Option α} {rest : σ}
    (present : cursor.ahead = some element)
    (given : Source.pull cursor.source = (.ok ahead, rest)) :
    cursor.next = (.ok (some element), ⟨rest, ahead, cursor.position + 1⟩) := by
  simp only [next, present, given]

/-- A failed step moves the source and nothing else. -/
theorem next_of_error {cursor : Cursor σ α} {element : α} {failure : ε} {rest : σ}
    (present : cursor.ahead = some element)
    (failed : Source.pull cursor.source = (.error failure, rest)) :
    cursor.next = (.error failure, { cursor with source := rest }) := by
  simp only [next, present, failed]

theorem ofSource_of_ok {source rest : σ} {ahead : Option α}
    (given : Source.pull source = (.ok ahead, rest)) :
    ofSource source = .ok ⟨rest, ahead, 0⟩ := by
  simp only [ofSource, given]

theorem ofSource_of_error {source rest : σ} {failure : ε}
    (failed : Source.pull source = (.error failure, rest)) :
    ofSource (α := α) source = .error (failure, rest) := by
  simp only [ofSource, failed]

/-- A cursor that was started shows the answer to the first request. -/
theorem eq_of_started {source : σ} {start : Cursor σ α} (started : ofSource source = .ok start) :
    Source.pull source = (.ok start.ahead, start.source) ∧ start.position = 0 := by
  cases asked : Source.pull source with
  | mk answer rest =>
      cases answer with
      | ok ahead =>
          rw [ofSource_of_ok asked] at started
          cases started
          exact ⟨rfl, rfl⟩
      | error failure =>
          rw [ofSource_of_error asked] at started
          cases started

/-- A cursor that was not started passes the failure of that request on. -/
theorem pull_of_refused {source left : σ} {failure : ε}
    (refused : ofSource (α := α) source = .error (failure, left)) :
    Source.pull source = (.error failure, left) := by
  cases asked : Source.pull source with
  | mk answer rest =>
      cases answer with
      | ok ahead =>
          rw [ofSource_of_ok asked] at refused
          cases refused
      | error failure =>
          rw [ofSource_of_error asked] at refused
          cases refused
          rfl

theorem skip_eq (cursor : Cursor σ α) :
    cursor.skip = (cursor.next.1.map fun _ => (), cursor.next.2) := rfl

/-- Every step ends in one of the three ways above. -/
theorem next_cases (cursor : Cursor σ α) :
    (cursor.ahead = none ∧ cursor.next = (.ok none, cursor)) ∨
    (∃ element ahead rest, cursor.ahead = some element ∧
      Source.pull cursor.source = (.ok ahead, rest) ∧
      cursor.next = (.ok (some element), ⟨rest, ahead, cursor.position + 1⟩)) ∨
    (∃ element failure rest, cursor.ahead = some element ∧
      Source.pull cursor.source = (.error failure, rest) ∧
      cursor.next = (.error failure, { cursor with source := rest })) := by
  match present : cursor.ahead with
  | none => exact Or.inl ⟨rfl, next_of_end present⟩
  | some element =>
      cases asked : Source.pull cursor.source with
      | mk answer rest =>
          cases answer with
          | ok ahead =>
              exact Or.inr (Or.inl ⟨element, ahead, rest, rfl, rfl, next_of_ok present asked⟩)
          | error failure =>
              exact Or.inr (Or.inr
                ⟨element, failure, rest, rfl, rfl, present ▸ next_of_error present asked⟩)

end Cursor

end ForwardCursor
