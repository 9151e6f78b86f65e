import ForwardCursor.Proofs.Cursor.Operation
import ForwardCursor.Proofs.Cursor.Traversal
import ForwardCursor.Source.Sequence

namespace ForwardCursor

/-!
# Cursors over finite sources that may fail

A source is finite if it reports after finitely many requests that there are no elements.
What it gives until then is a list of elements, and some of the requests may fail.  Where
the failures fall is left open, and so is what the source would answer after its end.

A step of a cursor over such a source takes the first of the elements remaining, or it
meets one of the failures and takes nothing.  Both are finite in number, so whoever goes
on after each failure gets to the end.
-/

namespace Source

variable {σ ε α : Type} [Source σ ε α]

/-- The source gives these elements and then reports its end, and as many requests fail
before that. -/
inductive Yields : σ → List α → Nat → Prop where
  | ended {source rest : σ} (answered : pull source = (.ok none, rest)) : Yields source [] 0
  | given {source rest : σ} {element : α} {elements : List α} {failures : Nat}
      (answered : pull source = (.ok (some element), rest)) (later : Yields rest elements failures) :
      Yields source (element :: elements) failures
  | failed {source rest : σ} {failure : ε} {elements : List α} {failures : Nat}
      (answered : pull source = (.error failure, rest)) (later : Yields rest elements failures) :
      Yields source elements (failures + 1)

theorem Yields.elements_eq {source : σ} {elements : List α} {failures : Nat}
    (yields : Yields source elements failures) :
    Source.elements source = Stream'.Seq.ofList elements := by
  induction yields with
  | ended answered => rw [elements_of_none answered, Stream'.Seq.ofList_nil]
  | given answered _ inductionHypothesis =>
      rw [elements_of_element answered, inductionHypothesis, Stream'.Seq.ofList_cons]
  | failed answered _ inductionHypothesis =>
      rw [elements_of_error answered, inductionHypothesis]

/-- A request that fails uses up one of the failures and nothing else. -/
theorem Yields.of_error {source rest : σ} {failure : ε} {elements : List α} {failures : Nat}
    (yields : Yields source elements failures) (answered : pull source = (.error failure, rest)) :
    ∃ later, Yields rest elements later ∧ failures = later + 1 := by
  cases yields with
  | ended ended => cases answered.symm.trans ended
  | given given _ => cases answered.symm.trans given
  | failed failed later =>
      cases answered.symm.trans failed
      exact ⟨_, later, rfl⟩

/-- A list gives its elements without a failure. -/
theorem yields_list (elements : List α) : Yields elements elements 0 := by
  induction elements with
  | nil => exact .ended pull_nil
  | cons head tail inductionHypothesis => exact .given (pull_cons head tail) inductionHypothesis

end Source

namespace Cursor

variable {σ ε α β : Type} [Source σ ε α]

/-- These are the elements that have not been taken, and as many requests will fail before
the end.  The first of the elements is ahead of the cursor. -/
inductive Yields (cursor : Cursor σ α) : List α → Nat → Prop where
  | ended (absent : cursor.ahead = none) : Yields cursor [] 0
  | present {element : α} {elements : List α} {failures : Nat}
      (ahead : cursor.ahead = some element) (later : Source.Yields cursor.source elements failures) :
      Yields cursor (element :: elements) failures

namespace Yields

theorem ahead_eq {cursor : Cursor σ α} {elements : List α} {failures : Nat}
    (yields : cursor.Yields elements failures) : cursor.ahead = elements.head? := by
  cases yields with
  | ended absent => exact absent
  | present ahead _ => exact ahead

theorem remaining_eq {cursor : Cursor σ α} {elements : List α} {failures : Nat}
    (yields : cursor.Yields elements failures) :
    cursor.remaining = Stream'.Seq.ofList elements := by
  cases yields with
  | ended absent => rw [remaining_of_end absent, Stream'.Seq.ofList_nil]
  | present ahead later =>
      rw [remaining_of_ahead ahead, later.elements_eq, Stream'.Seq.ofList_cons]

end Yields

/-- A successful request decides what is ahead, and nothing is lost by it. -/
theorem yields_of_pull {source rest : σ} {ahead : Option α} {elements : List α} {failures : Nat}
    (position : Nat) (answered : Source.pull source = (.ok ahead, rest))
    (yields : Source.Yields source elements failures) :
    (Cursor.mk rest ahead position).Yields elements failures := by
  cases yields with
  | ended ended =>
      cases answered.symm.trans ended
      exact .ended rfl
  | given given later =>
      cases answered.symm.trans given
      exact .present rfl later
  | failed failed _ => cases answered.symm.trans failed

theorem yields_ofSource {source : σ} {start : Cursor σ α} {elements : List α} {failures : Nat}
    (started : ofSource source = .ok start) (yields : Source.Yields source elements failures) :
    start.Yields elements failures := by
  rcases start with ⟨rest, ahead, position⟩
  exact yields_of_pull position (eq_of_started started).1 yields

theorem yields_ofSequence (elements : List α) : (ofSequence elements).Yields elements 0 := by
  cases elements with
  | nil => exact .ended rfl
  | cons head tail => exact .present rfl (Source.yields_list tail)

/-! ## Single steps -/

theorem next_yields {cursor : Cursor σ α} {element : α} {elements : List α} {failures : Nat}
    (yields : cursor.Yields (element :: elements) failures) :
    (∃ after, cursor.next = (.ok (some element), after) ∧ after.Yields elements failures ∧
      after.position = cursor.position + 1) ∨
    (∃ failure after later, cursor.next = (.error failure, after) ∧
      after.Yields (element :: elements) later ∧ after.position = cursor.position ∧
      failures = later + 1) := by
  cases yields with
  | present ahead yields =>
      cases asked : Source.pull cursor.source with
      | mk answer rest =>
          cases answer with
          | ok next =>
              exact Or.inl ⟨_, next_of_ok ahead asked, yields_of_pull _ asked yields, rfl⟩
          | error failure =>
              rcases yields.of_error asked with ⟨later, left, fewer⟩
              have kept : ({ cursor with source := rest } : Cursor σ α).ahead = some element := ahead
              exact Or.inr ⟨failure, _, later, next_of_error ahead asked, .present kept left, rfl,
                fewer⟩

/-- Some of the elements have been taken since the position was `start`, and the others
remain. -/
def Within (elements : List α) (failures start : Nat) (cursor : Cursor σ α) : Prop :=
  ∃ taken left later, elements = taken ++ left ∧ cursor.position = start + taken.length ∧
    cursor.Yields left later ∧ later ≤ failures

/-- No step leads a cursor out of its finite source. -/
theorem stepwise_within (elements : List α) (failures start : Nat) :
    Stepwise fun (before : Cursor σ α) _ after =>
      before.Within elements failures start → after.Within elements failures start := by
  apply Stepwise.of_kept
  rintro cursor ⟨taken, left, later, whole, counted, yields, fewer⟩
  cases left with
  | nil =>
      rw [next_of_end yields.ahead_eq]
      exact ⟨taken, [], later, whole, counted, yields, fewer⟩
  | cons element left =>
      rcases next_yields yields with ⟨after, stepped, remains, moved⟩ |
        ⟨failure, after, further, stepped, remains, stays, rfl⟩
      · rw [stepped]
        refine ⟨taken ++ [element], left, later, ?_, ?_, remains, fewer⟩
        · rw [whole, List.append_assoc, List.singleton_append]
        · rw [moved, counted, List.length_append, List.length_singleton, Nat.add_assoc]
      · rw [stepped]
        exact ⟨taken, element :: left, further, whole, stays.trans counted, remains,
          Nat.le_of_succ_le fewer⟩

/-! ## Bounded operations -/

/-- Steps take the first elements and meet no failure. -/
theorem Yields.of_steps {cursor after : Cursor σ α} {taken elements : List α} {failures : Nat}
    (yields : cursor.Yields elements failures) (steps : Steps cursor taken after) :
    ∃ left, elements = taken ++ left ∧ after.Yields left failures := by
  induction steps generalizing elements failures with
  | refl => exact ⟨elements, rfl, yields⟩
  | cons stepped _ inductionHypothesis =>
      cases elements with
      | nil => cases (pull_of_next_some stepped).1.symm.trans yields.ahead_eq
      | cons element elements =>
          rcases next_yields yields with ⟨next, given, remains, _⟩ | ⟨_, _, _, refused, _⟩
          · cases stepped.symm.trans given
            rcases inductionHypothesis remains with ⟨left, rfl, later⟩
            exact ⟨left, rfl, later⟩
          · cases stepped.symm.trans refused

/-- Whatever the test, a bounded operation comes to an end: each round takes an element, or it is
the last one. -/
theorem isSome_foldUntil {τ : Type} (test : τ → α → Bool × τ) (push : β → α → β) {rounds : Nat}
    (state : τ) (taken : β) {cursor : Cursor σ α} {elements : List α} {failures : Nat}
    (yields : cursor.Yields elements failures) (enough : elements.length < rounds) :
    (foldUntil test push rounds state taken cursor).isSome = true := by
  apply isSome_foldUntil_of_bound
  intro run after steps
  rcases yields.of_steps steps with ⟨left, rfl, _⟩
  rw [List.length_append] at enough
  exact Nat.lt_of_le_of_lt (Nat.le_add_right _ _) enough

/-- A run that the predicate refuses, in front of an element that satisfies it or of nothing. -/
theorem takeWhile_refused {predicate : α → Bool} {run left : List α}
    (refused : ∀ element ∈ run, predicate element = false)
    (stops : ∀ element, left.head? = some element → predicate element = true) :
    (run ++ left).takeWhile (fun element => !predicate element) = run ∧
      (run ++ left).dropWhile (fun element => !predicate element) = left := by
  have passed : ∀ element ∈ run, (!predicate element) = true := by
    intro element member
    rw [refused element member]
    rfl
  rw [List.takeWhile_append_of_pos passed, List.dropWhile_append_of_pos passed]
  cases left with
  | nil => exact ⟨List.append_nil run, rfl⟩
  | cons first left =>
      simp only [List.takeWhile_cons, List.dropWhile_cons, stops first rfl, Bool.not_true,
        Bool.false_eq_true, if_false, List.append_nil, and_self]

/-- A bounded operation stops in front of the first element that satisfies the predicate, or
it meets a failure.  A failure loses a run of elements that do not satisfy the predicate,
and never the last element. -/
theorem foldUntil_yields (predicate : α → Bool) (push : β → α → β) {rounds : Nat} (taken : β)
    {cursor : Cursor σ α} {elements : List α} {failures : Nat}
    (yields : cursor.Yields elements failures) (enough : elements.length < rounds) :
    let run := elements.takeWhile fun element => !predicate element
    (∃ after, foldUntil (fun _ element => (predicate element, ())) push rounds () taken cursor =
        some (.ok (run.foldl push taken), (), after) ∧
      after.Yields (elements.dropWhile fun element => !predicate element) failures ∧
      after.position = cursor.position + run.length) ∨
    (∃ failure after lost left later,
      foldUntil (fun _ element => (predicate element, ())) push rounds () taken cursor =
        some (.error failure, (), after) ∧
      elements = lost ++ left ∧ left ≠ [] ∧ (∀ element ∈ lost, predicate element = false) ∧
      after.Yields left later ∧ failures = later + 1) := by
  intro run
  have answered := isSome_foldUntil (fun _ element => (predicate element, ())) push () taken yields
    enough
  rcases Option.isSome_iff_exists.mp answered with ⟨⟨answer, last, after⟩, finished⟩
  rcases foldUntil_stops finished with ⟨passed, _, result, _, stops, rfl⟩
  rcases stops_predicate stops with
    ⟨refused, ⟨rfl, steps, accepted⟩ | ⟨failure, element, stopped, rfl, steps, present, stepped⟩⟩
  · rcases yields.of_steps steps with ⟨left, rfl, remains⟩
    rw [remains.ahead_eq] at accepted
    rcases takeWhile_refused refused accepted with ⟨front, back⟩
    have whole : run = passed := front
    rw [back, whole]
    exact Or.inl ⟨after, finished, remains, steps.position_eq⟩
  · rcases yields.of_steps steps with ⟨left, rfl, remains⟩
    cases left with
    | nil => cases present.symm.trans remains.ahead_eq
    | cons first left =>
        rcases next_yields remains with ⟨_, given, _⟩ | ⟨_, _, later, failed, kept, _, fewer⟩
        · cases stepped.symm.trans given
        · cases stepped.symm.trans failed
          exact Or.inr ⟨failure, after, passed, first :: left, later, finished, rfl,
            List.cons_ne_nil _ _, refused, kept, fewer⟩

end Cursor
end ForwardCursor
