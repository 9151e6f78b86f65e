import ForwardCursor.Cursor.Basic

namespace ForwardCursor

/-!
# Trying again after each failure

A source may fail any number of times between two elements.  A cursor that is asked again after
each failure makes these requests one by one.  Each failure answers a call with the same element
ahead and at the same position, and the first call behind them gives that element out.  No
element is lost or given twice, and the failures keep their places among the elements.

The requests of a cursor are one ahead of its calls.  The failures met while an element is ahead
are therefore those that the source has after this element.
-/

namespace Source

variable {σ ε α : Type} [Source σ ε α]

/-- The first answers are those to as many requests, and the others follow from there. -/
theorem pulls_of_append {source rest : σ} {early late : List (Except ε (Option α))} {count : Nat}
    (pulled : pulls (early.length + count) source = (early ++ late, rest)) :
    ∃ middle, pulls early.length source = (early, middle) ∧ pulls count middle = (late, rest) := by
  rw [pulls_add, Prod.mk.injEq] at pulled
  rcases pulled with ⟨answers, left⟩
  rcases List.append_inj answers (length_pulls early.length source) with ⟨first, second⟩
  exact ⟨_, Prod.ext first rfl, Prod.ext second left⟩

end Source

/-- An element, and the failures between it and the next one or the end. -/
structure Stretch (ε α : Type) where
  element : α
  failures : List ε

/-- A call for the next element: the position and the element ahead when it is made, and the
answer. -/
structure Attempt (ε α : Type) where
  position : Nat
  ahead : Option α
  answer : Except ε (Option α)

namespace Stretch

variable {ε α : Type}

/-- The answers of a source. -/
def answers (stretch : Stretch ε α) : List (Except ε (Option α)) :=
  .ok (some stretch.element) :: stretch.failures.map .error

/-- The calls of a cursor that has the element ahead, up to the one that gives it out. -/
def attempts (position : Nat) (stretch : Stretch ε α) : List (Attempt ε α) :=
  stretch.failures.map (fun failure => ⟨position, some stretch.element, .error failure⟩) ++
    [⟨position, some stretch.element, .ok (some stretch.element)⟩]

/-- The calls over several stretches, of which the first one starts at the position. -/
def attemptsFrom (position : Nat) (stretches : List (Stretch ε α)) : List (Attempt ε α) :=
  (stretches.zipIdx position).flatMap fun (stretch, place) => stretch.attempts place

theorem attemptsFrom_cons (position : Nat) (stretch : Stretch ε α)
    (stretches : List (Stretch ε α)) :
    attemptsFrom position (stretch :: stretches) =
      stretch.attempts position ++ attemptsFrom (position + 1) stretches := by
  simp only [attemptsFrom, List.zipIdx_cons, List.flatMap_cons]

theorem length_attempts (position : Nat) (stretch : Stretch ε α) :
    (stretch.attempts position).length = stretch.failures.length + 1 := by
  simp only [attempts, List.length_append, List.length_map, List.length_singleton]

/-- There is one call for each answer. -/
theorem length_attemptsFrom (position : Nat) (stretches : List (Stretch ε α)) :
    (attemptsFrom position stretches).length = (stretches.flatMap answers).length := by
  induction stretches generalizing position with
  | nil => rfl
  | cons stretch stretches inductionHypothesis =>
      simp only [attemptsFrom_cons, List.length_append, length_attempts, inductionHypothesis,
        List.flatMap_cons, answers, List.length_cons, List.length_map]

/-- Answers up to an end are divided by their elements, with some failures in front. -/
theorem exists_stretches {given : List (Except ε (Option α))} (unended : .ok none ∉ given) :
    ∃ (failures : List ε) (stretches : List (Stretch ε α)),
      given = failures.map .error ++ stretches.flatMap answers := by
  induction given with
  | nil => exact ⟨[], [], rfl⟩
  | cons answer given inductionHypothesis =>
      rw [List.mem_cons, not_or] at unended
      rcases inductionHypothesis unended.2 with ⟨failures, stretches, rfl⟩
      match answer with
      | .error failure => exact ⟨failure :: failures, stretches, rfl⟩
      | .ok (some element) => exact ⟨[], ⟨element, failures⟩ :: stretches, rfl⟩
      | .ok none => exact absurd rfl unended.1

/-! ## Requests over stretches -/

section Requests

variable {σ : Type} [Source σ ε α] {source rest : σ} {stretch : Stretch ε α}
  {stretches : List (Stretch ε α)}

/-- The first request does not fail. -/
theorem pull_of_pulls
    (pulled : Source.pulls ((stretches.flatMap answers).length + 1) source =
      (stretches.flatMap answers ++ [.ok none], rest)) :
    ∃ ahead next, Source.pull source = (.ok ahead, next) := by
  rcases asked : Source.pull source with ⟨answer, next⟩
  have opened := congrArg Prod.fst pulled
  rw [Source.pulls_succ, asked] at opened
  cases stretches with
  | nil =>
      cases (List.cons.inj opened).1
      exact ⟨none, next, rfl⟩
  | cons stretch stretches =>
      cases (List.cons.inj opened).1
      exact ⟨some stretch.element, next, rfl⟩

/-- If the request for its element has been made, the failures of a stretch are what comes next,
and then the other stretches. -/
theorem pulls_of_cons {next : σ} {ahead : Option α}
    (shown : Source.pull source = (.ok ahead, next))
    (pulled : Source.pulls (((stretch :: stretches).flatMap answers).length + 1) source =
      ((stretch :: stretches).flatMap answers ++ [.ok none], rest)) :
    ahead = some stretch.element ∧
      ∃ middle,
        Source.pulls stretch.failures.length next = (stretch.failures.map .error, middle) ∧
        Source.pulls ((stretches.flatMap answers).length + 1) middle =
          (stretches.flatMap answers ++ [.ok none], rest) := by
  have count : ((stretch :: stretches).flatMap answers).length =
      (stretch.failures.map (Except.error : ε → Except ε (Option α))).length +
        ((stretches.flatMap answers).length + 1) := by
    rw [List.flatMap_cons, List.length_append, answers, List.length_cons]
    omega
  rw [count, Source.pulls_succ, shown, List.flatMap_cons, answers, List.cons_append,
    List.cons_append, Prod.mk.injEq, List.cons.injEq, Except.ok.injEq, List.append_assoc] at pulled
  rcases pulled with ⟨⟨present, others⟩, left⟩
  rcases Source.pulls_of_append (Prod.ext others left) with ⟨middle, failed, further⟩
  rw [List.length_map] at failed
  exact ⟨present, middle, failed, further⟩

end Requests

end Stretch

namespace Cursor

open Stretch (attemptsFrom)

variable {σ ε α : Type} [Source σ ε α]

/-- Ask for the next element so many times, whatever the answers are. -/
def attempts : Nat → Cursor σ α → List (Attempt ε α) × Cursor σ α
  | 0, cursor => ([], cursor)
  | count + 1, cursor =>
    let (answer, next) := cursor.next
    let (later, after) := attempts count next
    (⟨cursor.position, cursor.ahead, answer⟩ :: later, after)

theorem attempts_zero (cursor : Cursor σ α) : attempts 0 cursor = ([], cursor) := rfl

theorem attempts_succ (count : Nat) (cursor : Cursor σ α) :
    attempts (count + 1) cursor =
      (⟨cursor.position, cursor.ahead, cursor.next.1⟩ :: (attempts count cursor.next.2).1,
        (attempts count cursor.next.2).2) := rfl

theorem attempts_add (first second : Nat) (cursor : Cursor σ α) :
    attempts (first + second) cursor =
      ((attempts first cursor).1 ++ (attempts second (attempts first cursor).2).1,
        (attempts second (attempts first cursor).2).2) := by
  induction first generalizing cursor with
  | zero => simp only [Nat.zero_add, attempts_zero, List.nil_append]
  | succ first inductionHypothesis =>
      rw [Nat.succ_add, attempts_succ, inductionHypothesis, attempts_succ, List.cons_append]

/-! ## While an element is ahead -/

theorem attempts_of_failures {cursor : Cursor σ α} {element : α}
    (present : cursor.ahead = some element) {failures : List ε} {rest : σ}
    (failed : Source.pulls failures.length cursor.source = (failures.map .error, rest)) :
    cursor.attempts failures.length =
      (failures.map (fun failure => ⟨cursor.position, some element, .error failure⟩),
        { cursor with source := rest }) := by
  induction failures generalizing cursor with
  | nil =>
      cases failed
      rfl
  | cons failure failures inductionHypothesis =>
      rcases asked : Source.pull cursor.source with ⟨answer, next⟩
      rw [List.length_cons, Source.pulls_succ, asked, List.map_cons, Prod.mk.injEq,
        List.cons.injEq] at failed
      rcases failed with ⟨⟨rfl, others⟩, left⟩
      have kept : ({ cursor with source := next } : Cursor σ α).ahead = some element := present
      have later := inductionHypothesis kept (Prod.ext others left)
      rw [List.length_cons, attempts_succ, next_of_error present asked, later, List.map_cons, present]

/-- The calls for an element end with the first request that does not fail. -/
theorem attempts_of_stretch {cursor : Cursor σ α} {stretch : Stretch ε α}
    (present : cursor.ahead = some stretch.element) {middle rest : σ} {ahead : Option α}
    (failed : Source.pulls stretch.failures.length cursor.source =
      (stretch.failures.map .error, middle))
    (given : Source.pull middle = (.ok ahead, rest)) :
    cursor.attempts (stretch.failures.length + 1) =
      (stretch.attempts cursor.position, ⟨rest, ahead, cursor.position + 1⟩) := by
  have kept : ({ cursor with source := middle } : Cursor σ α).ahead = some stretch.element := present
  rw [attempts_add, attempts_of_failures present failed, attempts_succ, next_of_ok kept given,
    attempts_zero, kept, Stretch.attempts]

/-! ## Up to the end -/

/-- The cursor shows the answer to a request that has been made already, so the requests start
there. -/
theorem attempts_of_stretches {source rest : σ} {cursor : Cursor σ α}
    {stretches : List (Stretch ε α)}
    (shown : Source.pull source = (.ok cursor.ahead, cursor.source))
    (pulled : Source.pulls ((stretches.flatMap Stretch.answers).length + 1) source =
      (stretches.flatMap Stretch.answers ++ [.ok none], rest)) :
    cursor.attempts ((attemptsFrom cursor.position stretches).length + 1) =
      (attemptsFrom cursor.position stretches ++
          [⟨cursor.position + stretches.length, none, .ok none⟩],
        ⟨rest, none, cursor.position + stretches.length⟩) := by
  induction stretches generalizing source cursor with
  | nil =>
      rw [List.flatMap_nil, List.length_nil, Source.pulls_succ, shown, Source.pulls_zero,
        List.nil_append, Prod.mk.injEq, List.cons.injEq, Except.ok.injEq] at pulled
      rcases pulled with ⟨⟨ended, _⟩, rfl⟩
      rcases cursor with ⟨source, ahead, position⟩
      cases ended
      rfl
  | cons stretch stretches inductionHypothesis =>
      rcases Stretch.pulls_of_cons shown pulled with ⟨present, middle, failed, further⟩
      rcases Stretch.pull_of_pulls further with ⟨ahead, next, asked⟩
      have first := attempts_of_stretch present failed asked
      have onwards := @inductionHypothesis middle ⟨next, ahead, cursor.position + 1⟩ asked further
      rw [Stretch.attemptsFrom_cons, List.length_append, Stretch.length_attempts, Nat.add_assoc,
        attempts_add, first, onwards, List.append_assoc, List.length_cons, Nat.add_assoc,
        Nat.add_comm 1]

/-- If a source has failures among its elements, a cursor over it has them in the same places. -/
theorem exists_attempts {source rest : σ} {given : List (Except ε (Option α))}
    (unended : .ok none ∉ given)
    (pulled : Source.pulls (given.length + 1) source = (given ++ [.ok none], rest))
    {start : Cursor σ α} (started : ofSource source = .ok start) :
    ∃ stretches : List (Stretch ε α), given = stretches.flatMap Stretch.answers ∧
      start.attempts (given.length + 1) =
        (attemptsFrom 0 stretches ++ [⟨stretches.length, none, .ok none⟩],
          ⟨rest, none, stretches.length⟩) := by
  rcases eq_of_started started with ⟨shown, zero⟩
  rcases Stretch.exists_stretches unended with ⟨failures, stretches, divided⟩
  cases failures with
  | cons failure failures =>
      have first := congrArg Prod.fst pulled
      rw [Source.pulls_succ, shown, divided, List.map_cons, List.cons_append, List.cons_append] at first
      cases (List.cons.inj first).1
  | nil =>
      rw [List.map_nil, List.nil_append] at divided
      rw [divided] at pulled
      have called := attempts_of_stretches shown pulled
      rw [zero, Nat.zero_add, Stretch.length_attemptsFrom, ← divided] at called
      exact ⟨stretches, divided, called⟩

end Cursor
end ForwardCursor
