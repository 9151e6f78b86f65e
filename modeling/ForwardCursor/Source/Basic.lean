namespace ForwardCursor

/-!
# Sources

A source is whatever a cursor can traverse: a value that answers one request at a
time.  An answer is an element, the report that there is none, or a failure, and
the source left behind by the request is part of the answer in all three cases.

Nothing else is required.  A source may be endless, it may have elements again
after it reported none, and a failure does not end it.  What a cursor makes of such
sources is decided by the cursor.
-/

/-- A producer of elements of type `α`, whose failures are of type `ε`. -/
class Source (σ : Type) (ε α : outParam Type) where
  /-- Answer one request, together with the source that the request leaves. -/
  pull : σ → Except ε (Option α) × σ

namespace Source

variable {σ ε α : Type} [Source σ ε α]

/-- The answers to `count` requests in a row, whatever each of them is. -/
def pulls : Nat → σ → List (Except ε (Option α)) × σ
  | 0, source => ([], source)
  | count + 1, source =>
    let (answer, rest) := pull source
    let (answers, rest) := pulls count rest
    (answer :: answers, rest)

theorem pulls_zero (source : σ) : pulls 0 source = ([], source) := rfl

theorem pulls_succ (count : Nat) (source : σ) :
    pulls (count + 1) source =
      ((pull source).1 :: (pulls count (pull source).2).1,
        (pulls count (pull source).2).2) := rfl

@[simp]
theorem length_pulls (count : Nat) (source : σ) :
    (pulls count source).1.length = count := by
  induction count generalizing source with
  | zero => rfl
  | succ count inductionHypothesis =>
      rw [pulls_succ, List.length_cons, inductionHypothesis]

/-- Requests can be made in two lots: the second starts where the first stopped. -/
theorem pulls_add (first second : Nat) (source : σ) :
    pulls (first + second) source =
      ((pulls first source).1 ++ (pulls second (pulls first source).2).1,
        (pulls second (pulls first source).2).2) := by
  induction first generalizing source with
  | zero => simp [pulls_zero]
  | succ first inductionHypothesis =>
      rw [Nat.succ_add, pulls_succ, inductionHypothesis, pulls_succ]
      rfl

end Source

/-- A source together with the number of requests made of it so far. -/
structure Counted (σ : Type) where
  source : σ
  pulls : Nat := 0

namespace Counted

variable {σ ε α : Type} [Source σ ε α]

instance : Source (Counted σ) ε α where
  pull counted :=
    let (answer, source) := Source.pull counted.source
    (answer, ⟨source, counted.pulls + 1⟩)

@[simp]
theorem pull_pulls (counted : Counted σ) :
    (Source.pull counted).2.pulls = counted.pulls + 1 := rfl

end Counted

/-- A source that is lent for a while.  Requests are passed on to it, and it is given back as
they left it. -/
structure Borrowed (σ : Type) where
  source : σ

namespace Borrowed

variable {σ ε α : Type} [Source σ ε α]

instance : Source (Borrowed σ) ε α where
  pull borrowed :=
    let (answer, source) := Source.pull borrowed.source
    (answer, ⟨source⟩)

theorem pull_eq (source : σ) :
    Source.pull (Borrowed.mk source) = ((Source.pull source).1, ⟨(Source.pull source).2⟩) := rfl

/-- Whoever asks a borrowed source has the answers of the source itself. -/
theorem pulls_eq (count : Nat) (source : σ) :
    Source.pulls count (Borrowed.mk source) =
      ((Source.pulls count source).1, ⟨(Source.pulls count source).2⟩) := by
  induction count generalizing source with
  | zero => rfl
  | succ count inductionHypothesis =>
      rw [Source.pulls_succ, pull_eq, inductionHypothesis, Source.pulls_succ]

end Borrowed

end ForwardCursor
