import ForwardCursor.Proofs.Cursor.Abreast
import ForwardCursor.Proofs.Cursor.IndexedList
import ForwardCursor.Proofs.Source.Turns

namespace ForwardCursor

/-!
# What a failure leaves behind

Suppose that the next requests of a source succeed a number of times and that the one after
them fails.  An operation on a cursor over this source either makes do with the requests that
succeed, or it runs into the failure.  Then the failure is its answer and its last request,
and the cursor is where as many steps take it.

What comes afterwards does not depend on the failed request.  To say so, the failure is taken
out: a source that gives the answers in front of it and then goes on behind it has never
failed, and steps over this source lead to a cursor that shows the same from then on.
-/

/-- A source that has some answers to give before those of another one. -/
structure Preceded (σ α : Type) where
  first : List (Option α)
  source : σ

namespace Preceded

variable {σ ε α : Type} [Source σ ε α]

instance : Source (Preceded σ α) ε α where
  pull
    | ⟨ahead :: first, source⟩ => (.ok ahead, ⟨first, source⟩)
    | ⟨[], source⟩ =>
      let (answer, rest) := Source.pull source
      (answer, ⟨[], rest⟩)

theorem pull_cons (ahead : Option α) (first : List (Option α)) (source : σ) :
    Source.pull (Preceded.mk (ahead :: first) source) = (.ok ahead, ⟨first, source⟩) := rfl

/-- All answers of its own have been given. -/
def Exhausted (source : σ) (preceded : Preceded σ α) : Prop := preceded = ⟨[], source⟩

theorem answerAlike :
    Source.AnswerAlike (Eq : ε → ε → Prop) (Exhausted : σ → Preceded σ α → Prop) := by
  rintro source _ rfl
  exact ⟨alike_rfl _, rfl⟩

end Preceded

namespace Source

variable {σ ε α : Type} [Source σ ε α]

/-- The source gives these answers, and the request after them fails. -/
inductive Breaks : σ → List (Option α) → ε → σ → Prop where
  | now {source rest : σ} {failure : ε} (failed : pull source = (.error failure, rest)) :
      Breaks source [] failure rest
  | later {source next rest : σ} {ahead : Option α} {given : List (Option α)} {failure : ε}
      (answered : pull source = (.ok ahead, next)) (breaks : Breaks next given failure rest) :
      Breaks source (ahead :: given) failure rest

theorem breaks_of_pulls {source rest : σ} {given : List (Option α)} {failure : ε}
    (answers : pulls (given.length + 1) source = (given.map .ok ++ [.error failure], rest)) :
    Breaks source given failure rest := by
  induction given generalizing source with
  | nil =>
      rw [pulls_succ] at answers
      rcases asked : pull source with ⟨answer, after⟩
      rw [asked] at answers
      cases answers
      exact .now asked
  | cons ahead given inductionHypothesis =>
      rw [List.length_cons, pulls_succ] at answers
      rcases asked : pull source with ⟨answer, next⟩
      rw [asked, Prod.mk.injEq, List.map_cons, List.cons_append, List.cons.injEq] at answers
      rcases answers with ⟨⟨rfl, others⟩, left⟩
      exact .later asked (inductionHypothesis (Prod.ext others left))

theorem Breaks.pulls_eq {source rest : σ} {given : List (Option α)} {failure : ε}
    (breaks : Breaks source given failure rest) :
    pulls (given.length + 1) source = (given.map .ok ++ [.error failure], rest) := by
  induction breaks with
  | now failed => rw [List.length_nil, pulls_succ, failed, pulls_zero, List.map_nil, List.nil_append]
  | later answered _ inductionHypothesis =>
      rw [List.length_cons, pulls_succ, answered, inductionHypothesis, List.map_cons,
        List.cons_append]

end Source

namespace Cursor

variable {σ ε α β : Type} [Source σ ε α]

/-- The same place over a source that gives these answers and goes on with that rest, so that it
is spared the failure between them. -/
def spared (cursor : Cursor σ α) (given : List (Option α)) (rest : σ) : Cursor (Preceded σ α) α :=
  ⟨⟨given, rest⟩, cursor.ahead, cursor.position⟩

/-- A step that succeeds makes one of the requests in front of the failure.  Without the failure
it is the same step. -/
theorem Steps.of_breaks {cursor stopped : Cursor σ α} {taken : List α} {given : List (Option α)}
    {failure : ε} {rest : σ} (steps : Steps cursor taken stopped)
    (breaks : Source.Breaks cursor.source given failure rest) :
    ∃ earlier later, given = earlier ++ later ∧ earlier.length = taken.length ∧
      Source.pulls taken.length cursor.source = (earlier.map .ok, stopped.source) ∧
      Source.Breaks stopped.source later failure rest ∧
      stopped.ahead = earlier.getLastD cursor.ahead ∧
      Steps (cursor.spared given rest) taken (stopped.spared later rest) := by
  -- Each step uses up the first of the answers, which is what is ahead of the next cursor.
  induction steps generalizing given with
  | refl cursor => exact ⟨[], given, rfl, rfl, rfl, breaks, rfl, .refl _⟩
  | @cons cursor next stopped element taken stepped _ inductionHypothesis =>
      rcases pull_of_next_some stepped with ⟨present, asked, moved⟩
      cases breaks with
      | now failed => cases asked.symm.trans failed
      | later answered breaks =>
          cases asked.symm.trans answered
          rcases inductionHypothesis breaks with
            ⟨earlier, later, rfl, counted, pulled, breaks, ahead, unbroken⟩
          have same : (cursor.spared (next.ahead :: (earlier ++ later)) rest).ahead = some element :=
            present
          have again := next_of_ok same (Preceded.pull_cons _ _ rest)
          have place : cursor.position + 1 = next.position := moved.symm
          rw [spared, place] at again
          refine ⟨next.ahead :: earlier, later, rfl, ?_, ?_, breaks, ?_, .cons again unbroken⟩
          · rw [List.length_cons, List.length_cons, counted]
          · rw [List.length_cons, Source.pulls_succ, asked, pulled, List.map_cons]
          · rw [ahead, List.getLastD_cons]

/-- There are no more steps than requests that succeed. -/
theorem Steps.length_le_of_breaks {cursor stopped : Cursor σ α} {taken : List α}
    {given : List (Option α)} {failure : ε} {rest : σ} (steps : Steps cursor taken stopped)
    (breaks : Source.Breaks cursor.source given failure rest) : taken.length ≤ given.length := by
  rcases steps.of_breaks breaks with ⟨earlier, later, rfl, counted, _⟩
  rw [← counted, List.length_append]
  exact Nat.le_add_right _ _

/-- The state that a failure leaves, after these answers and with this rest of the source. -/
structure Fails (cursor : Cursor σ α) (given : List (Option α)) (failure : ε) (rest : σ)
    (after : Cursor σ α) : Prop where
  /-- There is one step for each of the answers, and then the one that fails.  If the failure is
  taken out, the same steps lead to the same place. -/
  steps : ∃ taken stopped, taken.length = given.length ∧ Steps cursor taken stopped ∧
    stopped.next = (.error failure, after) ∧
    Steps (cursor.spared given rest) taken (after.spared [] rest)
  /-- No request is made after the one that failed. -/
  logged : ∀ log, Source.Logs log →
    log after.source = log cursor.source ++ (given.map .ok ++ [.error failure])
  source_eq : after.source = rest
  /-- The last of the answers is ahead, or what has been ahead all the time. -/
  ahead_eq : after.ahead = given.getLastD cursor.ahead
  position_eq : after.position = cursor.position + given.length
  remaining_eq : after.remaining = cursor.remaining.drop given.length

/-- The two outcomes of an operation whose requests can get to one that fails. -/
inductive Meets (asks : Nat → Prop) (cursor : Cursor σ α) (given : List (Option α)) (failure : ε)
    (rest : σ) : Except ε β → Cursor σ α → Prop where
  /-- The operation needs only some of the requests in front of the failure. -/
  | avoided {after : Cursor σ α} (fewer : Nat) (enough : fewer ≤ given.length)
      (pulled : Source.pulls fewer cursor.source = ((given.take fewer).map .ok, after.source))
      (value : β) : Meets asks cursor given failure rest (.ok value) after
  /-- The failure is the answer. -/
  | met {after : Cursor σ α} (asked : asks given.length)
      (fails : Fails cursor given failure rest after) :
      Meets asks cursor given failure rest (.error failure) after

/-- A step that fails does so because of the first request that does. -/
theorem fails_of_steps {cursor stopped after : Cursor σ α} {taken : List α}
    {given : List (Option α)} {failure other : ε} {rest : σ}
    (breaks : Source.Breaks cursor.source given failure rest) (steps : Steps cursor taken stopped)
    (stepped : stopped.next = (.error other, after)) :
    other = failure ∧ taken.length = given.length ∧ Fails cursor given failure rest after := by
  rcases pull_of_next_error stepped with ⟨asked, stays⟩
  have passes := steps.passes.trans (passes_of_next_error stepped)
  rw [List.append_nil] at passes
  rcases steps.of_breaks breaks with
    ⟨earlier, later, rfl, counted, pulled, failing, ahead, unbroken⟩
  -- The request of the failing step is the next one, so no success can be left before it.
  cases failing with
  | later answered _ => cases asked.symm.trans answered
  | now failed =>
      cases asked.symm.trans failed
      rw [List.append_nil] at breaks unbroken ⊢
      have spared : Steps (cursor.spared earlier after.source) taken
          (after.spared [] after.source) := by
        rw [stays]
        exact unbroken
      refine ⟨rfl, counted.symm, ⟨taken, stopped, counted.symm, steps, stepped, spared⟩, ?_, rfl,
        ?_, ?_, ?_⟩
      · intro log logs
        have grown := logs.pulls (earlier.length + 1) cursor.source
        rwa [breaks.pulls_eq] at grown
      · rw [stays, ahead]
      · rw [passes.position_eq, counted]
      · rw [passes.remaining_eq, counted, drop_run_append]

theorem Ends.meets {asks : Nat → Prop} {cursor after : Cursor σ α} {taken : List α}
    {answer : Except ε β} {given : List (Option α)} {failure : ε} {rest : σ}
    (ends : Ends asks cursor taken answer after)
    (breaks : Source.Breaks cursor.source given failure rest) :
    Meets asks cursor given failure rest answer after := by
  cases ends with
  | succeeded steps value =>
      rcases steps.of_breaks breaks with ⟨earlier, later, rfl, counted, pulled, _⟩
      refine .avoided taken.length ?_ ?_ value
      · rw [← counted, List.length_append]
        exact Nat.le_add_right _ _
      · rw [pulled, ← counted, List.take_left]
  | failed steps asked stepped =>
      rcases fails_of_steps breaks steps stepped with ⟨rfl, counted, fails⟩
      rw [counted] at asked
      exact .met asked fails

/-! ## Operations in front of a failure -/

/-- Each round of a bounded operation needs a request that succeeds, but for the last one. -/
theorem isSome_foldUntil_of_breaks {τ : Type} (test : τ → α → Bool × τ) (push : β → α → β)
    {rounds : Nat} (state : τ) (start : β) {cursor : Cursor σ α} {given : List (Option α)}
    {failure : ε} {rest : σ} (breaks : Source.Breaks cursor.source given failure rest)
    (enough : given.length < rounds) :
    (foldUntil test push rounds state start cursor).isSome = true :=
  isSome_foldUntil_of_bound test push state start fun steps =>
    Nat.lt_of_le_of_lt (steps.length_le_of_breaks breaks) enough

theorem perform_meets {cursor : Cursor σ α} {given : List (Option α)} {failure : ε} {rest : σ}
    (breaks : Source.Breaks cursor.source given failure rest) {rounds : Nat}
    (enough : given.length < rounds) (operation : Operation α) :
    ∃ answer after, cursor.perform rounds operation = some (answer, after) ∧
      Meets operation.AsksAfter cursor given failure rest answer after := by
  have answered : (cursor.perform rounds operation).isSome = true := by
    apply isSome_perform
    intro τ test state
    exact isSome_foldUntil_of_breaks test Array.push state #[] breaks enough
  rcases Option.isSome_iff_exists.mp answered with ⟨⟨answer, after⟩, performed⟩
  rcases perform_ends performed with ⟨taken, ends⟩
  exact ⟨answer, after, performed, ends.meets breaks⟩

/-! ## Trying again -/

/-- In the place that the failure leaves, it makes no difference whether it is taken out. -/
theorem Fails.abreast_spared {cursor after : Cursor σ α} {given : List (Option α)} {failure : ε}
    {rest : σ} (fails : Fails cursor given failure rest after) :
    Abreast Preceded.Exhausted after (after.spared [] rest) := by
  refine ⟨?_, rfl, rfl⟩
  rw [fails.source_eq]
  rfl

/-- Counted taking that succeeds gives out so many of the elements that remained, or all. -/
theorem Collects.taken_eq {count : Nat} {cursor after : Cursor σ α} {taken elements : List α}
    (collects : Collects count cursor taken (.ok elements : Except ε (List α)) after) :
    elements = cursor.remaining.take count := by
  have passes := collects.ends.passes
  cases collects with
  | enough _ counted => rw [passes.remaining_eq, ← counted, take_run_append]
  | ended _ short absent =>
      rw [passes.remaining_eq, remaining_of_end absent, Stream'.Seq.append_nil,
        take_ofList _ (Nat.le_of_lt short)]

theorem foldTake_of_ok {push : β → α → β} {count : Nat} {start given : β} {cursor : Cursor σ α}
    (succeeded : (foldTake push count start cursor).1 = .ok given) :
    given = (cursor.remaining.take count).foldl push start := by
  rcases foldTake_collects push count start cursor with ⟨taken, result, collects, answer⟩
  rcases exists_ok_of_map_ok (answer.symm.trans succeeded) with ⟨elements, rfl, rfl⟩
  rw [collects.taken_eq]

/-- What was left to take when a request for more failed. -/
theorem Fails.rest_eq {cursor after : Cursor σ α} {given : List (Option α)} {failure : ε} {rest : σ}
    (fails : Fails cursor given failure rest after) (count : Nat) :
    after.remaining.take (count - given.length) =
      (cursor.remaining.take count).drop given.length := by
  rw [fails.remaining_eq, Stream'.Seq.take_drop]

end Cursor
end ForwardCursor
