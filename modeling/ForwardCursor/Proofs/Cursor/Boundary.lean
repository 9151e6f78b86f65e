import ForwardCursor.Proofs.Cursor.Steps

namespace ForwardCursor
namespace Cursor

/-!
# Where bounded taking stops

A bounded operation asks its test about the element ahead and then takes that element.  It
stops for one of three reasons.  The test accepts, there is nothing ahead to ask about, or
the test has refused and the step that is to take the element fails.  In the last case the
test has been asked about an element that was not taken, and it is still ahead.

The test has a state, so it matters how often it is asked and in which order.  It is asked
about each element once, before the element is taken.  The elements asked about are those
taken, and after them the one that stopped the operation, if it was not the end.

The rounds of an operation are enough if they are more than the elements that it takes.
-/

variable {σ ε α β τ : Type} [Source σ ε α]

/-- The test refuses these elements one after the other, and is left in that state. -/
inductive Refuses (test : τ → α → Bool × τ) : τ → List α → τ → Prop where
  | nil (state : τ) : Refuses test state [] state
  | cons {state later last : τ} {element : α} {elements : List α}
      (refused : test state element = (false, later)) (rest : Refuses test later elements last) :
      Refuses test state (element :: elements) last

/-- A bounded operation takes these elements and stops.  The test is asked about the elements
`asked`, in this order, and is left in the state `last`. -/
inductive Stops (test : τ → α → Bool × τ) (state : τ) (cursor : Cursor σ α) (taken : List α) :
    (asked : List α) → Except ε (List α) → (last : τ) → Cursor σ α → Prop where
  /-- The test accepts the element ahead. -/
  | accepted {later last : τ} {element : α} {after : Cursor σ α} (steps : Steps cursor taken after)
      (refused : Refuses test state taken later) (present : after.ahead = some element)
      (accepted : test later element = (true, last)) :
      Stops test state cursor taken (taken ++ [element]) (.ok taken) last after
  /-- There are no more elements. -/
  | ended {last : τ} {after : Cursor σ α} (steps : Steps cursor taken after)
      (refused : Refuses test state taken last) (absent : after.ahead = none) :
      Stops test state cursor taken taken (.ok taken) last after
  /-- The test refuses the element ahead, and it cannot be taken. -/
  | failed {later last : τ} {element : α} {stopped after : Cursor σ α} {failure : ε}
      (steps : Steps cursor taken stopped) (refused : Refuses test state taken later)
      (present : stopped.ahead = some element) (next : test later element = (false, last))
      (stepped : stopped.next = (.error failure, after)) :
      Stops test state cursor taken (taken ++ [element]) (.error failure) last after

namespace Stops

variable {test : τ → α → Bool × τ} {state later last : τ} {cursor next after : Cursor σ α}
  {taken asked : List α} {result : Except ε (List α)}

theorem cons {element : α} (stepped : cursor.next = (.ok (some element), next))
    (refused : test state element = (false, later))
    (stops : Stops test later next taken asked result last after) :
    Stops test state cursor (element :: taken) (element :: asked) (result.map (element :: ·)) last
      after := by
  cases stops with
  | accepted steps earlier present accepted =>
      exact .accepted (.cons stepped steps) (.cons refused earlier) present accepted
  | ended steps earlier absent => exact .ended (.cons stepped steps) (.cons refused earlier) absent
  | failed steps earlier present again failed =>
      exact .failed (.cons stepped steps) (.cons refused earlier) present again failed

theorem ends (stops : Stops test state cursor taken asked result last after) :
    Ends (fun _ => True) cursor taken result after := by
  cases stops with
  | accepted steps _ _ _ => exact .succeeded steps taken
  | ended steps _ _ => exact .succeeded steps taken
  | failed steps _ _ _ stepped => exact .failed steps trivial stepped

end Stops

/-! ## Elements that are refused and taken -/

/-- Bounded taking goes on after elements that its test has refused as if it had begun behind
them. -/
theorem foldUntil_of_steps {test : τ → α → Bool × τ} (push : β → α → β)
    {cursor middle : Cursor σ α} {taken : List α} {state later : τ}
    (steps : Steps cursor taken middle) (refused : Refuses test state taken later) (rounds : Nat)
    (start : β) :
    foldUntil test push (taken.length + rounds) state start cursor =
      foldUntil test push rounds later (taken.foldl push start) middle := by
  induction steps generalizing state start with
  | refl =>
      cases refused
      rw [List.length_nil, Nat.zero_add, List.foldl_nil]
  | cons stepped _ inductionHypothesis =>
      cases refused with
      | cons first rest =>
          rw [List.length_cons, Nat.succ_add,
            foldUntil_of_taken push _ start (pull_of_next_some stepped).1 first stepped,
            List.foldl_cons]
          exact inductionHypothesis rest _

/-- If the rounds are not enough, there has been a step in each of them. -/
theorem steps_of_foldUntil_none {test : τ → α → Bool × τ} {push : β → α → β} {rounds : Nat}
    {state : τ} {start : β} {cursor : Cursor σ α}
    (unfinished : foldUntil test push rounds state start cursor = none) :
    ∃ taken after, taken.length = rounds ∧ Steps cursor taken after := by
  induction rounds generalizing state start cursor with
  | zero => exact ⟨[], cursor, rfl, .refl cursor⟩
  | succ rounds inductionHypothesis =>
      rcases cursor.next_cases with ⟨ended, _⟩ | ⟨element, _, _, present, _, stepped⟩ |
        ⟨_, _, _, present, _, stepped⟩
      · rw [foldUntil_of_end test push rounds state start ended] at unfinished
        cases unfinished
      all_goals simp only [foldUntil, present, stepped] at unfinished
      all_goals split at unfinished
      · cases unfinished
      · rcases inductionHypothesis unfinished with ⟨taken, after, counted, steps⟩
        exact ⟨element :: taken, after, congrArg (· + 1) counted, .cons stepped steps⟩
      · cases unfinished
      · cases unfinished

/-- Rounds that are more than the steps that can be taken are enough. -/
theorem isSome_foldUntil_of_bound (test : τ → α → Bool × τ) (push : β → α → β) {rounds : Nat}
    (state : τ) (start : β) {cursor : Cursor σ α}
    (bounded : ∀ {taken after}, Steps cursor taken after → taken.length < rounds) :
    (foldUntil test push rounds state start cursor).isSome = true := by
  match finished : foldUntil test push rounds state start cursor with
  | some outcome => rfl
  | none =>
      rcases steps_of_foldUntil_none finished with ⟨taken, after, counted, steps⟩
      exact absurd counted (Nat.ne_of_lt (bounded steps))

/-! ## The three ways of stopping -/

/-- Bounded taking that comes to an end has stopped in one of the three ways. -/
theorem foldUntil_stops {test : τ → α → Bool × τ} {push : β → α → β} {rounds : Nat}
    {state last : τ} {start : β} {cursor after : Cursor σ α} {answer : Except ε β}
    (finished : foldUntil test push rounds state start cursor = some (answer, last, after)) :
    ∃ taken asked result, taken.length < rounds ∧
      Stops test state cursor taken asked result last after ∧
      answer = result.map (List.foldl push start) := by
  induction rounds generalizing state start cursor with
  | zero => cases finished
  | succ rounds inductionHypothesis =>
      cases present : cursor.ahead with
      | none =>
          rw [foldUntil_of_end test push rounds state start present] at finished
          cases finished
          exact ⟨[], [], .ok [], Nat.zero_lt_succ rounds, .ended (.refl _) (.nil _) present, rfl⟩
      | some element =>
          rcases asked : test state element with ⟨accepted, later⟩
          cases accepted with
          | true =>
              rw [foldUntil_of_accepted push rounds start present asked] at finished
              cases finished
              exact ⟨[], [element], .ok [], Nat.zero_lt_succ rounds,
                .accepted (.refl _) (.nil state) present asked, rfl⟩
          | false =>
              rcases cursor.next_cases with ⟨ended, _⟩ | ⟨_, ahead, rest, same, _, stepped⟩ |
                ⟨_, failure, rest, _, _, stepped⟩
              · cases present.symm.trans ended
              · cases present.symm.trans same
                rw [foldUntil_of_taken push rounds start present asked stepped] at finished
                rcases inductionHypothesis finished with
                  ⟨taken, questions, result, fewer, stops, answered⟩
                exact ⟨element :: taken, element :: questions, _, Nat.succ_lt_succ fewer,
                  stops.cons stepped asked,
                  answered.trans (map_foldl_cons push start element result).symm⟩
              · rw [foldUntil_of_failed push rounds start present asked stepped] at finished
                cases finished
                exact ⟨[], [element], .error _, Nat.zero_lt_succ rounds,
                  .failed (.refl _) (.nil state) present asked stepped, rfl⟩

/-- Bounded taking comes to an end wherever it can stop. -/
theorem foldUntil_of_stops {test : τ → α → Bool × τ} (push : β → α → β) {rounds : Nat}
    {state last : τ} (start : β) {cursor after : Cursor σ α} {taken asked : List α}
    {result : Except ε (List α)} (enough : taken.length < rounds)
    (stops : Stops test state cursor taken asked result last after) :
    foldUntil test push rounds state start cursor =
      some (result.map (List.foldl push start), last, after) := by
  rcases Nat.exists_eq_add_of_lt enough with ⟨more, rfl⟩
  rw [Nat.add_assoc]
  cases stops with
  | accepted steps refused present accepted =>
      rw [foldUntil_of_steps push steps refused, foldUntil_of_accepted push more _ present accepted]
      rfl
  | ended steps refused absent =>
      rw [foldUntil_of_steps push steps refused, foldUntil_of_end test push more _ _ absent]
      rfl
  | failed steps refused present next stepped =>
      rw [foldUntil_of_steps push steps refused,
        foldUntil_of_failed push more _ present next stepped]
      rfl

theorem foldUntil_ends {test : τ → α → Bool × τ} {push : β → α → β} {rounds : Nat}
    {state last : τ} {start : β} {cursor after : Cursor σ α} {answer : Except ε β}
    (finished : foldUntil test push rounds state start cursor = some (answer, last, after)) :
    ∃ taken, Ends (fun _ => True) cursor taken answer after := by
  rcases foldUntil_stops finished with ⟨taken, _, result, _, stops, rfl⟩
  exact ⟨taken, stops.ends.map _⟩

/-! ## Tests without a state -/

theorem refuses_predicate {predicate : α → Bool} {elements : List α} {state last : Unit}
    (refused : Refuses (fun _ element => (predicate element, ())) state elements last) :
    ∀ element ∈ elements, predicate element = false := by
  induction refused with
  | nil => exact List.forall_mem_nil _
  | cons first _ inductionHypothesis =>
      exact List.forall_mem_cons.mpr ⟨congrArg Prod.fst first, inductionHypothesis⟩

theorem refuses_of_predicate {predicate : α → Bool} {elements : List α}
    (refused : ∀ element ∈ elements, predicate element = false) :
    Refuses (fun _ element => (predicate element, ())) () elements () := by
  induction elements with
  | nil => exact .nil ()
  | cons element elements inductionHypothesis =>
      rcases List.forall_mem_cons.mp refused with ⟨first, others⟩
      exact .cons (congrArg (·, ()) first) (inductionHypothesis others)

/-- A predicate holds of none of the elements taken.  If all of them are given out, it holds of the
one ahead. -/
theorem stops_predicate {predicate : α → Bool} {cursor after : Cursor σ α} {taken asked : List α}
    {result : Except ε (List α)} {state last : Unit}
    (stops : Stops (fun _ element => (predicate element, ())) state cursor taken asked result last
      after) :
    (∀ element ∈ taken, predicate element = false) ∧
      ((result = .ok taken ∧ Steps cursor taken after ∧
          ∀ element, after.ahead = some element → predicate element = true) ∨
        ∃ failure element stopped, result = .error failure ∧ Steps cursor taken stopped ∧
          stopped.ahead = some element ∧ stopped.next = (.error failure, after)) := by
  cases stops with
  | accepted steps refused present accepted =>
      refine ⟨refuses_predicate refused, Or.inl ⟨rfl, steps, ?_⟩⟩
      intro element same
      cases present.symm.trans same
      exact congrArg Prod.fst accepted
  | ended steps refused absent =>
      refine ⟨refuses_predicate refused, Or.inl ⟨rfl, steps, ?_⟩⟩
      intro element present
      cases absent.symm.trans present
  | failed steps refused present _ stepped =>
      exact ⟨refuses_predicate refused, Or.inr ⟨_, _, _, rfl, steps, present, stepped⟩⟩

end Cursor
end ForwardCursor
