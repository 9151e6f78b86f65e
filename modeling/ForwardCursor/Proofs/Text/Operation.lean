import ForwardCursor.Proofs.Cursor.Operation
import ForwardCursor.Text.Line

namespace ForwardCursor
namespace TextCursor

/-!
# Operations and runs of a text cursor

The operations are those of a cursor, with strings in place of arrays, and the two that
take lines.  `line` is one request for the next of the remaining lines, so a traversal of
lines is a run of such requests.

The operations of a text cursor take the single steps of the cursor inside, and they too
stop at the first step that fails.  This includes the lines, which take steps in three
places.
-/

/-- The operations of a text cursor. -/
inductive Operation : Type 1 where
  | next
  | skip
  | drop (count : Nat)
  | take (count : Nat)
  | takeUntilWith {τ : Type} (test : τ → Char → Bool × τ) (state : τ)
  | takeTo (target : Char)
  | takeAll
  | nextLine
  | line

/-- What an operation gives out when it succeeds.  There may be no next line. -/
inductive Answer where
  | character (given : Option Char)
  | done
  | count (passed : Nat)
  | string (taken : String)
  | line (given : Option String)

variable {σ ε : Type} [Source σ ε Char]

/-- The answer to a request for the next of the remaining lines. -/
def lineAnswer : Option (Except ε String) → Except ε Answer
  | none => .ok (.line none)
  | some answer => answer.map fun line => .line (some line)

/-- Perform an operation.  The answer is missing only if a bounded operation needs
more rounds. -/
def perform (rounds : Nat) (text : TextCursor σ) :
    Operation → Option (Except ε Answer × TextCursor σ)
  | .next => some (text.next.1.map .character, text.next.2)
  | .skip => some (text.skip.1.map fun _ => .done, text.skip.2)
  | .drop count => some ((text.drop count).1.map .count, (text.drop count).2)
  | .take count => some ((text.take count).1.map .string, (text.take count).2)
  | .takeUntilWith test state =>
    (text.takeUntilWith rounds test state).map
      fun (answer, _, after) => (answer.map .string, after)
  | .takeTo target =>
    (text.takeTo rounds target).map fun (answer, after) => (answer.map .string, after)
  | .takeAll => (text.takeAll rounds).map fun (answer, after) => (answer.map .string, after)
  | .nextLine => (text.nextLine rounds).map fun (answer, after) => (answer.map .string, after)
  | .line => (text.line? rounds).map fun (answer, after) => (lineAnswer answer, after)

/-- A call is an operation that was performed within some number of rounds. -/
def Call (text : TextCursor σ) (answer : Except ε Answer) (after : TextCursor σ) : Prop :=
  ∃ (rounds : Nat) (operation : Operation), text.perform rounds operation = some (answer, after)

/-! ## More rounds -/

theorem takeUntilWith_of_le {rounds larger : Nat} (enough : rounds ≤ larger) {τ : Type}
    {test : τ → Char → Bool × τ} {state : τ} {text : TextCursor σ}
    {answer : Except ε String × τ × TextCursor σ}
    (finished : text.takeUntilWith rounds test state = some answer) :
    text.takeUntilWith larger test state = some answer := by
  rcases Option.map_eq_some_iff.mp finished with ⟨inner, stopped, same⟩
  exact Option.map_eq_some_iff.mpr
    ⟨inner, Cursor.foldUntil_of_le test String.push enough state "" text.cursor stopped, same⟩

theorem takeUntil_of_le {rounds larger : Nat} (enough : rounds ≤ larger) {predicate : Char → Bool}
    {text : TextCursor σ} {answer : Except ε String × TextCursor σ}
    (finished : text.takeUntil rounds predicate = some answer) :
    text.takeUntil larger predicate = some answer := by
  rcases Option.map_eq_some_iff.mp finished with ⟨inner, stopped, same⟩
  exact Option.map_eq_some_iff.mpr ⟨inner, takeUntilWith_of_le enough stopped, same⟩

theorem nextLine_of_le {rounds larger : Nat} (enough : rounds ≤ larger) {text : TextCursor σ}
    {answer : Except ε String × TextCursor σ} (finished : text.nextLine rounds = some answer) :
    text.nextLine larger = some answer := by
  rcases Option.map_eq_some_iff.mp finished with ⟨inner, stopped, same⟩
  exact Option.map_eq_some_iff.mpr ⟨inner, takeUntil_of_le enough stopped, same⟩

theorem line?_of_le {rounds larger : Nat} (enough : rounds ≤ larger) {text : TextCursor σ}
    {answer : Option (Except ε String) × TextCursor σ}
    (finished : text.line? rounds = some answer) : text.line? larger = some answer := by
  by_cases ended : text.atEnd = true
  · rw [line?, if_pos ended] at finished ⊢
    exact finished
  · rw [line?, if_neg ended] at finished ⊢
    rcases Option.map_eq_some_iff.mp finished with ⟨inner, stopped, same⟩
    exact Option.map_eq_some_iff.mpr ⟨inner, nextLine_of_le enough stopped, same⟩

/-- An answer within some rounds is the answer within more rounds. -/
theorem perform_of_le {rounds larger : Nat} (enough : rounds ≤ larger) {operation : Operation}
    {text : TextCursor σ} {answer : Except ε Answer × TextCursor σ}
    (performed : text.perform rounds operation = some answer) :
    text.perform larger operation = some answer := by
  cases operation with
  | next => exact performed
  | skip => exact performed
  | drop count => exact performed
  | take count => exact performed
  | takeUntilWith test state =>
      rcases Option.map_eq_some_iff.mp performed with ⟨inner, finished, same⟩
      exact Option.map_eq_some_iff.mpr ⟨inner, takeUntilWith_of_le enough finished, same⟩
  | takeTo target =>
      rcases Option.map_eq_some_iff.mp performed with ⟨inner, finished, same⟩
      exact Option.map_eq_some_iff.mpr ⟨inner, takeUntil_of_le enough finished, same⟩
  | takeAll =>
      rcases Option.map_eq_some_iff.mp performed with ⟨inner, finished, same⟩
      exact Option.map_eq_some_iff.mpr ⟨inner, takeUntil_of_le enough finished, same⟩
  | nextLine =>
      rcases Option.map_eq_some_iff.mp performed with ⟨inner, finished, same⟩
      exact Option.map_eq_some_iff.mpr ⟨inner, nextLine_of_le enough finished, same⟩
  | line =>
      rcases Option.map_eq_some_iff.mp performed with ⟨inner, finished, same⟩
      exact Option.map_eq_some_iff.mpr ⟨inner, line?_of_le enough finished, same⟩

/-- An operation has an answer if every bounded one comes to an end. -/
theorem isSome_perform {rounds : Nat} (operation : Operation) {text : TextCursor σ}
    (bounded : ∀ {τ : Type} (test : τ → Char → Bool × τ) (state : τ),
      (text.takeUntilWith rounds test state).isSome = true) :
    (text.perform rounds operation).isSome = true := by
  cases operation with
  | next | skip | drop | take => rfl
  | takeUntilWith test state =>
      rw [perform, Option.isSome_map]
      exact bounded test state
  | takeTo target | takeAll | nextLine =>
      simp only [perform, Option.isSome_map, takeTo, takeAll, nextLine, takeUntil]
      exact bounded _ _
  | line =>
      rw [perform, Option.isSome_map, line?]
      split
      · rfl
      · simp only [Option.isSome_map, nextLine, takeUntil]
        exact bounded _ _

/-! ## Operations at the end -/

/-- What an operation gives out when there are no characters. -/
def Operation.nothing : Operation → Answer
  | .next => .character none
  | .skip => .done
  | .drop _ => .count 0
  | .take _ | .takeUntilWith _ _ | .takeTo _ | .takeAll | .nextLine => .string ""
  | .line => .line none

/-- At the end every operation gives out nothing and leaves the text cursor as it is. -/
theorem perform_of_end (rounds : Nat) (operation : Operation) {text : TextCursor σ}
    (ended : text.ahead = none) :
    text.perform (rounds + 1) operation = some (.ok operation.nothing, text) := by
  have inside : text.cursor.ahead = none := ended
  cases operation with
  | next => simp only [perform, next_eq, Cursor.next_of_end inside, Except.map, Operation.nothing]
  | skip =>
      simp only [perform, skip_eq, Cursor.skip_eq, Cursor.next_of_end inside, Except.map,
        Operation.nothing]
  | drop count =>
      simp only [perform, drop_eq, Cursor.drop_of_end count inside, Except.map, Operation.nothing]
  | take count =>
      simp only [perform, take, onCursor, Cursor.foldTake_of_end _ count _ inside, Except.map,
        Operation.nothing]
  | takeUntilWith test state =>
      simp only [perform, takeUntilWith_of_end rounds test state ended, Option.map_some, Except.map,
        Operation.nothing]
  | takeTo target =>
      simp only [perform, takeTo, takeUntil_of_end rounds _ ended, Option.map_some, Except.map,
        Operation.nothing]
  | takeAll =>
      simp only [perform, takeAll, takeUntil_of_end rounds _ ended, Option.map_some, Except.map,
        Operation.nothing]
  | nextLine =>
      simp only [perform, nextLine_of_end rounds ended, Option.map_some, Except.map,
        Operation.nothing]
  | line =>
      simp only [perform, line?_of_end (rounds + 1) ended, Option.map_some, lineAnswer,
        Operation.nothing]

/-- Whatever is called at the end, the text cursor stays as it is. -/
theorem Call.of_end {text after : TextCursor σ} {answer : Except ε Answer}
    (called : text.Call answer after) (ended : text.ahead = none) :
    after = text ∧ failures answer = 0 := by
  rcases called with ⟨rounds, operation, performed⟩
  have later := perform_of_le (Nat.le_succ rounds) performed
  rw [perform_of_end rounds operation ended] at later
  cases later
  exact ⟨rfl, rfl⟩

/-- Nothing happens any more: operations give out nothing, tests are not asked, and no run
leads away. -/
structure Rests (text : TextCursor σ) : Prop where
  perform_eq : ∀ (rounds : Nat) (operation : Operation),
    text.perform (rounds + 1) operation = some (.ok operation.nothing, text)
  test_not_asked : ∀ {τ : Type} (rounds : Nat) (test : τ → Char → Bool × τ) (state : τ),
    text.takeUntilWith (rounds + 1) test state = some (.ok "", state, text)
  run_eq : ∀ {failed : Nat} {later : TextCursor σ}, Run Call text failed later →
    later = text ∧ failed = 0

theorem rests_of_end {text : TextCursor σ} (ended : text.ahead = none) : text.Rests where
  perform_eq := fun rounds operation => perform_of_end rounds operation ended
  test_not_asked := fun rounds test state => takeUntilWith_of_end rounds test state ended
  run_eq := fun run => run.stays fun _ _ called => called.of_end ended

/-! ## The steps of an operation -/

section Steps

open Cursor (Ends)

/-- An operation that has taken so many characters can still ask for another one. -/
def Operation.AsksAfter : Operation → Nat → Prop
  | .next | .skip => fun taken => taken = 0
  | .drop count | .take count => fun taken => taken < count
  | .takeUntilWith _ _ | .takeTo _ | .takeAll | .nextLine | .line => fun _ => True

theorem takeUntilWith_ends {τ : Type} {test : τ → Char → Bool × τ} {rounds : Nat} {state last : τ}
    {text after : TextCursor σ} {answer : Except ε String}
    (finished : text.takeUntilWith rounds test state = some (answer, last, after)) :
    ∃ taken, Ends (fun _ => True) text.cursor taken answer after.cursor := by
  rcases Option.map_eq_some_iff.mp finished with ⟨⟨inner, final, left⟩, stopped, same⟩
  cases same
  exact Cursor.foldUntil_ends stopped

theorem takeUntil_ends {predicate : Char → Bool} {rounds : Nat} {text after : TextCursor σ}
    {answer : Except ε String} (finished : text.takeUntil rounds predicate = some (answer, after)) :
    ∃ taken, Ends (fun _ => True) text.cursor taken answer after.cursor := by
  rcases Option.map_eq_some_iff.mp finished with ⟨⟨inner, final, left⟩, stopped, same⟩
  cases same
  exact takeUntilWith_ends stopped

theorem skipLineBreak_ends (text : TextCursor σ) :
    ∃ taken, Ends (fun _ => True) text.cursor taken text.skipLineBreak.1
      text.skipLineBreak.2.cursor := by
  have stepped_eq {answer : Except ε (Option Char)} {after : TextCursor σ}
      (stepped : text.next = (answer, after)) : text.cursor.next = (answer, after.cursor) := by
    cases stepped
    rfl
  rcases text.skipLineBreak_cases with ⟨failure, after, stepped, passed⟩ |
    ⟨after, stepped, _, passed⟩ | ⟨given, after, stepped, _, passed⟩
  · rw [passed]
    exact ⟨[], .failed (.refl _) trivial (stepped_eq stepped)⟩
  · rcases after.cursor.skip_ends with ⟨taken, ends⟩
    rw [passed]
    exact ⟨_, ends.unlimited.of_steps (Cursor.next_steps (stepped_eq stepped))⟩
  · rw [passed]
    exact ⟨_, .succeeded (Cursor.next_steps (stepped_eq stepped)) ()⟩

/-- The steps in front of a line break and those past it are the steps of a line. -/
theorem nextLine_ends {rounds : Nat} {text after : TextCursor σ} {answer : Except ε String}
    (finished : text.nextLine rounds = some (answer, after)) :
    ∃ taken, Ends (fun _ => True) text.cursor taken answer after.cursor := by
  rcases Option.map_eq_some_iff.mp finished with ⟨⟨line, stopped⟩, halted, same⟩
  rcases takeUntil_ends halted with ⟨taken, ends⟩
  cases ends with
  | succeeded steps line =>
      cases same
      rcases stopped.skipLineBreak_ends with ⟨later, past⟩
      exact ⟨taken ++ later, (past.of_steps steps).map fun _ => line⟩
  | failed steps asked stepped =>
      cases same
      exact ⟨taken, .failed steps asked stepped⟩

theorem line?_ends {rounds : Nat} {text after : TextCursor σ} {answer : Option (Except ε String)}
    (finished : text.line? rounds = some (answer, after)) :
    ∃ taken, Ends (fun _ => True) text.cursor taken (lineAnswer answer) after.cursor := by
  by_cases ended : text.atEnd = true
  · rw [line?, if_pos ended] at finished
    cases finished
    exact ⟨[], .succeeded (.refl _) _⟩
  · rw [line?, if_neg ended] at finished
    rcases Option.map_eq_some_iff.mp finished with ⟨⟨inner, left⟩, taken, same⟩
    cases same
    rcases nextLine_ends taken with ⟨characters, ends⟩
    exact ⟨characters, ends.map _⟩

/-- Every operation is steps of the cursor inside, of which only the last one can fail. -/
theorem perform_ends {rounds : Nat} {operation : Operation} {text after : TextCursor σ}
    {answer : Except ε Answer} (performed : text.perform rounds operation = some (answer, after)) :
    ∃ taken, Ends operation.AsksAfter text.cursor taken answer after.cursor := by
  cases operation with
  | next =>
      cases performed
      rcases text.cursor.next_ends with ⟨taken, ends⟩
      exact ⟨taken, ends.map _⟩
  | skip =>
      cases performed
      rcases text.cursor.skip_ends with ⟨taken, ends⟩
      exact ⟨taken, ends.map _⟩
  | drop count =>
      cases performed
      rcases text.cursor.drop_ends count with ⟨taken, ends⟩
      exact ⟨taken, ends.map _⟩
  | take count =>
      cases performed
      rcases Cursor.foldTake_ends String.push count "" text.cursor with ⟨taken, ends⟩
      exact ⟨taken, ends.map _⟩
  | takeUntilWith test state =>
      rcases Option.map_eq_some_iff.mp performed with ⟨⟨inner, last, left⟩, finished, same⟩
      cases same
      rcases takeUntilWith_ends finished with ⟨taken, ends⟩
      exact ⟨taken, ends.map _⟩
  | takeTo target =>
      rcases Option.map_eq_some_iff.mp performed with ⟨⟨inner, left⟩, finished, same⟩
      cases same
      rcases takeUntil_ends finished with ⟨taken, ends⟩
      exact ⟨taken, ends.map _⟩
  | takeAll =>
      rcases Option.map_eq_some_iff.mp performed with ⟨⟨inner, left⟩, finished, same⟩
      cases same
      rcases takeUntil_ends finished with ⟨taken, ends⟩
      exact ⟨taken, ends.map _⟩
  | nextLine =>
      rcases Option.map_eq_some_iff.mp performed with ⟨⟨inner, left⟩, finished, same⟩
      cases same
      rcases nextLine_ends finished with ⟨taken, ends⟩
      exact ⟨taken, ends.map _⟩
  | line =>
      rcases Option.map_eq_some_iff.mp performed with ⟨⟨inner, left⟩, finished, same⟩
      cases same
      exact line?_ends finished

end Steps

/-! ## What is done step by step -/

section Stepwise

open Cursor (Stepwise)

variable {related : Cursor σ Char → Nat → Cursor σ Char → Prop}

theorem related_of_call (stepwise : Stepwise related) {text after : TextCursor σ}
    {answer : Except ε Answer} (called : text.Call answer after) :
    related text.cursor (failures answer) after.cursor := by
  rcases called with ⟨rounds, operation, performed⟩
  rcases perform_ends performed with ⟨taken, ends⟩
  exact stepwise.of_ends ends

theorem related_of_run (stepwise : Stepwise related) {start text : TextCursor σ} {failed : Nat}
    (run : Run Call start failed text) : related start.cursor failed text.cursor := by
  induction run with
  | refl => exact stepwise.refl start.cursor
  | step _ called inductionHypothesis =>
      exact stepwise.trans inductionHypothesis (related_of_call stepwise called)

end Stepwise

end TextCursor
end ForwardCursor
