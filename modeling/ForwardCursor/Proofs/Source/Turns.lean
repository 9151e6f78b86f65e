import ForwardCursor.Proofs.Cursor.IndexedList
import ForwardCursor.Proofs.Text.Operation
import ForwardCursor.Source.Script
import Mathlib.Data.List.ReduceOption

namespace ForwardCursor

/-!
# Turns at a source

A source can be used by several parties in turn.  One asks it directly, the next has a cursor
over it, and a cursor may be over the source itself or over a borrowed one.  Whoever borrows a
source can do all of this with it before it is given back.

What matters for the others is which of the answers a party has taken.  A cursor takes the
elements that it passes over and one answer more, which is what was ahead of it in the end.
Nothing else is lost, whatever failed meanwhile, and nothing is given twice.  If nobody met the
end, the next party therefore has the elements that follow.
-/

/-- The answers among some requests that are not failures. -/
def successes {ε β : Type} (answers : List (Except ε β)) : List β :=
  answers.filterMap Except.toOption

theorem successes_append {ε β : Type} (first second : List (Except ε β)) :
    successes (first ++ second) = successes first ++ successes second :=
  List.filterMap_append

/-! ## Sources with a log -/

/-- A source together with the answers that it has given so far. -/
structure Recorded (σ ε α : Type) where
  source : σ
  answers : List (Except ε (Option α)) := []

namespace Recorded

variable {σ ε α : Type} [Source σ ε α]

instance : Source (Recorded σ ε α) ε α where
  pull recorded :=
    let (answer, source) := Source.pull recorded.source
    (answer, ⟨source, recorded.answers ++ [answer]⟩)

end Recorded

/-- The log grows by each answer, and in no other way. -/
def Source.Logs {σ ε α : Type} [Source σ ε α] (log : σ → List (Except ε (Option α))) : Prop :=
  ∀ source, log (pull source).2 = log source ++ [(pull source).1]

section Logs

variable {σ ε α : Type} [Source σ ε α] {log : σ → List (Except ε (Option α))}

open Source (Logs)

theorem Recorded.logs : Logs (Recorded.answers (σ := σ) (ε := ε) (α := α)) :=
  fun _ => rfl

theorem logs_borrowed (logs : Logs log) : Logs fun lent : Borrowed σ => log lent.source :=
  fun lent => logs lent.source

theorem Source.Logs.pulls (logs : Logs log) (count : Nat) (source : σ) :
    log (Source.pulls count source).2 = log source ++ (Source.pulls count source).1 := by
  induction count generalizing source with
  | zero => exact (List.append_nil _).symm
  | succ count inductionHypothesis =>
      rw [pulls_succ, inductionHypothesis, logs source, List.append_assoc, List.singleton_append]

theorem Source.Logs.of_pull (logs : Logs log) {source rest : σ} {answer : Except ε (Option α)}
    (asked : Source.pull source = (answer, rest)) : log rest = log source ++ [answer] := by
  have grown := logs source
  rwa [asked] at grown

end Logs

/-! ## Turns -/

/-- What a party has had of a source. -/
inductive Turn (α : Type) where
  /-- Direct requests, of which these succeeded. -/
  | requests (given : List (Option α))
  /-- A cursor that could not be started. -/
  | refused
  /-- A cursor, with the elements that it took and what was ahead of it in the end. -/
  | cursor (taken : List α) (ahead : Option α)

namespace Turn

variable {α : Type}

/-- The successful answers that belong to a turn. -/
def results : Turn α → List (Option α)
  | requests given => given
  | refused => []
  | cursor taken ahead => taken.map some ++ [ahead]

/-- The elements that belong to a turn. -/
def elements : Turn α → List α
  | requests given => given.reduceOption
  | refused => []
  | cursor taken ahead => taken ++ ahead.toList

end Turn

/-- A cursor is used by a run of operations.  If its elements are characters, it may be made
into a text cursor at any time and is then used by a run on that.  To start a text cursor is to
do so at the start. -/
inductive Used {ε : Type} : {σ α : Type} → [Source σ ε α] → Cursor σ α → Cursor σ α → Prop where
  | plainly {σ α : Type} [Source σ ε α] {start cursor : Cursor σ α} {failed : Nat}
      (run : Run Cursor.Call start failed cursor) : Used start cursor
  | asText {σ : Type} [Source σ ε Char] {start cursor : Cursor σ Char} {text : TextCursor σ}
      {failed further : Nat} (run : Run Cursor.Call start failed cursor)
      (onwards : Run TextCursor.Call ⟨cursor⟩ further text) : Used start text.cursor

/-- Some turns at a source one after the other, and the source that they leave.  The elements
taken by a cursor are as many as its position of those that the source had when it was
started. -/
inductive Turns {ε α : Type} :
    {σ : Type} → [Source σ ε α] → σ → List (Turn α) → σ → Prop where
  | done {σ : Type} [Source σ ε α] (source : σ) : Turns source [] source
  | requests {σ : Type} [Source σ ε α] (count : Nat) {source final : σ} {turns : List (Turn α)}
      (later : Turns (Source.pulls count source).2 turns final) :
      Turns source (.requests (successes (Source.pulls count source).1) :: turns) final
  | refused {σ : Type} [Source σ ε α] {source left final : σ} {failure : ε} {turns : List (Turn α)}
      (started : Cursor.ofSource (α := α) source = .error (failure, left))
      (later : Turns left turns final) : Turns source (.refused :: turns) final
  | cursor {σ : Type} [Source σ ε α] {source final : σ} {start cursor : Cursor σ α}
      {turns : List (Turn α)} (started : Cursor.ofSource source = .ok start)
      (used : Used start cursor) (later : Turns cursor.source turns final) :
      Turns source
        (.cursor ((Source.elements source).take cursor.position) cursor.ahead :: turns) final
  | borrowed {σ : Type} [Source σ ε α] {source final : σ} {lent : Borrowed σ}
      {inside turns : List (Turn α)} (within : Turns (Borrowed.mk source) inside lent)
      (later : Turns lent.source turns final) : Turns source (inside ++ turns) final

/-! ## What a cursor takes -/

section Cursors

variable {σ ε α : Type} [Source σ ε α] {log : σ → List (Except ε (Option α))}

namespace Cursor

/-- The elements that a cursor over this source has taken and what is ahead of it are what the
log has in addition, and they are the first ones of the source. -/
def Logged (log : σ → List (Except ε (Option α))) (source : σ) (cursor : Cursor σ α) : Prop :=
  ∃ taken : List α, cursor.position = taken.length ∧
    Source.elements source = (Stream'.Seq.ofList taken).append cursor.remaining ∧
    successes (log cursor.source) =
      successes (log source) ++ (Turn.cursor taken cursor.ahead).results

theorem logged_of_started (logs : Source.Logs log) {source : σ} {start : Cursor σ α}
    (started : ofSource source = .ok start) : start.Logged log source := by
  rcases ofSource_start started with ⟨whole, zero⟩
  refine ⟨[], zero, ?_, ?_⟩
  · rw [whole, Stream'.Seq.ofList_nil, Stream'.Seq.nil_append]
  · rw [logs.of_pull (eq_of_started started).1, successes_append]
    rfl

/-- A step logs the answer to its request.  A failure is no success and takes nothing. -/
theorem Logged.next (logs : Source.Logs log) {source : σ} (cursor : Cursor σ α)
    (logged : cursor.Logged log source) : cursor.next.2.Logged log source := by
  rcases logged with ⟨taken, counted, whole, grown⟩
  rcases cursor.next_cases with ⟨_, stepped⟩ | ⟨element, ahead, rest, present, answered, stepped⟩ |
    ⟨element, failure, rest, present, failed, stepped⟩
  · rw [stepped]
    exact ⟨taken, counted, whole, grown⟩
  · rw [stepped]
    refine ⟨taken ++ [element], ?_, ?_, ?_⟩
    · rw [counted, List.length_append, List.length_singleton]
    · rw [whole, (passes_of_taken present answered).remaining_eq, Stream'.Seq.ofList_append,
        Stream'.Seq.append_assoc]
    · rw [logs.of_pull answered, successes_append, grown, present, Turn.results, Turn.results,
        List.map_append, List.append_assoc]
      rfl
  · rw [stepped]
    refine ⟨taken, counted, ?_, ?_⟩
    · rw [whole, (passes_of_failed present failed).remaining_eq, Stream'.Seq.ofList_nil,
        Stream'.Seq.nil_append]
    · rw [logs.of_pull failed, successes_append, grown]
      exact List.append_nil _

end Cursor

theorem Used.logged (logs : Source.Logs log) {source : σ} {start cursor : Cursor σ α}
    (used : Used start cursor) (begun : start.Logged log source) : cursor.Logged log source := by
  have kept : Cursor.Stepwise fun (before : Cursor σ α) _ after =>
      before.Logged log source → after.Logged log source :=
    Cursor.Stepwise.of_kept (Cursor.Logged.next logs)
  cases used with
  | plainly run => exact kept.of_run run begun
  | asText run onwards => exact TextCursor.related_of_run kept onwards (kept.of_run run begun)

end Cursors

/-! ## What turns take -/

section Accounts

variable {σ ε α : Type} [Source σ ε α]

/-- The log has grown by what the turns took.  If none of them met the end, these are the first
elements of the source, and the others are left. -/
structure Accounted (log : σ → List (Except ε (Option α))) (source : σ) (turns : List (Turn α))
    (final : σ) : Prop where
  successes_eq : successes (log final) = successes (log source) ++ turns.flatMap Turn.results
  elements_eq : none ∉ turns.flatMap Turn.results →
    Source.elements source =
      (Stream'.Seq.ofList (turns.flatMap Turn.elements)).append (Source.elements final)

theorem elements_borrowed (source : σ) :
    Source.elements (Borrowed.mk source) = Source.elements source := by
  apply Stream'.Seq.ext
  intro index
  apply Option.ext
  intro element
  simp only [Source.get?_elements_eq_some_iff, Borrowed.pulls_eq]

/-- Requests of which none met the end have given the first elements. -/
theorem elements_of_pulls (count : Nat) (source : σ)
    (unended : none ∉ successes (Source.pulls count source).1) :
    Source.elements source =
      (Stream'.Seq.ofList (successes (Source.pulls count source).1).reduceOption).append
        (Source.elements (Source.pulls count source).2) := by
  induction count generalizing source with
  | zero => exact (Stream'.Seq.nil_append _).symm
  | succ count inductionHypothesis =>
      rw [Source.pulls_succ] at unended ⊢
      rcases asked : Source.pull source with ⟨answer, rest⟩
      rw [asked] at unended
      match answer with
      | .ok none => exact absurd List.mem_cons_self unended
      | .ok (some element) =>
          have later := inductionHypothesis rest fun ended => unended (List.mem_cons_of_mem _ ended)
          rw [Source.elements_of_element asked, later, ← Stream'.Seq.cons_append,
            ← Stream'.Seq.ofList_cons]
          rfl
      | .error failure =>
          rw [Source.elements_of_error asked]
          exact inductionHypothesis rest unended

namespace Accounted

variable {log : σ → List (Except ε (Option α))}

theorem nil (source : σ) : Accounted log source [] source where
  successes_eq := (List.append_nil _).symm
  elements_eq := fun _ => by
    rw [List.flatMap_nil, Stream'.Seq.ofList_nil, Stream'.Seq.nil_append]

theorem append {source middle final : σ} {turns later : List (Turn α)}
    (first : Accounted log source turns middle) (rest : Accounted log middle later final) :
    Accounted log source (turns ++ later) final where
  successes_eq := by
    rw [rest.successes_eq, first.successes_eq, List.flatMap_append, List.append_assoc]
  elements_eq := by
    intro unended
    rw [List.flatMap_append, List.mem_append, not_or] at unended
    rw [first.elements_eq unended.1, rest.elements_eq unended.2, List.flatMap_append,
      Stream'.Seq.ofList_append, Stream'.Seq.append_assoc]

/-- Direct requests. -/
theorem requests (logs : Source.Logs log) (count : Nat) (source : σ) :
    Accounted log source [.requests (successes (Source.pulls count source).1)]
      (Source.pulls count source).2 where
  successes_eq := by
    rw [logs.pulls, successes_append, List.flatMap_singleton, Turn.results]
  elements_eq := by
    intro unended
    rw [List.flatMap_singleton, Turn.results] at unended
    rw [List.flatMap_singleton, Turn.elements]
    exact elements_of_pulls count source unended

theorem refused (logs : Source.Logs log) {source left : σ} {failure : ε}
    (started : Cursor.ofSource (α := α) source = .error (failure, left)) :
    Accounted log source [.refused] left where
  successes_eq := by
    rw [logs.of_pull (Cursor.pull_of_refused started), successes_append]
    rfl
  elements_eq := fun _ => by
    rw [Source.elements_of_error (Cursor.pull_of_refused started), List.flatMap_singleton,
      Turn.elements, Stream'.Seq.ofList_nil, Stream'.Seq.nil_append]

theorem cursor (logs : Source.Logs log) {source : σ} {start cursor : Cursor σ α}
    (started : Cursor.ofSource source = .ok start) (used : Used start cursor) :
    Accounted log source
      [.cursor ((Source.elements source).take cursor.position) cursor.ahead] cursor.source := by
  rcases used.logged logs (Cursor.logged_of_started logs started) with
    ⟨taken, counted, whole, grown⟩
  have front : (Source.elements source).take cursor.position = taken := by
    rw [counted, whole, take_run_append]
  rw [front]
  constructor
  · rw [grown, List.flatMap_singleton]
  · intro unended
    rw [List.flatMap_singleton, Turn.results] at unended
    rw [List.flatMap_singleton, Turn.elements]
    cases present : cursor.ahead with
    | none =>
        rw [present] at unended
        exact absurd (List.mem_append_right _ (List.mem_singleton_self _)) unended
    | some element =>
        rw [whole, Cursor.remaining_of_ahead present, Option.toList_some,
          Stream'.Seq.ofList_append, Stream'.Seq.append_assoc, Stream'.Seq.ofList_cons,
          Stream'.Seq.ofList_nil, Stream'.Seq.cons_append, Stream'.Seq.nil_append]

theorem of_borrowed {source : σ} {turns : List (Turn α)} {lent : Borrowed σ}
    (within : Accounted (fun lent : Borrowed σ => log lent.source) ⟨source⟩ turns lent) :
    Accounted log source turns lent.source where
  successes_eq := within.successes_eq
  elements_eq := by
    intro unended
    rw [← elements_borrowed source, ← elements_borrowed lent.source]
    exact within.elements_eq unended

end Accounted

end Accounts

section Turns

variable {σ ε α : Type} [Source σ ε α]

/-- Turn by turn, and inside a loan as well as outside, nothing else is taken. -/
theorem Turns.accounted {source final : σ} {turns : List (Turn α)}
    (taken : Turns source turns final) {log : σ → List (Except ε (Option α))}
    (logs : Source.Logs log) : Accounted log source turns final := by
  induction taken with
  | done source => exact .nil source
  | requests count _ inductionHypothesis =>
      exact (Accounted.requests logs count _).append (inductionHypothesis logs)
  | refused started _ inductionHypothesis =>
      exact (Accounted.refused logs started).append (inductionHypothesis logs)
  | cursor started used _ inductionHypothesis =>
      exact (Accounted.cursor logs started used).append (inductionHypothesis logs)
  | borrowed _ _ insideHypothesis laterHypothesis =>
      exact (insideHypothesis (logs_borrowed logs)).of_borrowed.append (laterHypothesis logs)

theorem reduceOption_results (turns : List (Turn α)) :
    (turns.flatMap Turn.results).reduceOption = turns.flatMap Turn.elements := by
  induction turns with
  | nil => rfl
  | cons turn turns inductionHypothesis =>
      rw [List.flatMap_cons, List.reduceOption_append, inductionHypothesis, List.flatMap_cons]
      apply congrArg (· ++ turns.flatMap Turn.elements)
      cases turn with
      | requests given => rfl
      | refused => rfl
      | cursor taken ahead =>
          rw [Turn.results, Turn.elements, List.reduceOption_append, List.reduceOption_singleton,
            List.reduceOption, List.filterMap_map, Function.id_comp, List.filterMap_some]

/-- The successful answers of a source are what its turns took, in order: the answers to direct
requests, and for each cursor the elements that it took and one answer more, which is what was
ahead of it in the end.  So each element belongs to one turn.  If no turn met the end, all of
these are the first elements that the source had, and the next turn has those that follow. -/
theorem Turns.successes_eq_results {source final : Recorded σ ε α} {turns : List (Turn α)}
    (taken : Turns source turns final) :
    successes final.answers = successes source.answers ++ turns.flatMap Turn.results ∧
      (successes final.answers).reduceOption =
        (successes source.answers).reduceOption ++ turns.flatMap Turn.elements ∧
      (none ∉ turns.flatMap Turn.results →
        Source.elements source =
          (Stream'.Seq.ofList (turns.flatMap Turn.elements)).append (Source.elements final)) := by
  have accounted := taken.accounted Recorded.logs
  refine ⟨accounted.successes_eq, ?_, accounted.elements_eq⟩
  rw [accounted.successes_eq, List.reduceOption_append, reduceOption_results]

/-- A script that fails at first, fails again between two characters, and goes on after an
end. -/
def contested : Recorded (Script String Char) String Char :=
  ⟨⟨[.error "late", .ok (some 'a'), .ok (some 'b'), .error "again", .ok (some 'c'), .ok none,
    .ok (some 'd'), .ok none]⟩, []⟩

/-- What is left of it when all but its last answer have been given. -/
def contestedLate : Recorded (Script String Char) String Char :=
  ⟨⟨[.ok none]⟩, [.error "late", .ok (some 'a'), .ok (some 'b'), .error "again", .ok (some 'c'),
    .ok none, .ok (some 'd')]⟩

/-- A cursor is refused, one over the borrowed source fails and loses a character, a text cursor
meets the end and loses none, and the next request is answered with what follows.  Before the
end was met, the first characters were gone and the others were left. -/
theorem Turns.successes_eq_results_contested :
    (∃ turns, Turns contested turns contestedLate ∧
      turns.flatMap Turn.results = [some 'a', some 'b', some 'c', none, some 'd']) ∧
    (∃ turns, Turns contested turns (Source.pulls 4 contested).2 ∧
      none ∉ turns.flatMap Turn.results ∧
      Source.elements contested = (Stream'.Seq.ofList ['a', 'b']).append
        (Source.elements (Source.pulls 4 contested).2)) := by
  have request : Turns (Source.pulls 6 contested).2 _ contestedLate := .requests 1 (.done _)
  let begun : TextCursor (Recorded (Script String Char) String Char) :=
    ⟨⟨(Source.pulls 5 contested).2, some 'c', 0⟩⟩
  let ended : TextCursor (Recorded (Script String Char) String Char) :=
    ⟨⟨(Source.pulls 6 contested).2, none, 1⟩⟩
  have wholly : begun.Call (.ok (.string "c")) ended := ⟨2, .takeAll, rfl⟩
  have began : Cursor.ofSource (Source.pulls 4 contested).2 = .ok begun.cursor := rfl
  have text : Turns (Source.pulls 4 contested).2 _ contestedLate :=
    .cursor began (.asText .refl (Run.refl.step wholly)) request
  let start : Cursor (Borrowed (Recorded (Script String Char) String Char)) Char :=
    ⟨⟨(Source.pulls 2 contested).2⟩, some 'a', 0⟩
  let stopped : Cursor (Borrowed (Recorded (Script String Char) String Char)) Char :=
    ⟨⟨(Source.pulls 4 contested).2⟩, some 'b', 1⟩
  have partly : start.Call (.error "again") stopped := ⟨0, .take 5, rfl⟩
  have started : Cursor.ofSource (Borrowed.mk (Source.pulls 1 contested).2) = .ok start := rfl
  have loan : Turns (Borrowed.mk (Source.pulls 1 contested).2) _ stopped.source :=
    .cursor started (.plainly (Run.refl.step partly)) (.done _)
  have turns : Turns contested _ contestedLate := .refused rfl (.borrowed loan text)
  have soon : ∃ turns, Turns contested turns (Source.pulls 4 contested).2 :=
    ⟨_, .refused rfl (.borrowed loan (.done _))⟩
  rcases soon with ⟨before, early⟩
  rcases Turns.successes_eq_results early with ⟨results, elements, whole⟩
  have answers : [some 'a', some 'b'] = before.flatMap Turn.results := results
  have characters : ['a', 'b'] = before.flatMap Turn.elements := elements
  have unended : none ∉ [some 'a', some 'b'] := by decide
  rw [answers] at unended
  refine ⟨⟨_, turns, (Turns.successes_eq_results turns).1.symm⟩, before, early, unended, ?_⟩
  rw [characters]
  exact whole unended

end Turns

end ForwardCursor
