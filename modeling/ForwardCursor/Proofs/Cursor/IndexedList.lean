import ForwardCursor.Proofs.Cursor.Operation
import ForwardCursor.Proofs.Cursor.Traversal
import ForwardCursor.Source.Script

namespace ForwardCursor

/-!
# A cursor is a list with an index

A cursor over any source behaves like the list of the elements of that source with
an index into it.  The index is the position, the element ahead is the one at the
index, and the end is reached exactly when the index is the length of the list.  An
operation moves the index forward, never past the length, and if it succeeds it
gives out exactly the elements between the two indices.

The list is fixed when the cursor is started.  The source may fail at any request
and may have elements again after its end, and the list may be infinite.
-/

/-! ## A finite run in front of a list -/

section Lists

variable {α : Type}

theorem drop_run_append (run : List α) (rest : Stream'.Seq α) :
    ((Stream'.Seq.ofList run).append rest).drop run.length = rest := by
  induction run with
  | nil => rw [Stream'.Seq.ofList_nil, Stream'.Seq.nil_append]; rfl
  | cons element run inductionHypothesis =>
      rw [Stream'.Seq.ofList_cons, Stream'.Seq.cons_append, List.length_cons,
        Stream'.Seq.drop_succ_cons]
      exact inductionHypothesis

theorem take_run_append (run : List α) (rest : Stream'.Seq α) :
    ((Stream'.Seq.ofList run).append rest).take run.length = run := by
  induction run with
  | nil => rfl
  | cons element run inductionHypothesis =>
      rw [Stream'.Seq.ofList_cons, Stream'.Seq.cons_append, List.length_cons,
        Stream'.Seq.take_succ_cons, inductionHypothesis]

/-- A list that is no longer than what is taken of it. -/
theorem take_ofList (run : List α) {count : Nat} (short : run.length ≤ count) :
    (Stream'.Seq.ofList run).take count = run := by
  apply List.ext_getElem?
  intro index
  rw [Stream'.Seq.getElem?_take, Stream'.Seq.ofList_get?]
  split
  · rfl
  · next beyond => rw [List.getElem?_eq_none (Nat.le_trans short (Nat.le_of_not_lt beyond))]

theorem length'_run_append (run : List α) (rest : Stream'.Seq α) :
    ((Stream'.Seq.ofList run).append rest).length' = run.length + rest.length' := by
  induction run with
  | nil => simp
  | cons element run inductionHypothesis =>
      rw [Stream'.Seq.ofList_cons, Stream'.Seq.cons_append, Stream'.Seq.length'_cons,
        inductionHypothesis, List.length_cons, Nat.cast_succ, add_right_comm]

end Lists

namespace Cursor

variable {σ ε α : Type} [Source σ ε α]

/-- The cursor stands in a list at the index that is its position. -/
structure StandsIn (cursor : Cursor σ α) (elements : Stream'.Seq α) : Prop where
  ahead_eq : cursor.ahead = elements.get? cursor.position
  atEnd_iff : cursor.atEnd = true ↔ (cursor.position : ℕ∞) = elements.length'
  position_le : (cursor.position : ℕ∞) ≤ elements.length'

/-- What an answer says about the run that was passed over.  A single step passes over
the element ahead, if there is one. -/
def Answer.Gives (ahead : Option α) (run : List α) : Answer α → Prop
  | .element given => given = ahead ∧ run = ahead.toList
  | .done => run = ahead.toList
  | .count passed => passed = run.length
  | .elements taken => taken.toList = run

/-! ## Operations -/

theorem exists_ok_of_map_ok {ε β γ : Type} {f : β → γ} {answer : Except ε β} {value : γ}
    (mapped : answer.map f = .ok value) : ∃ inner, answer = .ok inner ∧ value = f inner := by
  cases answer with
  | ok inner => exact ⟨inner, rfl, (Except.ok.inj mapped).symm⟩
  | error failure => cases mapped

theorem skip_passes (cursor : Cursor σ α) :
    ∃ run, Passes cursor run cursor.skip.2 ∧
      ∀ given, cursor.skip.1 = .ok given → run = cursor.ahead.toList := by
  rcases cursor.next_passes with ⟨run, passes, gives⟩
  refine ⟨run, passes, ?_⟩
  intro given answer
  rcases exists_ok_of_map_ok answer with ⟨element, stepped, _⟩
  rcases gives element stepped with ⟨same, single⟩
  rw [single, same]

theorem drop_passes (count : Nat) (cursor : Cursor σ α) :
    ∃ run, Passes cursor run (cursor.drop count).2 ∧
      ∀ passed, (cursor.drop count).1 = .ok passed → passed = run.length := by
  rcases advance_passes count cursor with ⟨run, passes⟩
  refine ⟨run, passes, ?_⟩
  intro passed answer
  rcases exists_ok_of_map_ok answer with ⟨_, _, same⟩
  exact same.trans passes.length_run.symm

theorem toList_foldl_push (run : List α) : (run.foldl Array.push #[]).toList = run := by
  rw [List.foldl_push_eq_append', Array.toList_append, Array.toList_empty, List.nil_append]

theorem take_passes (count : Nat) (cursor : Cursor σ α) :
    ∃ run, Passes cursor run (cursor.take count).2 ∧
      ∀ taken, (cursor.take count).1 = .ok taken → taken.toList = run := by
  rcases foldTake_passes Array.push count #[] cursor with ⟨run, passes, pushed⟩
  refine ⟨run, passes, ?_⟩
  intro taken answer
  rw [pushed taken answer, toList_foldl_push]

theorem takeUntilWith_passes {τ : Type} {test : τ → α → Bool × τ} {rounds : Nat}
    {state last : τ} {cursor after : Cursor σ α} {answer : Except ε (Array α)}
    (finished : cursor.takeUntilWith rounds test state = some (answer, last, after)) :
    ∃ run, Passes cursor run after ∧ ∀ taken, answer = .ok taken → taken.toList = run := by
  rcases foldUntil_passes test Array.push finished with ⟨run, passes, pushed⟩
  refine ⟨run, passes, ?_⟩
  intro taken given
  rw [pushed taken given, toList_foldl_push]

theorem takeUntil_passes {predicate : α → Bool} {rounds : Nat} {cursor after : Cursor σ α}
    {answer : Except ε (Array α)}
    (finished : cursor.takeUntil rounds predicate = some (answer, after)) :
    ∃ run, Passes cursor run after ∧ ∀ taken, answer = .ok taken → taken.toList = run := by
  rcases Option.map_eq_some_iff.mp finished with ⟨⟨inner, last, left⟩, stopped, same⟩
  cases same
  exact takeUntilWith_passes stopped

/-- Every operation passes over a run, and a successful one answers with that run. -/
theorem perform_passes {rounds : Nat} {operation : Operation α} {cursor after : Cursor σ α}
    {answer : Except ε (Answer α)}
    (performed : cursor.perform rounds operation = some (answer, after)) :
    ∃ run, Passes cursor run after ∧
      ∀ given, answer = .ok given → given.Gives cursor.ahead run := by
  -- An answer comes from the answer of the method, which is of a narrower type.
  have lift : ∀ {β : Type} {inner : Except ε β} {wrap : β → Answer α} {run : List α},
      (∀ value, inner = .ok value → (wrap value).Gives cursor.ahead run) →
      ∀ given, inner.map wrap = .ok given → given.Gives cursor.ahead run := by
    intro β inner wrap run gives given mapped
    rcases exists_ok_of_map_ok mapped with ⟨value, succeeded, rfl⟩
    exact gives value succeeded
  cases operation with
  | next =>
      cases performed
      rcases cursor.next_passes with ⟨run, passes, gives⟩
      refine ⟨run, passes, lift ?_⟩
      intro element stepped
      rcases gives element stepped with ⟨same, single⟩
      exact ⟨same, same ▸ single⟩
  | skip =>
      cases performed
      rcases cursor.skip_passes with ⟨run, passes, gives⟩
      exact ⟨run, passes, lift gives⟩
  | drop count =>
      cases performed
      rcases cursor.drop_passes count with ⟨run, passes, gives⟩
      exact ⟨run, passes, lift gives⟩
  | take count =>
      cases performed
      rcases cursor.take_passes count with ⟨run, passes, gives⟩
      exact ⟨run, passes, lift gives⟩
  | takeUntilWith test state =>
      rcases Option.map_eq_some_iff.mp performed with ⟨⟨inner, last, left⟩, finished, same⟩
      cases same
      rcases takeUntilWith_passes finished with ⟨run, passes, gives⟩
      exact ⟨run, passes, lift gives⟩
  | takeTo equality target =>
      rcases Option.map_eq_some_iff.mp performed with ⟨⟨inner, left⟩, finished, same⟩
      cases same
      rcases takeUntil_passes finished with ⟨run, passes, gives⟩
      exact ⟨run, passes, lift gives⟩
  | takeAll =>
      rcases Option.map_eq_some_iff.mp performed with ⟨⟨inner, left⟩, finished, same⟩
      cases same
      rcases takeUntil_passes finished with ⟨run, passes, gives⟩
      exact ⟨run, passes, lift gives⟩

/-! ## Runs -/

theorem Reaches.passes {start cursor : Cursor σ α} (reached : Reaches start cursor) :
    ∃ run, Passes start run cursor := by
  induction reached with
  | refl => exact ⟨[], Passes.refl start⟩
  | step _ performed inductionHypothesis =>
      rcases inductionHypothesis with ⟨run, passes⟩
      rcases perform_passes performed with ⟨later, further, _⟩
      exact ⟨run ++ later, passes.trans further⟩

theorem ofSource_start {source : σ} {start : Cursor σ α}
    (started : ofSource source = .ok start) :
    start.remaining = Source.elements source ∧ start.position = 0 := by
  rcases eq_of_started started with ⟨answered, zero⟩
  exact ⟨remaining_of_pull start.position answered, zero⟩

/-- A cursor stands in any list that its elements remaining complete. -/
theorem standsIn_of_append {cursor : Cursor σ α} {taken : List α}
    (counted : cursor.position = taken.length) :
    cursor.StandsIn ((Stream'.Seq.ofList taken).append cursor.remaining) where
  ahead_eq := by
    rw [← Stream'.Seq.head_dropn, counted, drop_run_append, head_remaining]
  atEnd_iff := by
    rw [atEnd_iff, ← remaining_eq_nil_iff, ← Stream'.Seq.length'_eq_zero_iff_nil,
      length'_run_append, counted]
    constructor
    · intro ended
      rw [ended, add_zero]
    · intro same
      apply ENat.add_right_injective_of_ne_top (ENat.natCast_ne_top taken.length)
      exact same.symm.trans (add_zero _).symm
  position_le := by
    rw [length'_run_append, counted]
    exact le_self_add

/-- What a run has taken, followed by what remains, is the list of the source. -/
theorem Reaches.exists_taken {source : σ} {start cursor : Cursor σ α}
    (started : ofSource source = .ok start) (reached : Reaches start cursor) :
    ∃ taken : List α, cursor.position = taken.length ∧
      Source.elements source = (Stream'.Seq.ofList taken).append cursor.remaining := by
  rcases reached.passes with ⟨taken, passes⟩
  rcases ofSource_start started with ⟨whole, zero⟩
  refine ⟨taken, ?_, ?_⟩
  · rw [passes.position_eq, zero, Nat.zero_add]
  · rw [← whole, passes.remaining_eq]

/-- After any run the cursor stands in the list of its source, and every operation
moves it over a run of that list.  The run is what the operation answers with, if it
succeeds. -/
theorem stands_in_elements {source : σ} {start cursor : Cursor σ α}
    (started : ofSource source = .ok start) (reached : Reaches start cursor) :
    cursor.StandsIn (Source.elements source) ∧
      ∀ {rounds : Nat} {operation : Operation α} {answer : Except ε (Answer α)}
        {after : Cursor σ α}, cursor.perform rounds operation = some (answer, after) →
        after.StandsIn (Source.elements source) ∧
          ∃ run, after.position = cursor.position + run.length ∧
            run = ((Source.elements source).drop cursor.position).take
              (after.position - cursor.position) ∧
            ∀ given, answer = .ok given →
              given.Gives ((Source.elements source).get? cursor.position) run := by
  rcases reached.exists_taken started with ⟨taken, counted, whole⟩
  have stands : cursor.StandsIn (Source.elements source) := by
    rw [whole]
    exact standsIn_of_append counted
  refine ⟨stands, ?_⟩
  intro rounds operation answer after performed
  rcases (reached.step performed).exists_taken started with ⟨later, countedLater, wholeLater⟩
  rcases perform_passes performed with ⟨run, passes, gives⟩
  refine ⟨?_, run, passes.position_eq, ?_, ?_⟩
  · rw [wholeLater]
    exact standsIn_of_append countedLater
  · rw [whole, counted, drop_run_append, passes.remaining_eq, ← counted, ← passes.length_run,
      take_run_append]
  · rw [← stands.ahead_eq]
    exact gives

/-- A script whose second request fails and which goes on after its end. -/
def faltering : Script String Nat :=
  ⟨[.ok (some 1), .error "late", .ok (some 2), .ok none, .ok (some 3)]⟩

theorem stands_in_elements_faltering :
    ofSource faltering = .ok ⟨⟨faltering.answers.drop 1⟩, some 1, 0⟩ ∧
      Reaches (⟨⟨faltering.answers.drop 1⟩, some 1, 0⟩ : Cursor (Script String Nat) Nat)
        ⟨⟨faltering.answers.drop 2⟩, some 1, 0⟩ ∧
      (⟨⟨faltering.answers.drop 4⟩, none, 2⟩ : Cursor (Script String Nat) Nat).StandsIn
        (Source.elements faltering) ∧
      ((Source.elements faltering).drop 0).take 2 = [1, 2] := by
  have started : ofSource faltering = .ok ⟨⟨faltering.answers.drop 1⟩, some 1, 0⟩ := rfl
  have failed : (⟨⟨faltering.answers.drop 1⟩, some 1, 0⟩ : Cursor (Script String Nat) Nat).perform
      0 (.take 2) = some (.error "late", ⟨⟨faltering.answers.drop 2⟩, some 1, 0⟩) := rfl
  have reached := Reaches.refl.step failed
  have performed : (⟨⟨faltering.answers.drop 2⟩, some 1, 0⟩ : Cursor (Script String Nat) Nat).perform
      0 (.take 5) = some (.ok (.elements #[1, 2]), ⟨⟨faltering.answers.drop 4⟩, none, 2⟩) := rfl
  rcases (stands_in_elements started reached).2 performed with ⟨stands, run, _, same, gives⟩
  refine ⟨started, reached, stands, ?_⟩
  exact same.symm.trans (gives _ rfl).symm

end Cursor
end ForwardCursor
