import ForwardCursor.Proofs.Cursor.Failing
import ForwardCursor.Proofs.Text.Boundary
import Mathlib.Data.ENat.Lattice

namespace ForwardCursor

/-!
# Counting and taking

To take a number of elements and to pass over them are different repetitions.  Passing over looks
for the end before each step, and taking finds out about it by a step that gives nothing.  The
number of elements passed over is a difference of positions, and what is taken is collected.
Still the two cannot be told apart by what they leave behind, by the requests that they make, or
by their failures, and the number is that of the elements taken.

Counts can be added.  To take some elements, and then some more if this has not failed, is to take
all of them at once.

If there is no failure among the next requests, as many elements are taken as were asked for,
or as there are.
-/

/-- One operation, and if it has succeeded another one on what it leaves.  What the two give out
is joined, and the first failure is the answer. -/
def andThen {S ε β γ δ : Type} (join : β → γ → δ) (first : S → Except ε β × S)
    (second : S → Except ε γ × S) (state : S) : Except ε δ × S :=
  match first state with
  | (.ok given, middle) => ((second middle).1.map (join given), (second middle).2)
  | (.error failure, after) => (.error failure, after)

/-- If two operations do the same as two others but for what they give out, then they do so one
after the other as well. -/
theorem andThen_eq {S T ε β γ : Type} {join : β → β → β} {joined : γ → γ → γ}
    {first second : S → Except ε β × S} {one other : T → Except ε γ × T} {seen : β → γ}
    (view : S → T)
    (ones : ∀ state, one (view state) = ((first state).1.map seen, view (first state).2))
    (others : ∀ state, other (view state) = ((second state).1.map seen, view (second state).2))
    (joins : ∀ given more, seen (join given more) = joined (seen given) (seen more)) (state : S) :
    andThen joined one other (view state) =
      ((andThen join first second state).1.map seen, view (andThen join first second state).2) := by
  rw [andThen, andThen, ones]
  cases first state with
  | mk answer middle =>
      cases answer with
      | ok given =>
          simp only [Except.map, others]
          cases (second middle).1 with
          | ok more => simp only [joins]
          | error failure => rfl
      | error failure => rfl

/-- Two ways to count elements off in a state: to take them, and to pass over them. -/
structure CountsOff {S σ ε α β : Type} [Source σ ε α] [Append β] (toList : β → List α)
    (take : Nat → S → Except ε β × S) (drop : Nat → S → Except ε Nat × S) (source : σ)
    (remaining : Stream'.Seq α) (state : S) : Prop where
  /-- Passing over elements is taking them and giving out their number. -/
  drop_eq : ∀ count,
    drop count state = ((take count state).1.map fun given => (toList given).length,
      (take count state).2)
  take_add : ∀ first second,
    take (first + second) state = andThen (· ++ ·) (take first) (take second) state
  drop_add : ∀ first second,
    drop (first + second) state = andThen (· + ·) (drop first) (drop second) state
  /-- Only a request that fails can keep the elements from being taken. -/
  takes : ∀ count, (∀ failure, .error failure ∉ (Source.pulls count source).1) →
    ∃ given after, take count state = (.ok given, after) ∧ toList given = remaining.take count ∧
      ((toList given).length : ℕ∞) = min (count : ℕ∞) remaining.length'

namespace Cursor

variable {σ ε α β : Type} [Source σ ε α]

/-! ## Taking with another collection -/

/-- Whatever elements are pushed to, they are those that are taken. -/
theorem foldTake_eq_take (push : β → α → β) (count : Nat) (start : β) (cursor : Cursor σ α) :
    foldTake push count start cursor =
      ((cursor.take count).1.map fun elements => elements.toList.foldl push start,
        (cursor.take count).2) := by
  have pushes : ∀ (taken : β) (elements : Array α) (element : α),
      taken = elements.toList.foldl push start →
      push taken element = (elements.push element).toList.foldl push start := by
    rintro _ elements element rfl
    rw [Array.toList_push, List.foldl_append]
    rfl
  have nothing : start = (#[] : Array α).toList.foldl push start := rfl
  have together :=
    foldTake_abreast Source.answerAlike_eq pushes count nothing (abreast_rfl cursor)
  rcases together.cases with
    ⟨taken, elements, after, other, pushed, collected, same, afters⟩ |
    ⟨failure, failed, after, other, pushed, collected, rfl, afters⟩
  · cases afters.eq
    rw [pushed, take, collected, same]
    rfl
  · cases afters.eq
    rw [pushed, take, collected]
    rfl

theorem drop_eq_take (count : Nat) (cursor : Cursor σ α) :
    cursor.drop count =
      ((cursor.take count).1.map fun elements => elements.toList.length,
        (cursor.take count).2) := by
  rw [drop, advance_eq_foldTake, foldTake_eq_take]
  rcases cursor.take_passes count with ⟨run, passes, gives⟩
  cases taken : cursor.take count with
  | mk answer after =>
      cases answer with
      | ok elements =>
          rw [taken] at passes gives
          have counted := passes.length_run
          rw [← gives elements rfl] at counted
          simp only [Except.map, counted]
      | error failure => rfl

/-! ## Adding counts -/

theorem foldTake_add (push : β → α → β) (first second : Nat) (start : β) (cursor : Cursor σ α) :
    foldTake push (first + second) start cursor =
      match foldTake push first start cursor with
      | (.ok taken, middle) => foldTake push second taken middle
      | (.error failure, after) => (.error failure, after) := by
  induction first generalizing start cursor with
  | zero => rw [Nat.zero_add]; rfl
  | succ first inductionHypothesis =>
      rw [Nat.succ_add]
      rcases cursor.next_cases with ⟨ended, _⟩ | ⟨element, ahead, rest, _, _, stepped⟩ |
        ⟨_, failure, rest, _, _, stepped⟩
      · -- At the end the second count finds nothing either.
        simp only [foldTake_of_end push _ start ended]
      · simp only [foldTake, stepped]
        exact inductionHypothesis (push start element) _
      · simp only [foldTake, stepped]

theorem take_add (first second : Nat) (cursor : Cursor σ α) :
    cursor.take (first + second) = andThen (· ++ ·) (take first) (take second) cursor := by
  rw [take, foldTake_add, ← take, andThen]
  cases cursor.take first with
  | mk answer middle =>
      cases answer with
      | ok elements =>
          simp only [foldTake_eq_take Array.push second elements, List.foldl_push_eq_append',
            Array.toArray_toList]
      | error failure => rfl

theorem drop_add (first second : Nat) (cursor : Cursor σ α) :
    cursor.drop (first + second) = andThen (· + ·) (drop first) (drop second) cursor := by
  have lengths : ∀ given more : Array α,
      (given ++ more).toList.length = given.toList.length + more.toList.length := by
    intro given more
    rw [Array.toList_append, List.length_append]
  rw [drop_eq_take, take_add]
  exact (andThen_eq id (drop_eq_take first) (drop_eq_take second) lengths cursor).symm

/-! ## Taking without failures -/

/-- A step that fails behind some others makes a request that fails behind theirs. -/
theorem Steps.breaks {cursor stopped after : Cursor σ α} {taken : List α} {failure : ε}
    (steps : Steps cursor taken stopped) (stepped : stopped.next = (.error failure, after)) :
    ∃ given, given.length = taken.length ∧
      Source.Breaks cursor.source given failure after.source := by
  induction steps with
  | refl => exact ⟨[], rfl, .now (pull_of_next_error stepped).1⟩
  | cons moved _ inductionHypothesis =>
      rcases inductionHypothesis stepped with ⟨given, counted, breaks⟩
      exact ⟨_ :: given, congrArg (· + 1) counted, .later (pull_of_next_some moved).2.1 breaks⟩

/-- Counted taking fails because one of the next requests does. -/
theorem Collects.error_mem {count : Nat} {cursor after : Cursor σ α} {taken : List α} {failure : ε}
    (collects : Collects count cursor taken (.error failure : Except ε (List α)) after) :
    .error failure ∈ (Source.pulls count cursor.source).1 := by
  cases collects with
  | failed steps short stepped =>
      rcases steps.breaks stepped with ⟨given, counted, breaks⟩
      rcases Nat.exists_eq_add_of_le (counted ▸ short : given.length + 1 ≤ count) with ⟨more, rfl⟩
      rw [Source.pulls_add, breaks.pulls_eq]
      exact List.mem_append_left _ (List.mem_append_right _ (List.mem_singleton.mpr rfl))

/-- Counted taking that succeeds gives out as many elements as were asked for, or as remained. -/
theorem Collects.length_eq {count : Nat} {cursor after : Cursor σ α} {taken elements : List α}
    (collects : Collects count cursor taken (.ok elements : Except ε (List α)) after) :
    (elements.length : ℕ∞) = min (count : ℕ∞) cursor.remaining.length' := by
  have passes := collects.ends.passes
  cases collects with
  | enough _ counted =>
      rw [passes.remaining_eq, length'_run_append, ← counted, min_eq_left le_self_add]
  | ended _ short absent =>
      have fewer : (taken.length : ℕ∞) ≤ count := Nat.cast_le.mpr (Nat.le_of_lt short)
      rw [passes.remaining_eq, length'_run_append, remaining_of_end absent,
        Stream'.Seq.length'_nil, add_zero, min_eq_right fewer]

theorem countsOff (cursor : Cursor σ α) :
    CountsOff Array.toList take drop cursor.source cursor.remaining cursor where
  drop_eq := fun count => drop_eq_take count cursor
  take_add := fun first second => take_add first second cursor
  drop_add := fun first second => drop_add first second cursor
  takes := by
    intro count unfailing
    rcases foldTake_collects Array.push count #[] cursor with ⟨taken, result, collects, answer⟩
    cases result with
    | ok elements =>
        refine ⟨_, _, Prod.ext answer rfl, ?_, ?_⟩
        · rw [toList_foldl_push, collects.taken_eq]
        · rw [toList_foldl_push, collects.length_eq]
    | error failure => exact absurd collects.error_mem (unfailing failure)

end Cursor

namespace TextCursor

variable {σ ε : Type} [Source σ ε Char]

theorem take_eq (count : Nat) (text : TextCursor σ) :
    text.take count =
      ((text.cursor.take count).1.map fun elements => String.ofList elements.toList,
        ⟨(text.cursor.take count).2⟩) := by
  rw [take, onCursor, Cursor.foldTake_eq_take, foldl_push_eq_ofList]

theorem drop_eq_take (count : Nat) (text : TextCursor σ) :
    text.drop count =
      ((text.take count).1.map fun string => string.toList.length, (text.take count).2) := by
  rw [drop_eq, take_eq, Cursor.drop_eq_take]
  cases (text.cursor.take count).1 with
  | ok elements => simp only [Except.map, String.toList_ofList]
  | error failure => rfl

theorem take_add (first second : Nat) (text : TextCursor σ) :
    text.take (first + second) = andThen (· ++ ·) (take first) (take second) text := by
  have strings : ∀ given more : Array Char, String.ofList (given ++ more).toList =
      String.ofList given.toList ++ String.ofList more.toList := by
    intro given more
    rw [Array.toList_append, String.ofList_append]
  rw [take_eq, Cursor.take_add]
  exact (andThen_eq TextCursor.mk (fun cursor => take_eq first ⟨cursor⟩)
    (fun cursor => take_eq second ⟨cursor⟩) strings text.cursor).symm

theorem drop_add (first second : Nat) (text : TextCursor σ) :
    text.drop (first + second) = andThen (· + ·) (drop first) (drop second) text := by
  have lengths : ∀ given more : String,
      (given ++ more).toList.length = given.toList.length + more.toList.length := by
    intro given more
    rw [String.toList_append, List.length_append]
  rw [drop_eq_take, take_add]
  exact (andThen_eq id (drop_eq_take first) (drop_eq_take second) lengths text).symm

theorem countsOff (text : TextCursor σ) :
    CountsOff String.toList take drop text.source text.cursor.remaining text where
  drop_eq := fun count => drop_eq_take count text
  take_add := fun first second => take_add first second text
  drop_add := fun first second => drop_add first second text
  takes := by
    intro count unfailing
    rcases text.cursor.countsOff.takes count unfailing with ⟨elements, after, taken, same, counted⟩
    refine ⟨String.ofList elements.toList, ⟨after⟩, ?_, ?_, ?_⟩
    · rw [take_eq, taken]
      rfl
    · rw [String.toList_ofList, same]
    · rw [String.toList_ofList, counted]

end TextCursor

section Counts

variable {σ ρ ε φ α : Type} [Source σ ε α] [Source ρ φ Char]

/-- On both kinds of cursor, passing over elements leaves the same as taking them, fails if that
fails and with the same failure, and otherwise gives their number.  The source is the same
afterwards, also one that counts its requests.  Taking or passing over twice is doing so once with
the sum of the counts, whether or not there is a failure.  If the next requests do not fail, the
elements taken are as many as were asked for, or all that remained. -/
theorem counted_operations_compose (cursor : Cursor σ α) (text : TextCursor ρ) :
    CountsOff Array.toList Cursor.take Cursor.drop cursor.source cursor.remaining cursor ∧
      CountsOff String.toList TextCursor.take TextCursor.drop text.source text.cursor.remaining
        text :=
  ⟨cursor.countsOff, text.countsOff⟩

/-- A source that counts its requests and fails once.  One of its elements has been asked for. -/
def stumbling : Counted (Script String Nat) :=
  ⟨⟨[.ok (some 2), .error "late", .ok (some 3), .ok none]⟩, 1⟩

theorem counted_operations_compose_stumbling :
    let start : Cursor (Counted (Script String Nat)) Nat := ⟨stumbling, some 1, 0⟩
    let stopped := (start.take 2).2
    (start.take 2 = (.error "late", stopped) ∧ start.drop 2 = (.error "late", stopped) ∧
        stopped.source.pulls = 3) ∧
      stopped.take (1 + 1) = andThen (· ++ ·) (Cursor.take 1) (Cursor.take 1) stopped ∧
      stopped.drop 2 = (.ok 2, (stopped.take 2).2) ∧
      (∃ given after, stopped.take 5 = (.ok given, after) ∧
        given.toList = stopped.remaining.take 5 ∧
        (given.toList.length : ℕ∞) = min ((5 : ℕ) : ℕ∞) stopped.remaining.length') ∧
      (TextCursor.ofString "abc").drop 2 = (.ok 2, ⟨⟨[], some 'c', 2⟩⟩) := by
  intro start stopped
  rcases counted_operations_compose start (TextCursor.ofString "abc") with ⟨counts, inText⟩
  have again := (counted_operations_compose stopped (TextCursor.ofString "abc")).1
  have unfailing : ∀ failure, .error failure ∉ (Source.pulls 5 stopped.source).1 := by
    intro failure failed
    have answers : (Source.pulls 5 stopped.source).1 =
        [.ok (some 3), .ok none, .ok none, .ok none, .ok none] := rfl
    rw [answers] at failed
    simp at failed
  exact ⟨⟨rfl, counts.drop_eq 2, rfl⟩, again.take_add 1 1, again.drop_eq 2, again.takes 5 unfailing,
    inText.drop_eq 2⟩

end Counts

end ForwardCursor
