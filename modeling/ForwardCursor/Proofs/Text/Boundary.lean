import ForwardCursor.Proofs.Cursor.Abreast
import ForwardCursor.Proofs.Cursor.IndexedList
import ForwardCursor.Proofs.Text.Lines

namespace ForwardCursor

/-!
# The questions of a bounded operation

Where a bounded operation stops is a matter of its steps.  Here this is seen from the list of
the elements that remained: those taken are the first ones of the list, and the test is asked
about the first ones of the list too, in order and once each.  It may be asked about one
element more than is taken, and about none after that.

What the test has been asked is put on record by the test itself, in a second component of
its state.  That the record changes nothing is what makes it a fair witness.

The operations of text cursors are the same repetition with another collection, so both kinds
of cursor have the same theorem.  To stop at a target is to stop with a test that has no
state.  It compares with the target and takes no property of equality for granted.
-/

namespace Cursor

variable {σ ε α β τ : Type} [Source σ ε α]

/-! ## The record of a test -/

theorem recording_eq_iff {test : τ → α → Bool × τ} {state later : τ × List α} {element : α}
    {accepted : Bool} :
    recording test state element = (accepted, later) ↔
      test state.1 element = (accepted, later.1) ∧ later.2 = state.2 ++ [element] := by
  rcases state with ⟨state, asked⟩
  rcases later with ⟨later, record⟩
  rcases answered : test state element with ⟨answer, last⟩
  simp only [recording, answered, Prod.mk.injEq]
  constructor
  · rintro ⟨rfl, rfl, rfl⟩
    exact ⟨⟨rfl, rfl⟩, rfl⟩
  · rintro ⟨⟨rfl, rfl⟩, rfl⟩
    exact ⟨rfl, rfl, rfl⟩

theorem refuses_recording {test : τ → α → Bool × τ} {state last : τ × List α} {elements : List α} :
    Refuses (recording test) state elements last ↔
      Refuses test state.1 elements last.1 ∧ last.2 = state.2 ++ elements := by
  induction elements generalizing state with
  | nil =>
      constructor
      · intro refused
        cases refused
        exact ⟨.nil _, (List.append_nil _).symm⟩
      · rcases state with ⟨state, asked⟩
        rcases last with ⟨last, record⟩
        rintro ⟨refused, grown⟩
        cases refused
        cases grown.trans (List.append_nil asked)
        exact .nil _
  | cons element elements inductionHypothesis =>
      constructor
      · intro refused
        cases refused with
        | cons first rest =>
            rcases recording_eq_iff.mp first with ⟨first, noted⟩
            rcases inductionHypothesis.mp rest with ⟨rest, grown⟩
            refine ⟨.cons first rest, ?_⟩
            rw [grown, noted, List.append_assoc, List.singleton_append]
      · rintro ⟨refused, grown⟩
        cases refused with
        | @cons _ later _ _ _ first rest =>
            have noted : recording test state element = (false, later, state.2 ++ [element]) :=
              recording_eq_iff.mpr ⟨first, rfl⟩
            refine .cons noted (inductionHypothesis.mpr ⟨rest, ?_⟩)
            rw [grown, List.append_assoc, List.singleton_append]

/-- The record of a test that starts without one is the list of the elements that the test is
asked about. -/
theorem stops_recording {test : τ → α → Bool × τ} {state : τ} {last : τ × List α}
    {cursor after : Cursor σ α} {taken asked : List α} {result : Except ε (List α)} :
    Stops (recording test) (state, []) cursor taken asked result last after ↔
      Stops test state cursor taken asked result last.1 after ∧ last.2 = asked := by
  constructor
  · intro stops
    cases stops with
    | accepted steps refused present accepted =>
        rcases refuses_recording.mp refused with ⟨earlier, record⟩
        rcases recording_eq_iff.mp accepted with ⟨answered, noted⟩
        exact ⟨.accepted steps earlier present answered, noted.trans (congrArg (· ++ _) record)⟩
    | ended steps refused absent =>
        rcases refuses_recording.mp refused with ⟨earlier, record⟩
        exact ⟨.ended steps earlier absent, record⟩
    | failed steps refused present next stepped =>
        rcases refuses_recording.mp refused with ⟨earlier, record⟩
        rcases recording_eq_iff.mp next with ⟨answered, noted⟩
        exact ⟨.failed steps earlier present answered stepped,
          noted.trans (congrArg (· ++ _) record)⟩
  · rintro ⟨stops, record⟩
    cases stops with
    | @accepted later _ _ _ steps refused present accepted =>
        have earlier : Refuses (recording test) (state, []) taken (later, taken) :=
          refuses_recording.mpr ⟨refused, rfl⟩
        exact .accepted steps earlier present (recording_eq_iff.mpr ⟨accepted, record⟩)
    | ended steps refused absent =>
        exact .ended steps (refuses_recording.mpr ⟨refused, record⟩) absent
    | @failed later _ _ _ _ _ steps refused present next stepped =>
        have earlier : Refuses (recording test) (state, []) taken (later, taken) :=
          refuses_recording.mpr ⟨refused, rfl⟩
        exact .failed steps earlier present (recording_eq_iff.mpr ⟨next, record⟩) stepped

/-! ## What remained -/

/-- The elements taken and those asked about, as beginnings of the list that remained.  The
element behind those taken is ahead. -/
structure Scans (cursor : Cursor σ α) (taken asked : List α) (after : Cursor σ α) : Prop where
  taken_eq : taken = cursor.remaining.take taken.length
  asked_eq : asked = cursor.remaining.take asked.length
  ahead_eq : after.ahead = cursor.remaining.get? taken.length
  position_eq : after.position = cursor.position + taken.length

theorem Passes.run_eq {cursor after : Cursor σ α} {run : List α}
    (passes : Passes cursor run after) : run = cursor.remaining.take run.length := by
  rw [passes.remaining_eq, take_run_append]

theorem Passes.ahead_eq {cursor after : Cursor σ α} {run : List α}
    (passes : Passes cursor run after) : after.ahead = cursor.remaining.get? run.length := by
  rw [← Stream'.Seq.head_dropn, passes.remaining_eq, drop_run_append, head_remaining]

/-- The element ahead follows the run that was passed over. -/
theorem Passes.snoc_eq {cursor after : Cursor σ α} {run : List α} {element : α}
    (passes : Passes cursor run after) (present : after.ahead = some element) :
    run ++ [element] = cursor.remaining.take (run ++ [element]).length := by
  have whole : cursor.remaining =
      (Stream'.Seq.ofList (run ++ [element])).append (Source.elements after.source) := by
    rw [passes.remaining_eq, remaining_of_ahead present, Stream'.Seq.ofList_append,
      Stream'.Seq.append_assoc, Stream'.Seq.ofList_cons, Stream'.Seq.ofList_nil,
      Stream'.Seq.cons_append, Stream'.Seq.nil_append]
  rw [whole, take_run_append]

theorem Stops.scans {test : τ → α → Bool × τ} {state last : τ} {cursor after : Cursor σ α}
    {taken asked : List α} {result : Except ε (List α)}
    (stops : Stops test state cursor taken asked result last after) :
    Scans cursor taken asked after := by
  have passes := stops.ends.passes
  refine ⟨passes.run_eq, ?_, passes.ahead_eq, passes.position_eq⟩
  cases stops with
  | accepted _ _ present _ => exact passes.snoc_eq present
  | ended _ _ _ => exact passes.run_eq
  | failed steps _ present _ _ => exact steps.passes.snoc_eq present

/-! ## Bounded operations -/

/-- A bounded operation stops at the first of the events that stop it, and within any number
of rounds that lets it get there.  The elements taken are given out by way of `gather`, if no
failure is the answer. -/
structure StopsFirst (gather : List α → β) (cursor : Cursor σ α)
    (operation : (τ : Type) → Nat → (τ → α → Bool × τ) → τ →
      Option (Except ε β × τ × Cursor σ α)) : Prop where
  /-- The record of what a test is asked about changes nothing. -/
  recorded : ∀ {τ : Type} (rounds : Nat) (test : τ → α → Bool × τ) (state : τ),
    operation τ rounds test state =
      (operation (τ × List α) rounds (recording test) (state, [])).map
        fun (answer, (last, _), after) => (answer, last, after)
  /-- There is no other way to stop. -/
  stopped : ∀ {τ : Type} {rounds : Nat} {test : τ → α → Bool × τ} {state last : τ}
    {asked : List α} {answer : Except ε β} {after : Cursor σ α},
    operation (τ × List α) rounds (recording test) (state, []) =
      some (answer, (last, asked), after) →
    ∃ taken result, taken.length < rounds ∧ answer = result.map gather ∧
      Stops test state cursor taken asked result last after ∧ Scans cursor taken asked after
  /-- Whatever can stop the operation does so. -/
  returns : ∀ {τ : Type} {rounds : Nat} {test : τ → α → Bool × τ} {state last : τ}
    {taken asked : List α} {result : Except ε (List α)} {after : Cursor σ α},
    taken.length < rounds → Stops test state cursor taken asked result last after →
    operation (τ × List α) rounds (recording test) (state, []) =
      some (result.map gather, (last, asked), after)

theorem foldUntil_stopsFirst (push : β → α → β) (start : β) (cursor : Cursor σ α) :
    StopsFirst (List.foldl push start) cursor
      fun _ rounds test state => foldUntil test push rounds state start cursor where
  recorded := fun rounds test state => foldUntil_recording test push rounds state [] start cursor
  stopped := by
    intro τ rounds test state last asked answer after finished
    rcases foldUntil_stops finished with ⟨taken, questions, result, enough, stops, answered⟩
    rcases stops_recording.mp stops with ⟨stops, record⟩
    cases record
    exact ⟨taken, result, enough, answered, stops, stops.scans⟩
  returns := by
    intro τ rounds test state last taken asked result after enough stops
    have recorded : Stops (recording test) (state, []) cursor taken asked result (last, asked)
        after := stops_recording.mpr ⟨stops, rfl⟩
    exact foldUntil_of_stops push start enough recorded

/-! ## Tests without a state -/

/-- An operation that stops for a predicate stops where a bounded operation does whose test asks
the predicate and has no state. -/
structure StopsFor (gather : List α → β) (predicate : α → Bool) (cursor : Cursor σ α)
    (operation : Nat → Option (Except ε β × Cursor σ α)) : Prop where
  /-- There is no other way to stop. -/
  stopped : ∀ {rounds : Nat} {answer : Except ε β} {after : Cursor σ α},
    operation rounds = some (answer, after) →
    ∃ taken asked result, taken.length < rounds ∧ answer = result.map gather ∧
      Stops (fun _ element => (predicate element, ())) () cursor taken asked result () after ∧
      Scans cursor taken asked after
  /-- Whatever can stop the operation does so. -/
  returns : ∀ {rounds : Nat} {taken asked : List α} {result : Except ε (List α)}
    {after : Cursor σ α}, taken.length < rounds →
    Stops (fun _ element => (predicate element, ())) () cursor taken asked result () after →
    operation rounds = some (result.map gather, after)

/-- A bounded operation stops for the predicate that its test asks. -/
theorem StopsFirst.stopsFor {gather : List α → β} {cursor : Cursor σ α}
    {bounded : (τ : Type) → Nat → (τ → α → Bool × τ) → τ →
      Option (Except ε β × τ × Cursor σ α)}
    {operation : Nat → Option (Except ε β × Cursor σ α)} {predicate : α → Bool}
    (first : StopsFirst gather cursor bounded)
    (asks : ∀ rounds, operation rounds =
      (bounded Unit rounds (fun _ element => (predicate element, ())) ()).map
        fun (answer, _, after) => (answer, after)) :
    StopsFor gather predicate cursor operation where
  stopped := by
    intro rounds answer after finished
    rw [asks, first.recorded, Option.map_map] at finished
    rcases Option.map_eq_some_iff.mp finished with ⟨⟨given, ⟨last, asked⟩, left⟩, stopped, same⟩
    cases same
    rcases first.stopped stopped with ⟨taken, result, enough, answered, stops, scans⟩
    exact ⟨taken, asked, result, enough, answered, stops, scans⟩
  returns := by
    intro rounds taken asked result after enough stops
    rw [asks, first.recorded, first.returns enough stops]
    rfl

/-- The elements given out, and the one ahead of them. -/
theorem StopsFor.exact {gather : List α → β} {predicate : α → Bool} {cursor after : Cursor σ α}
    {operation : Nat → Option (Except ε β × Cursor σ α)} {rounds : Nat} {given : β}
    (stopsFor : StopsFor gather predicate cursor operation)
    (finished : operation rounds = some (.ok given, after)) :
    ∃ taken, given = gather taken ∧ (∀ element ∈ taken, predicate element = false) ∧
      ∀ element, after.ahead = some element → predicate element = true := by
  rcases stopsFor.stopped finished with ⟨taken, asked, result, _, answered, stops, _⟩
  rcases stops_predicate stops with ⟨refused, ⟨rfl, _, accepted⟩ | ⟨_, _, _, rfl, _⟩⟩
  · exact ⟨taken, Except.ok.inj answered, refused, accepted⟩
  · cases answered

theorem foldl_push_eq_toArray : List.foldl Array.push (#[] : Array α) = List.toArray := by
  funext elements
  rw [List.foldl_push_eq_append', Array.empty_append]

theorem takeUntilWith_stopsFirst (cursor : Cursor σ α) :
    StopsFirst List.toArray cursor
      fun _ rounds test state => cursor.takeUntilWith rounds test state := by
  rw [← foldl_push_eq_toArray]
  exact foldUntil_stopsFirst Array.push #[] cursor

end Cursor

namespace TextCursor

variable {σ ε : Type} [Source σ ε Char]

theorem foldl_push_eq_ofList : List.foldl String.push "" = String.ofList := by
  funext characters
  rw [foldl_push, String.empty_append]

theorem takeUntilWith_stopsFirst (text : TextCursor σ) :
    Cursor.StopsFirst String.ofList text.cursor fun _ rounds test state =>
      (text.takeUntilWith rounds test state).map
        fun (answer, last, after) => (answer, last, after.cursor) := by
  have inside : (fun (τ : Type) rounds (test : τ → Char → Bool × τ) state =>
      (text.takeUntilWith rounds test state).map
        fun (answer, last, after) => (answer, last, after.cursor)) =
      fun _ rounds test state =>
        Cursor.foldUntil test String.push rounds state "" text.cursor := by
    funext τ rounds test state
    rw [takeUntilWith, Option.map_map]
    exact Option.map_id'
  rw [inside, ← foldl_push_eq_ofList]
  exact Cursor.foldUntil_stopsFirst String.push "" text.cursor

theorem takeUntil_stopsFor (text : TextCursor σ) (predicate : Char → Bool) :
    Cursor.StopsFor String.ofList predicate text.cursor fun rounds =>
      (text.takeUntil rounds predicate).map fun (answer, after) => (answer, after.cursor) := by
  apply text.takeUntilWith_stopsFirst.stopsFor
  intro rounds
  rw [takeUntil, Option.map_map, Option.map_map]
  rfl

end TextCursor

section Bounded

variable {σ ρ ε φ α : Type} [Source σ ε α] [Source ρ φ Char]

open Cursor (StopsFirst StopsFor)

/-- On both kinds of cursor, bounded taking asks its test about the elements that remain one by
one, and stops at the first of three events: the test accepts, there are no more elements, or
the element that was refused cannot be taken.  To stop at a target is to do so with the test that
compares with the target, so it stops at the first of these events too, and returns whenever one
of them comes.  It gives out no element that equals the target, and leaves one that does ahead or
is at the end, whatever equality is. -/
theorem bounded_taking_stops_first (cursor : Cursor σ α) (text : TextCursor ρ) :
    (StopsFirst List.toArray cursor
        fun _ rounds test state => cursor.takeUntilWith rounds test state) ∧
      (StopsFirst String.ofList text.cursor fun _ rounds test state =>
        (text.takeUntilWith rounds test state).map
          fun (answer, last, after) => (answer, last, after.cursor)) ∧
      (∀ (_ : BEq α) (target : α),
        (∀ rounds, cursor.takeTo rounds target =
          (cursor.takeUntilWith rounds (fun _ element => (element == target, ())) ()).map
            fun (answer, _, after) => (answer, after)) ∧
        StopsFor List.toArray (· == target) cursor (fun rounds => cursor.takeTo rounds target) ∧
        ∀ (rounds : Nat) (elements : Array α) (after : Cursor σ α),
          cursor.takeTo rounds target = some (.ok elements, after) →
          (∀ element ∈ elements, (element == target) = false) ∧
            ∀ element, after.ahead = some element → (element == target) = true) ∧
      ∀ target : Char,
        (∀ rounds, text.takeTo rounds target =
          (text.takeUntilWith rounds (fun _ character => (character == target, ())) ()).map
            fun (answer, _, after) => (answer, after)) ∧
        (StopsFor String.ofList (· == target) text.cursor fun rounds =>
          (text.takeTo rounds target).map fun (answer, after) => (answer, after.cursor)) ∧
        ∀ (rounds : Nat) (string : String) (after : TextCursor ρ),
          text.takeTo rounds target = some (.ok string, after) →
          (∀ character ∈ string.toList, character ≠ target) ∧
            ∀ character, after.ahead = some character → character = target := by
  refine ⟨cursor.takeUntilWith_stopsFirst, text.takeUntilWith_stopsFirst, ?_, ?_⟩
  · intro equality target
    have stopsFor : StopsFor List.toArray (· == target) cursor
        (fun rounds => cursor.takeTo rounds target) :=
      cursor.takeUntilWith_stopsFirst.stopsFor fun _ => rfl
    refine ⟨fun _ => rfl, stopsFor, ?_⟩
    intro rounds elements after finished
    rcases stopsFor.exact finished with ⟨taken, rfl, refused, accepted⟩
    refine ⟨?_, accepted⟩
    intro element present
    exact refused element (List.mem_toArray.mp present)
  · intro target
    have stopsFor := text.takeUntil_stopsFor (· == target)
    refine ⟨fun _ => rfl, stopsFor, ?_⟩
    intro rounds string after finished
    have inside : (text.takeTo rounds target).map
        (fun (answer, after) => (answer, after.cursor)) = some (.ok string, after.cursor) := by
      rw [finished]
      rfl
    rcases stopsFor.exact inside with ⟨taken, rfl, refused, accepted⟩
    rw [String.toList_ofList]
    refine ⟨?_, ?_⟩
    · intro character present
      exact beq_eq_false_iff_ne.mp (refused character present)
    · intro character present
      exact beq_iff_eq.mp (accepted character present)

/-- A script with a failure between its second and its third element. -/
def broken : Script String Nat :=
  ⟨[.ok (some 0), .ok (some 1), .error "late", .ok (some 0), .ok none]⟩

/-- A test that refuses a number of elements, whatever they are. -/
def patience (left : Nat) (_ : Nat) : Bool × Nat := (left == 0, left - 1)

/-- An equality that leaves zero unequal to itself. -/
@[reducible]
def zeroless : BEq Nat := ⟨fun one other => one != 0 && one == other⟩

theorem bounded_taking_stops_first_broken :
    let start : Cursor (Script String Nat) Nat := ⟨⟨broken.answers.drop 1⟩, some 0, 0⟩
    let stopped : Cursor (Script String Nat) Nat := ⟨⟨broken.answers.drop 3⟩, some 1, 1⟩
    let atLast : Cursor (Script String Nat) Nat := ⟨⟨[]⟩, none, 3⟩
    start.takeUntilWith 9 (Cursor.recording patience) (5, []) =
        some (.error "late", (3, [0, 1]), stopped) ∧
      [0, 1] = start.remaining.take 2 ∧
      stopped.takeUntilWith 2 (Cursor.recording patience) (1, []) =
        some (.ok #[1], (0, [1, 0]), ⟨⟨broken.answers.drop 4⟩, some 0, 2⟩) ∧
      stopped.takeUntilWith 3 (Cursor.recording patience) (3, []) =
        some (.ok #[1, 0], (1, [1, 0]), atLast) ∧
      zeroless.beq 0 0 = false ∧
      @Cursor.takeTo _ _ _ _ zeroless 9 0 start = some (.error "late", stopped) ∧
      @Cursor.takeTo _ _ _ _ zeroless 3 0 stopped = some (.ok #[1, 0], atLast) ∧
      (∀ element ∈ #[1, 0], zeroless.beq element 0 = false) ∧
      ((TextCursor.ofString "ab\n").takeTo 3 '\n').map
          (fun (answer, after) => (answer, after.cursor)) =
        some (.ok "ab", ⟨[], some '\n', 2⟩) ∧
      ∀ character ∈ "ab".toList, character ≠ '\n' := by
  intro start stopped atLast
  rcases bounded_taking_stops_first start (TextCursor.ofString "ab\n") with
    ⟨first, _, fromStart, inText⟩
  rcases bounded_taking_stops_first stopped (TextCursor.ofString "ab\n") with
    ⟨again, _, onwards, _⟩
  have failed : start.takeUntilWith 9 (Cursor.recording patience) (5, []) =
      some (.error "late", (3, [0, 1]), stopped) := rfl
  have accepted : Cursor.Stops (ε := String) patience 1 stopped [1] [1, 0] (.ok [1]) 0
      ⟨⟨broken.answers.drop 4⟩, some 0, 2⟩ :=
    .accepted (.cons rfl (.refl _)) (.cons rfl (.nil 0)) rfl rfl
  have ended : Cursor.Stops (ε := String) patience 3 stopped [1, 0] [1, 0] (.ok [1, 0]) 1 atLast :=
    .ended (.cons rfl (.cons rfl (.refl _))) (.cons rfl (.cons rfl (.nil 1))) rfl
  rcases first.stopped failed with ⟨_, _, _, _, _, scans⟩
  -- No zero equals the target, not even the one that could stop the operation.
  have refusedBoth : Cursor.Stops (ε := String) (fun _ element => (zeroless.beq element 0, ())) ()
      start [0] [0, 1] (.error "late") () stopped :=
    .failed (.cons rfl (.refl _)) (.cons rfl (.nil ())) rfl rfl rfl
  have refusedAll : Cursor.Stops (ε := String) (fun _ element => (zeroless.beq element 0, ())) ()
      stopped [1, 0] [1, 0] (.ok [1, 0]) () atLast :=
    .ended (.cons rfl (.cons rfl (.refl _))) (.cons rfl (.cons rfl (.nil ()))) rfl
  have toNewline : Cursor.Stops (ε := Empty) (fun _ character => (character == '\n', ())) ()
      (TextCursor.ofString "ab\n").cursor ['a', 'b'] ['a', 'b', '\n'] (.ok ['a', 'b']) ()
      ⟨[], some '\n', 2⟩ :=
    .accepted (.cons rfl (.cons rfl (.refl _))) (.cons rfl (.cons rfl (.nil ()))) rfl rfl
  have stopsLate := (fromStart zeroless 0).2.1.returns (by decide : 1 < 9) refusedBoth
  have stopsLast := (onwards zeroless 0).2.1.returns (by decide : 2 < 3) refusedAll
  have stopsInText := (inText '\n').2.1.returns (by decide : 2 < 3) toNewline
  have unequal := ((onwards zeroless 0).2.2 3 #[1, 0] atLast stopsLast).1
  have unbroken := ((inText '\n').2.2 3 "ab" ⟨⟨[], some '\n', 2⟩⟩ rfl).1
  exact ⟨failed, scans.asked_eq, again.returns (by decide) accepted,
    again.returns (by decide) ended, rfl, stopsLate, stopsLast, unequal, stopsInText, unbroken⟩

end Bounded

end ForwardCursor
