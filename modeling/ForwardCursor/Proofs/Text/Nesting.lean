import ForwardCursor.Proofs.Text.Boundary

namespace ForwardCursor

/-!
# Bounded operations one after the other

A bounded operation stops in front of the first element that satisfies its predicate.  If every
element that satisfies a predicate satisfies a second one too, the second one stops no later than
the first.  It makes no difference then whether to stop there on the way: the element at the seam
stays ahead when the one operation stops, and it is taken by the other if it is taken at all.

The narrowest predicate is the one that no element satisfies.  Stopping for any predicate and then
taking all elements therefore splits the elements that remain.  At the other extreme is the same
predicate again, which stops at once and leaves even the source alone.
-/

/-- Bounded taking in front of finitely many elements and no failure. -/
structure TakesInParts {S ε α β : Type} [Append β] (gather : List α → β)
    (takeUntil : (α → Bool) → S → Option (Except ε β × S))
    (takeAll : S → Option (Except ε β × S)) (remaining : List α) (state : S) : Prop where
  /-- Stopping for the wider predicate on the way to the narrower one changes nothing. -/
  nested : ∀ narrow wide : α → Bool, (∀ element, narrow element = true → wide element = true) →
    ∃ earlier later middle after, takeUntil wide state = some (.ok earlier, middle) ∧
      takeUntil narrow middle = some (.ok later, after) ∧
      takeUntil narrow state = some (.ok (earlier ++ later), after)
  /-- Nothing is lost between stopping and taking the rest. -/
  whole : ∀ predicate, ∃ earlier later middle after,
    takeUntil predicate state = some (.ok earlier, middle) ∧
      takeAll middle = some (.ok later, after) ∧ earlier ++ later = gather remaining
  /-- Having stopped for a predicate, stopping for it again leaves everything as it is. -/
  again : ∀ predicate, ∃ earlier middle, takeUntil predicate state = some (.ok earlier, middle) ∧
    takeUntil predicate middle = some (.ok (gather []), middle)

namespace Cursor

variable {σ ε α β : Type} [Source σ ε α]

/-- Steps that take elements until a predicate holds of the one ahead, or until there is none. -/
structure Halts (predicate : α → Bool) (cursor : Cursor σ α) (taken : List α)
    (after : Cursor σ α) : Prop where
  steps : Steps cursor taken after
  refused : ∀ element ∈ taken, predicate element = false
  accepted : ∀ element, after.ahead = some element → predicate element = true

namespace Halts

variable {predicate : α → Bool} {cursor after : Cursor σ α} {taken : List α}

/-- There is nothing to do where the predicate holds already. -/
theorem now (accepted : ∀ element, cursor.ahead = some element → predicate element = true) :
    Halts predicate cursor [] cursor :=
  ⟨.refl cursor, List.forall_mem_nil _, accepted⟩

theorem here {element : α} (present : cursor.ahead = some element)
    (accepted : predicate element = true) : Halts predicate cursor [] cursor := by
  apply now
  intro other same
  cases present.symm.trans same
  exact accepted

theorem cons {element : α} {next : Cursor σ α} (stepped : cursor.next = (.ok (some element), next))
    (refused : predicate element = false) (later : Halts predicate next taken after) :
    Halts predicate cursor (element :: taken) after :=
  ⟨.cons stepped later.steps, List.forall_mem_cons.mpr ⟨refused, later.refused⟩, later.accepted⟩

theorem again (halts : Halts predicate cursor taken after) : Halts predicate after [] after :=
  now halts.accepted

/-- On the way to where the narrower predicate holds lies a place where the wider one does. -/
theorem nested {narrow wide : α → Bool}
    (implies : ∀ element, narrow element = true → wide element = true)
    (halts : Halts narrow cursor taken after) :
    ∃ earlier later middle, taken = earlier ++ later ∧ Halts wide cursor earlier middle ∧
      Halts narrow middle later after := by
  rcases halts with ⟨steps, refused, accepted⟩
  induction steps with
  | refl cursor =>
      have wider := fun element present => implies element (accepted element present)
      exact ⟨[], [], cursor, rfl, now wider, now accepted⟩
  | @cons cursor next after element taken stepped steps inductionHypothesis =>
      have others := (List.forall_mem_cons.mp refused).2
      by_cases stops : wide element = true
      · -- The wider predicate holds first, and all the steps are left for the narrower one.
        have first := here (pull_of_next_some stepped).1 stops
        exact ⟨[], element :: taken, cursor, rfl, first, .cons stepped steps, refused, accepted⟩
      · rcases inductionHypothesis others accepted with ⟨earlier, later, middle, rfl, early, late⟩
        have passed := Bool.eq_false_iff.mpr stops
        exact ⟨element :: earlier, later, middle, rfl, early.cons stepped passed, late⟩

/-- If no element satisfies the predicate, all that remain are taken. -/
theorem eq_remaining {remaining : List α} (halts : Halts (fun _ => false) cursor taken after)
    (yields : cursor.Yields remaining 0) : taken = remaining := by
  rcases yields.of_steps halts.steps with ⟨left, rfl, rest⟩
  cases left with
  | nil => exact (List.append_nil taken).symm
  | cons element left => cases halts.accepted element rest.ahead_eq

/-- Bounded taking stops where these steps lead. -/
theorem foldUntil_eq (push : β → α → β) (start : β) {rounds : Nat} (enough : taken.length < rounds)
    (halts : Halts predicate cursor taken after) :
    foldUntil (fun _ element => (predicate element, ())) push rounds () start cursor =
      some (.ok (taken.foldl push start), (), after) := by
  have passed := refuses_of_predicate halts.refused
  cases present : after.ahead with
  | none => exact foldUntil_of_stops push start enough (.ended halts.steps passed present)
  | some element =>
      have holds := congrArg (·, ()) (halts.accepted element present)
      exact foldUntil_of_stops push start enough (.accepted halts.steps passed present holds)

theorem takeUntil_eq {rounds : Nat} (enough : taken.length < rounds)
    (halts : Halts predicate cursor taken after) :
    cursor.takeUntil rounds predicate = some (.ok taken.toArray, after) := by
  rw [takeUntil, takeUntilWith, halts.foldUntil_eq Array.push #[] enough, foldl_push_eq_toArray]
  rfl

end Halts

/-- Every predicate holds somewhere ahead of a cursor, or the end is reached. -/
theorem exists_halts (predicate : α → Bool) {cursor : Cursor σ α} {remaining : List α}
    (yields : cursor.Yields remaining 0) :
    ∃ taken left after, remaining = taken ++ left ∧ Halts predicate cursor taken after ∧
      after.Yields left 0 := by
  induction remaining generalizing cursor with
  | nil =>
      have ended : ∀ element, cursor.ahead = some element → predicate element = true := by
        intro element present
        cases present.symm.trans yields.ahead_eq
      exact ⟨[], [], cursor, rfl, .now ended, yields⟩
  | cons element remaining inductionHypothesis =>
      by_cases stops : predicate element = true
      · have here := Halts.here yields.ahead_eq stops
        exact ⟨[], element :: remaining, cursor, rfl, here, yields⟩
      · rcases next_yields yields with ⟨next, stepped, rest, _⟩ | ⟨_, _, _, _, _, _, fewer⟩
        · rcases inductionHypothesis rest with ⟨taken, left, after, rfl, halts, later⟩
          have passed := Bool.eq_false_iff.mpr stops
          exact ⟨element :: taken, left, after, rfl, halts.cons stepped passed, later⟩
        · exact absurd fewer (Nat.succ_ne_zero _).symm

/-- An operation that stops where such steps lead, and gives out what they take, can be done in
parts. -/
theorem takesInParts_of_halts {S : Type} [Append β] {gather : List α → β}
    {takeUntil : (α → Bool) → S → Option (Except ε β × S)} (state : Cursor σ α → S)
    {cursor : Cursor σ α} {remaining : List α}
    (gathers : ∀ earlier later, gather (earlier ++ later) = gather earlier ++ gather later)
    (takes : ∀ {predicate : α → Bool} {cursor after : Cursor σ α} {taken : List α},
      taken.length ≤ remaining.length → Halts predicate cursor taken after →
      takeUntil predicate (state cursor) = some (.ok (gather taken), state after))
    (yields : cursor.Yields remaining 0) :
    TakesInParts gather takeUntil (takeUntil fun _ => false) remaining (state cursor) where
  nested := by
    intro narrow wide implies
    rcases exists_halts narrow yields with ⟨taken, left, after, rfl, halts, _⟩
    rcases halts.nested implies with ⟨earlier, later, middle, rfl, early, late⟩
    simp only [List.length_append] at takes
    refine ⟨gather earlier, gather later, state middle, state after, takes (by omega) early,
      takes (by omega) late, ?_⟩
    rw [← gathers]
    exact takes (by rw [List.length_append]; omega) halts
  whole := by
    intro predicate
    rcases exists_halts (fun _ => false) yields with ⟨taken, left, after, whole, halts, _⟩
    have all := halts.eq_remaining yields
    have implies : ∀ element, false = true → predicate element = true := by
      intro element impossible
      cases impossible
    rcases halts.nested implies with ⟨earlier, later, middle, rfl, early, late⟩
    rw [← all, List.length_append] at takes
    refine ⟨gather earlier, gather later, state middle, state after, takes (by omega) early,
      takes (by omega) late, ?_⟩
    rw [← gathers, all]
  again := by
    intro predicate
    rcases exists_halts predicate yields with ⟨taken, left, after, rfl, halts, _⟩
    rw [List.length_append] at takes
    exact ⟨gather taken, state after, takes (by omega) halts, takes (Nat.zero_le _) halts.again⟩

end Cursor

namespace TextCursor

variable {σ ε : Type} [Source σ ε Char]

theorem takeUntil_of_halts {predicate : Char → Bool} {cursor after : Cursor σ Char}
    {taken : List Char} {rounds : Nat} (enough : taken.length < rounds)
    (halts : cursor.Halts predicate taken after) :
    (TextCursor.mk cursor).takeUntil rounds predicate =
      some (.ok (String.ofList taken), ⟨after⟩) := by
  rw [takeUntil, takeUntilWith, halts.foldUntil_eq String.push "" enough, foldl_push_eq_ofList]
  rfl

end TextCursor

section Parts

variable {σ ρ ε φ α : Type} [Source σ ε α] [Source ρ φ Char]

/-- On both kinds of cursor, if finitely many elements remain and no request will fail, bounded
taking can be interrupted.  Stopping for a wider predicate and then for a narrower one leaves the
cursor and its source as stopping for the narrower one does, and gives out the same in two parts.
Stopping for any predicate, or at a target, and then taking all gives out what remained.  Stopping
twice for the same predicate does nothing the second time. -/
theorem bounded_taking_composes {cursor : Cursor σ α} {text : TextCursor ρ} {remaining : List α}
    {characters : List Char} {rounds : Nat} (yields : cursor.Yields remaining 0)
    (enough : remaining.length < rounds) (yieldsText : text.cursor.Yields characters 0)
    (enoughText : characters.length < rounds) :
    TakesInParts List.toArray (fun predicate cursor => cursor.takeUntil rounds predicate)
        (Cursor.takeAll rounds) remaining cursor ∧
      (∀ (_ : BEq α) (target : α), ∃ earlier later middle after,
        cursor.takeTo rounds target = some (.ok earlier, middle) ∧
          middle.takeAll rounds = some (.ok later, after) ∧ earlier ++ later = remaining.toArray) ∧
      TakesInParts String.ofList (fun predicate text => text.takeUntil rounds predicate)
        (TextCursor.takeAll rounds) characters text ∧
      ∀ target : Char, ∃ earlier later middle after,
        text.takeTo rounds target = some (.ok earlier, middle) ∧
          middle.takeAll rounds = some (.ok later, after) ∧
          earlier ++ later = String.ofList characters := by
  have parts : TakesInParts List.toArray
      (fun predicate (cursor : Cursor σ α) => cursor.takeUntil rounds predicate)
      (Cursor.takeAll rounds) remaining cursor :=
    Cursor.takesInParts_of_halts id (fun _ _ => (List.append_toArray _ _).symm)
      (fun bounded halts => halts.takeUntil_eq (Nat.lt_of_le_of_lt bounded enough)) yields
  have textParts : TakesInParts String.ofList
      (fun predicate (text : TextCursor ρ) => text.takeUntil rounds predicate)
      (TextCursor.takeAll rounds) characters text :=
    Cursor.takesInParts_of_halts TextCursor.mk (fun _ _ => String.ofList_append)
      (fun bounded halts =>
        TextCursor.takeUntil_of_halts (Nat.lt_of_le_of_lt bounded enoughText) halts) yieldsText
  exact ⟨parts, fun _ target => parts.whole (· == target), textParts,
    fun target => textParts.whole (· == target)⟩

/-- A source that counts its requests.  It has given one element, and will only fail behind its
end. -/
def failingAfterEnd : Counted (Script String Nat) :=
  ⟨⟨[.ok (some 3), .ok (some 2), .ok (some 5), .ok (some 4), .ok none, .error "over"]⟩, 1⟩

theorem bounded_taking_composes_failingAfterEnd :
    let start : Cursor (Counted (Script String Nat)) Nat := ⟨failingAfterEnd, some 1, 0⟩
    let even := fun number : Nat => number % 2 == 0
    let four := fun number : Nat => number == 4
    start.Yields [1, 3, 2, 5, 4] 0 ∧
      (TextCursor.ofString "a-b").cursor.Yields ['a', '-', 'b'] 0 ∧
      (∀ number, four number = true → even number = true) ∧
      (∃ earlier later middle after, start.takeUntil 6 even = some (.ok earlier, middle) ∧
        middle.takeUntil 6 four = some (.ok later, after) ∧
        start.takeUntil 6 four = some (.ok (earlier ++ later), after)) ∧
      (∃ earlier middle, start.takeUntil 6 even = some (.ok earlier, middle) ∧
        middle.takeUntil 6 even = some (.ok #[], middle)) ∧
      ∃ earlier later middle after,
        (TextCursor.ofString "a-b").takeTo 6 '-' = some (.ok earlier, middle) ∧
          middle.takeAll 6 = some (.ok later, after) ∧ earlier ++ later = "a-b" := by
  intro start even four
  have yields : start.Yields [1, 3, 2, 5, 4] 0 :=
    .present rfl (.given rfl (.given rfl (.given rfl (.given rfl (.ended rfl)))))
  have yieldsText : (TextCursor.ofString "a-b").cursor.Yields ['a', '-', 'b'] 0 :=
    Cursor.yields_ofSequence ['a', '-', 'b']
  have implies : ∀ number, four number = true → even number = true := by
    intro number equal
    cases beq_iff_eq.mp equal
    rfl
  have enough : [1, 3, 2, 5, 4].length < 6 := by decide
  have enoughText : ['a', '-', 'b'].length < 6 := by decide
  rcases bounded_taking_composes yields enough yieldsText enoughText with ⟨parts, _, _, inText⟩
  exact ⟨yields, yieldsText, implies, parts.nested four even implies, parts.again even,
    inText '-'⟩

end Parts

end ForwardCursor
