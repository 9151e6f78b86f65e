import ForwardCursor.Proofs.Cursor.Operation

namespace ForwardCursor

/-!
# Cursors abreast

Two runs of the same operation can be compared although they differ in several ways at
once: in their sources, in the failures of these, in what they collect their elements in,
and in the state of their tests.  It is enough that each of these is related step by step.
The sources have to answer alike and go on to do so.  Then cursors that stand at the same
position with the same element ahead do so after every operation, and what they give out is
related again.

The relations are left open here.  With equality for all but one of them, an operation is
seen to depend on that one in the way it should and on nothing else.
-/

/-- Two answers that are both values or both failures, and related as such. -/
inductive Alike {ε φ β γ : Type} (failing : ε → φ → Prop) (giving : β → γ → Prop) :
    Except ε β → Except φ γ → Prop where
  | ok {value : β} {other : γ} (given : giving value other) :
      Alike failing giving (.ok value) (.ok other)
  | error {failure : ε} {other : φ} (failed : failing failure other) :
      Alike failing giving (.error failure) (.error other)

/-- Two outcomes, each of them an answer and what is left behind. -/
structure Together {β γ S T : Type} (answering : β → γ → Prop) (leaving : S → T → Prop)
    (first : β × S) (second : γ × T) : Prop where
  answer : answering first.1 second.1
  left : leaving first.2 second.2

section Answers

variable {ε φ β γ δ ζ S T : Type} {failing : ε → φ → Prop} {giving : β → γ → Prop}

theorem Alike.map {further : δ → ζ → Prop} {f : β → δ} {g : γ → ζ} {answer : Except ε β}
    {other : Except φ γ} (alike : Alike failing giving answer other)
    (mapped : ∀ value given, giving value given → further (f value) (g given)) :
    Alike failing further (answer.map f) (other.map g) := by
  cases alike with
  | ok given => exact .ok (mapped _ _ given)
  | error failed => exact .error failed

theorem alike_rfl (answer : Except ε β) : Alike Eq Eq answer answer := by
  cases answer with
  | ok value => exact .ok rfl
  | error failure => exact .error rfl

theorem Alike.eq {answer other : Except ε β} (alike : Alike Eq Eq answer other) :
    answer = other := by
  cases alike with
  | ok given => rw [given]
  | error failed => rw [failed]

/-- Outcomes that go together are both successful or both failed. -/
theorem Together.cases {leaving : S → T → Prop} {first : Except ε β × S}
    {second : Except φ γ × T} (together : Together (Alike failing giving) leaving first second) :
    (∃ value given after other, first = (.ok value, after) ∧ second = (.ok given, other) ∧
      giving value given ∧ leaving after other) ∨
    (∃ failure failed after other, first = (.error failure, after) ∧
      second = (.error failed, other) ∧ failing failure failed ∧ leaving after other) := by
  rcases first with ⟨answer, after⟩
  rcases second with ⟨other, left⟩
  rcases together with ⟨alike, leaves⟩
  cases alike with
  | ok given => exact Or.inl ⟨_, _, _, _, rfl, rfl, given, leaves⟩
  | error failed => exact Or.inr ⟨_, _, _, _, rfl, rfl, failed, leaves⟩

theorem rel_imp {related further : β → γ → Prop} {first : Option β} {second : Option γ}
    (rel : Option.Rel related first second)
    (weaker : ∀ value given, related value given → further value given) :
    Option.Rel further first second := by
  cases rel with
  | some given => exact .some (weaker _ _ given)
  | none => exact .none

theorem rel_map {related : β → γ → Prop} {further : δ → ζ → Prop} {first : Option β}
    {second : Option γ} {f : β → δ} {g : γ → ζ} (rel : Option.Rel related first second)
    (mapped : ∀ value given, related value given → further (f value) (g given)) :
    Option.Rel further (first.map f) (second.map g) := by
  cases rel with
  | some given => exact .some (mapped _ _ given)
  | none => exact .none

theorem rel_bind {related : β → γ → Prop} {further : δ → ζ → Prop} {first : Option β}
    {second : Option γ} {f : β → Option δ} {g : γ → Option ζ}
    (rel : Option.Rel related first second)
    (bound : ∀ value given, related value given → Option.Rel further (f value) (g given)) :
    Option.Rel further (first.bind f) (second.bind g) := by
  cases rel with
  | some given => exact bound _ _ given
  | none => exact .none

theorem rel_some {related : β → γ → Prop} {first : Option β} {given : γ}
    (rel : Option.Rel related first (some given)) :
    ∃ value, first = some value ∧ related value given := by
  cases rel with
  | some holds => exact ⟨_, rfl, holds⟩

/-- Two answers that are related to a third one. -/
theorem rel_common {one : β → δ → Prop} {two : γ → δ → Prop} {further : β → γ → Prop}
    {first : Option β} {second : Option γ} {third : Option δ} (left : Option.Rel one first third)
    (right : Option.Rel two second third)
    (joined : ∀ value given common, one value common → two given common → further value given) :
    Option.Rel further first second := by
  cases left with
  | some given =>
      cases right with
      | some other => exact .some (joined _ _ _ given other)
  | none =>
      cases right with
      | none => exact .none

theorem map_eq_map_of_rel {related : β → γ → Prop} {first : Option β} {second : Option γ}
    {f : β → δ} {g : γ → δ} (rel : Option.Rel related first second)
    (same : ∀ value given, related value given → f value = g given) :
    first.map f = second.map g := by
  cases rel with
  | some given => exact congrArg some (same _ _ given)
  | none => rfl

end Answers

variable {σ ρ ε φ α β γ τ υ : Type} [Source σ ε α] [Source ρ φ α]

/-- Related sources answer a request alike, and are related afterwards. -/
def Source.AnswerAlike (failing : ε → φ → Prop) (related : σ → ρ → Prop) : Prop :=
  ∀ {first : σ} {second : ρ}, related first second →
    Together (Alike failing Eq) related (pull first) (pull second)

theorem Source.answerAlike_eq : Source.AnswerAlike (Eq : ε → ε → Prop) (Eq : σ → σ → Prop) := by
  rintro source _ rfl
  exact ⟨alike_rfl _, rfl⟩

namespace Cursor

/-- Two cursors that show the same, over related sources. -/
structure Abreast (related : σ → ρ → Prop) (first : Cursor σ α) (second : Cursor ρ α) :
    Prop where
  source : related first.source second.source
  ahead_eq : first.ahead = second.ahead
  position_eq : first.position = second.position

theorem abreast_rfl (cursor : Cursor σ α) : Abreast Eq cursor cursor := ⟨rfl, rfl, rfl⟩

theorem Abreast.eq {first second : Cursor σ α} (abreast : Abreast Eq first second) :
    first = second := by
  rcases first with ⟨source, ahead, position⟩
  rcases second with ⟨otherSource, otherAhead, otherPosition⟩
  rcases abreast with ⟨rfl, rfl, rfl⟩
  rfl

theorem Abreast.atEnd_eq {related : σ → ρ → Prop} {first : Cursor σ α} {second : Cursor ρ α}
    (abreast : Abreast related first second) : first.atEnd = second.atEnd := by
  rw [atEnd, atEnd, abreast.ahead_eq]

section Related

variable {failing : ε → φ → Prop} {related : σ → ρ → Prop}
  (alike : Source.AnswerAlike failing related)
  {first : Cursor σ α} {second : Cursor ρ α}

include alike

/-! ## Single steps -/

theorem ofSource_abreast {source : σ} {other : ρ} (sources : related source other) :
    Alike (fun failed others => failing failed.1 others.1 ∧ related failed.2 others.2)
      (Abreast related) (ofSource source) (ofSource other) := by
  cases asked : Source.pull source with
  | mk answer rest =>
      cases askedOther : Source.pull other with
      | mk otherAnswer otherRest =>
          have together := alike sources
          rw [asked, askedOther] at together
          rcases together with ⟨answers, rests⟩
          cases answers with
          | ok given =>
              cases given
              rw [ofSource_of_ok asked, ofSource_of_ok askedOther]
              exact .ok ⟨rests, rfl, rfl⟩
          | error failed =>
              rw [ofSource_of_error asked, ofSource_of_error askedOther]
              exact .error ⟨failed, rests⟩

theorem next_abreast (abreast : Abreast related first second) :
    Together (Alike failing Eq) (Abreast related) first.next second.next := by
  cases present : first.ahead with
  | none =>
      rw [next_of_end present, next_of_end (abreast.ahead_eq.symm.trans present)]
      exact ⟨.ok rfl, abreast⟩
  | some element =>
      have presentOther := abreast.ahead_eq.symm.trans present
      rcases (alike abreast.source).cases with
        ⟨ahead, _, rest, otherRest, asked, askedOther, rfl, rests⟩ |
        ⟨failure, failed, rest, otherRest, asked, askedOther, failures, rests⟩
      · rw [next_of_ok present asked, next_of_ok presentOther askedOther]
        exact ⟨.ok rfl, rests, rfl, congrArg (· + 1) abreast.position_eq⟩
      · rw [next_of_error present asked, next_of_error presentOther askedOther]
        exact ⟨.error failures, rests, abreast.ahead_eq, abreast.position_eq⟩

theorem skip_abreast (abreast : Abreast related first second) :
    Together (Alike failing Eq) (Abreast related) first.skip second.skip := by
  rcases next_abreast alike abreast with ⟨answers, rests⟩
  exact ⟨answers.map fun _ _ _ => rfl, rests⟩

/-! ## Repetitions -/

theorem advance_abreast (count : Nat) (abreast : Abreast related first second) :
    Together (Alike failing Eq) (Abreast related) (advance count first) (advance count second) := by
  induction count generalizing first second with
  | zero => exact ⟨.ok rfl, abreast⟩
  | succ count inductionHypothesis =>
      unfold advance
      rw [abreast.atEnd_eq]
      split
      · exact ⟨.ok rfl, abreast⟩
      · rcases (skip_abreast alike abreast).cases with
          ⟨_, _, after, other, passed, passedOther, _, later⟩ |
          ⟨failure, failed, after, other, passed, passedOther, failures, later⟩
        · rw [passed, passedOther]
          exact inductionHypothesis later
        · rw [passed, passedOther]
          exact ⟨.error failures, later⟩

theorem drop_abreast (count : Nat) (abreast : Abreast related first second) :
    Together (Alike failing Eq) (Abreast related) (first.drop count) (second.drop count) := by
  rcases advance_abreast alike count abreast with ⟨answers, rests⟩
  refine ⟨answers.map fun _ _ _ => ?_, rests⟩
  rw [rests.position_eq, abreast.position_eq]

/-- Counted taking keeps a relation of what is collected that every push keeps. -/
theorem foldTake_abreast {giving : β → γ → Prop} {push : β → α → β} {otherPush : γ → α → γ}
    (pushes : ∀ taken given element, giving taken given →
      giving (push taken element) (otherPush given element))
    (count : Nat) {taken : β} {given : γ} (collected : giving taken given)
    (abreast : Abreast related first second) :
    Together (Alike failing giving) (Abreast related) (foldTake push count taken first)
      (foldTake otherPush count given second) := by
  induction count generalizing taken given first second with
  | zero => exact ⟨.ok collected, abreast⟩
  | succ count inductionHypothesis =>
      unfold foldTake
      rcases (next_abreast alike abreast).cases with
        ⟨element, _, after, other, stepped, steppedOther, rfl, later⟩ |
        ⟨failure, failed, after, other, stepped, steppedOther, failures, later⟩
      · rw [stepped, steppedOther]
        cases element with
        | none => exact ⟨.ok collected, later⟩
        | some element => exact inductionHypothesis (pushes _ _ element collected) later
      · rw [stepped, steppedOther]
        exact ⟨.error failures, later⟩

/-- Bounded taking keeps such a relation too.  The tests have to agree on each element, and
their states may differ in what does not matter for that.  Both runs come to an end within
the rounds, or neither does. -/
theorem foldUntil_abreast {giving : β → γ → Prop} {push : β → α → β} {otherPush : γ → α → γ}
    (pushes : ∀ taken given element, giving taken given →
      giving (push taken element) (otherPush given element))
    {states : τ → υ → Prop} {test : τ → α → Bool × τ} {otherTest : υ → α → Bool × υ}
    (tests : ∀ state other element, states state other →
      Together Eq states (test state element) (otherTest other element))
    (rounds : Nat) {state : τ} {other : υ} (begun : states state other) {taken : β} {given : γ}
    (collected : giving taken given) (abreast : Abreast related first second) :
    Option.Rel (Together (Alike failing giving) (Together states (Abreast related)))
      (foldUntil test push rounds state taken first)
      (foldUntil otherTest otherPush rounds other given second) := by
  induction rounds generalizing state other taken given first second with
  | zero => exact .none
  | succ rounds inductionHypothesis =>
      cases present : first.ahead with
      | none =>
          have absent := abreast.ahead_eq.symm.trans present
          rw [foldUntil_of_end test push rounds state taken present,
            foldUntil_of_end otherTest otherPush rounds other given absent]
          exact .some ⟨.ok collected, begun, abreast⟩
      | some element =>
          have presentOther := abreast.ahead_eq.symm.trans present
          have tested := tests state other element begun
          cases asked : test state element with
          | mk accepted later =>
              cases askedOther : otherTest other element with
              | mk acceptedOther laterOther =>
                  rw [asked, askedOther] at tested
                  rcases tested with ⟨same, states⟩
                  cases same
                  cases accepted with
                  | true =>
                      rw [foldUntil_of_accepted push rounds taken present asked,
                        foldUntil_of_accepted otherPush rounds given presentOther askedOther]
                      exact .some ⟨.ok collected, states, abreast⟩
                  | false =>
                      rcases (next_abreast alike abreast).cases with
                        ⟨_, _, after, behind, stepped, steppedOther, _, rests⟩ |
                        ⟨failure, failed, after, behind, stepped, steppedOther, failures, rests⟩
                      · rw [foldUntil_of_taken push rounds taken present asked stepped,
                          foldUntil_of_taken otherPush rounds given presentOther askedOther
                            steppedOther]
                        exact inductionHypothesis states (pushes _ _ element collected) rests
                      · rw [foldUntil_of_failed push rounds taken present asked stepped,
                          foldUntil_of_failed otherPush rounds given presentOther askedOther
                            steppedOther]
                        exact .some ⟨.error failures, states, rests⟩

/-! ## Operations -/

theorem takeUntilWith_abreast (rounds : Nat) (test : τ → α → Bool × τ) (state : τ)
    (abreast : Abreast related first second) :
    Option.Rel (Together (Alike failing Eq) (Together Eq (Abreast related)))
      (first.takeUntilWith rounds test state) (second.takeUntilWith rounds test state) := by
  apply foldUntil_abreast alike
  · rintro taken _ element rfl
    rfl
  · rintro state _ element rfl
    exact ⟨rfl, rfl⟩
  · rfl
  · rfl
  · exact abreast

theorem takeUntil_abreast (rounds : Nat) (predicate : α → Bool)
    (abreast : Abreast related first second) :
    Option.Rel (Together (Alike failing Eq) (Abreast related)) (first.takeUntil rounds predicate)
      (second.takeUntil rounds predicate) := by
  apply rel_map (takeUntilWith_abreast alike rounds _ () abreast)
  rintro ⟨answer, last, after⟩ ⟨given, state, other⟩ ⟨answers, _, afters⟩
  exact ⟨answers, afters⟩

/-- Every operation has related outcomes. -/
theorem perform_abreast (rounds : Nat) (operation : Operation α)
    (abreast : Abreast related first second) :
    Option.Rel (Together (Alike failing Eq) (Abreast related)) (first.perform rounds operation)
      (second.perform rounds operation) := by
  have sameAnswer {δ ζ : Type} {wrap : δ → ζ} (value other : δ) (same : value = other) :
      wrap value = wrap other := congrArg wrap same
  cases operation with
  | next =>
      rcases next_abreast alike abreast with ⟨answers, afters⟩
      exact .some ⟨answers.map sameAnswer, afters⟩
  | skip =>
      rcases skip_abreast alike abreast with ⟨answers, afters⟩
      exact .some ⟨answers.map fun _ _ _ => rfl, afters⟩
  | drop count =>
      rcases drop_abreast alike count abreast with ⟨answers, afters⟩
      exact .some ⟨answers.map sameAnswer, afters⟩
  | take count =>
      have pushes : ∀ (taken given : Array α) (element : α), taken = given →
          taken.push element = given.push element := by
        rintro taken _ element rfl
        rfl
      rcases foldTake_abreast alike pushes count rfl abreast with ⟨answers, afters⟩
      exact .some ⟨answers.map sameAnswer, afters⟩
  | takeUntilWith test state =>
      apply rel_map (takeUntilWith_abreast alike rounds test state abreast)
      rintro ⟨answer, last, after⟩ ⟨given, _, other⟩ ⟨answers, _, afters⟩
      exact ⟨answers.map sameAnswer, afters⟩
  | takeTo equality target =>
      apply rel_map (takeUntil_abreast alike rounds _ abreast)
      rintro ⟨answer, after⟩ ⟨given, other⟩ ⟨answers, afters⟩
      exact ⟨answers.map sameAnswer, afters⟩
  | takeAll =>
      apply rel_map (takeUntil_abreast alike rounds _ abreast)
      rintro ⟨answer, after⟩ ⟨given, other⟩ ⟨answers, afters⟩
      exact ⟨answers.map sameAnswer, afters⟩

end Related

/-! ## What a test is asked about -/

/-- The same test, which keeps a record of the elements that it is asked about. -/
def recording (test : τ → α → Bool × τ) : τ × List α → α → Bool × (τ × List α) :=
  fun (state, asked) element =>
    let (accepted, later) := test state element
    (accepted, later, asked ++ [element])

/-- Keeping a record changes nothing else. -/
theorem foldUntil_recording (test : τ → α → Bool × τ) (push : β → α → β) (rounds : Nat)
    (state : τ) (asked : List α) (taken : β) (cursor : Cursor σ α) :
    foldUntil test push rounds state taken cursor =
      (foldUntil (recording test) push rounds (state, asked) taken cursor).map
        fun (answer, (last, _), after) => (answer, last, after) := by
  have recorded : Option.Rel (Together (Alike Eq Eq)
      (Together (fun last (other : τ × List α) => last = other.1) (Abreast Eq)))
      (foldUntil test push rounds state taken cursor)
      (foldUntil (recording test) push rounds (state, asked) taken cursor) := by
    apply foldUntil_abreast Source.answerAlike_eq
    · rintro taken _ element rfl
      rfl
    · rintro state ⟨_, asked⟩ element rfl
      exact ⟨rfl, rfl⟩
    · rfl
    · rfl
    · exact abreast_rfl cursor
  refine Option.map_id'.symm.trans (map_eq_map_of_rel recorded ?_)
  rintro ⟨answer, last, after⟩ ⟨other, ⟨_, asked⟩, left⟩ ⟨answers, rfl, lefts⟩
  cases answers.eq
  cases lefts.eq
  rfl

end Cursor
end ForwardCursor
