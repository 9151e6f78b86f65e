import ForwardCursor.Proofs.Cursor.Abreast
import ForwardCursor.Proofs.Cursor.Finite
import ForwardCursor.Proofs.Text.Operation
import Mathlib.Data.List.Forall2

namespace ForwardCursor

/-!
# Sessions on a text cursor

A session is some operations in a row, with all that a caller can see of each of them: the
answer, what the caller's own test was asked about, and the state that is left.  An operation
that fails is followed by the next one like any other.

What holds of two states and is kept by each operation is kept by every session on them, and
the two sessions come to an end together or not at all.
-/

/-- What can be seen of one operation. -/
structure Outcome (ε β S : Type) where
  answer : Except ε β
  asked : List Char
  after : S

/-- The outcomes of some operations in a row, whatever the answers are.  They are missing only
if an operation needs more rounds. -/
def session {ε β S : Type} {Op : Type 1} (perform : S → Op → Option (Outcome ε β S)) :
    List Op → S → Option (List (Outcome ε β S))
  | [], _ => some []
  | operation :: operations, state => do
    let outcome ← perform state operation
    let later ← session perform operations outcome.after
    return outcome :: later

theorem session_cons {ε β S : Type} {Op : Type 1} {perform : S → Op → Option (Outcome ε β S)}
    {operation : Op} {operations : List Op} {state : S} {outcome : Outcome ε β S}
    {later : List (Outcome ε β S)} (first : perform state operation = some outcome)
    (rest : session perform operations outcome.after = some later) :
    session perform (operation :: operations) state = some (outcome :: later) := by
  simp only [session, first, rest, Option.bind_eq_bind, Option.bind_some, Option.pure_def]

/-- Two outcomes whose components are related. -/
structure Outcome.Alike {ε φ β γ S T : Type} (failing : ε → φ → Prop) (giving : β → γ → Prop)
    (leaving : S → T → Prop) (first : Outcome ε β S) (second : Outcome φ γ T) : Prop where
  answer : ForwardCursor.Alike failing giving first.answer second.answer
  asked_eq : first.asked = second.asked
  after : leaving first.after second.after

section Sessions

variable {ε φ β γ S T : Type} {Op : Type 1} {failing : ε → φ → Prop} {giving : β → γ → Prop}
  {leaving : S → T → Prop} {perform : S → Op → Option (Outcome ε β S)}
  {other : T → Op → Option (Outcome φ γ T)}

/-- What each operation keeps is kept by every session. -/
theorem session_alike
    (single : ∀ state left operation, leaving state left →
      Option.Rel (Outcome.Alike failing giving leaving) (perform state operation)
        (other left operation))
    (operations : List Op) {state : S} {left : T} (related : leaving state left) :
    Option.Rel (List.Forall₂ (Outcome.Alike failing giving leaving))
      (session perform operations state) (session other operations left) := by
  induction operations generalizing state left with
  | nil => exact .some .nil
  | cons operation operations inductionHypothesis =>
      refine rel_bind (single state left operation related) ?_
      intro outcome outcomeOther outcomes
      refine rel_bind (inductionHypothesis outcomes.after) ?_
      intro later laterOther rest
      exact .some (.cons outcomes rest)

/-- If each operation comes to an end as well, every session does. -/
theorem session_together
    (single : ∀ state left operation, leaving state left →
      ∃ outcome outcomeOther, perform state operation = some outcome ∧
        other left operation = some outcomeOther ∧
        Outcome.Alike failing giving leaving outcome outcomeOther)
    (operations : List Op) {state : S} {left : T} (related : leaving state left) :
    ∃ outcomes others, session perform operations state = some outcomes ∧
      session other operations left = some others ∧
      List.Forall₂ (Outcome.Alike failing giving leaving) outcomes others := by
  induction operations generalizing state left with
  | nil => exact ⟨[], [], rfl, rfl, .nil⟩
  | cons operation operations inductionHypothesis =>
      rcases single state left operation related with
        ⟨outcome, outcomeOther, performed, performedOther, alike⟩
      rcases inductionHypothesis alike.after with ⟨later, laterOther, rest, restOther, alikes⟩
      exact ⟨outcome :: later, outcomeOther :: laterOther, session_cons performed rest,
        session_cons performedOther restOther, .cons alike alikes⟩

end Sessions

namespace TextCursor

variable {σ ε : Type} [Source σ ε Char]

/-- Keeping a record of what a test is asked about changes nothing else. -/
theorem takeUntilWith_recording (rounds : Nat) {τ : Type} (test : τ → Char → Bool × τ) (state : τ)
    (text : TextCursor σ) :
    text.takeUntilWith rounds test state =
      (text.takeUntilWith rounds (Cursor.recording test) (state, [])).map
        fun (answer, (last, _), after) => (answer, last, after) := by
  rw [takeUntilWith, takeUntilWith, Cursor.foldUntil_recording test String.push rounds state [],
    Option.map_map, Option.map_map]
  rfl

/-- Perform an operation with a record of what the caller's test is asked about.  There is
such a test only if the operation brings one. -/
def outcome (rounds : Nat) (text : TextCursor σ) :
    Operation → Option (Outcome ε Answer (TextCursor σ))
  | .takeUntilWith test state =>
    (text.takeUntilWith rounds (Cursor.recording test) (state, [])).map
      fun (answer, (_, asked), after) => ⟨answer.map .string, asked, after⟩
  | operation =>
    (text.perform rounds operation).map fun (answer, after) => ⟨answer, [], after⟩

/-- The outcome is that of performing the operation. -/
theorem perform_eq_outcome (rounds : Nat) (text : TextCursor σ) (operation : Operation) :
    text.perform rounds operation =
      (text.outcome rounds operation).map fun outcome => (outcome.answer, outcome.after) := by
  cases operation with
  | takeUntilWith test state =>
      rw [perform, outcome, takeUntilWith_recording, Option.map_map, Option.map_map]
      rfl
  | next | skip | drop | take | takeTo | takeAll | nextLine | line =>
      rw [outcome, Option.map_map]
      · exact Option.map_id'.symm
      · intro τ test state impossible
        cases impossible

/-- What every step of the cursor inside keeps is kept by every outcome. -/
theorem kept_by_outcome {property : Cursor σ Char → Prop}
    (kept : ∀ cursor, property cursor → property cursor.next.2) {rounds : Nat}
    {text : TextCursor σ} {operation : Operation} {outcome : Outcome ε Answer (TextCursor σ)}
    (performed : text.outcome rounds operation = some outcome) (holds : property text.cursor) :
    property outcome.after.cursor := by
  have called : text.Call outcome.answer outcome.after := by
    refine ⟨rounds, operation, ?_⟩
    rw [perform_eq_outcome, performed, Option.map_some]
  exact related_of_call (Cursor.Stepwise.of_kept kept) called holds

/-! ## Operations on finite text come to an end -/

theorem isSome_outcome {rounds : Nat} (operation : Operation) {text : TextCursor σ}
    {remaining : List Char} {failures : Nat} (yields : text.cursor.Yields remaining failures)
    (enough : remaining.length < rounds) : (text.outcome rounds operation).isSome = true := by
  have answered : (text.perform rounds operation).isSome = true := by
    apply isSome_perform
    intro τ test state
    rw [takeUntilWith, Option.isSome_map]
    exact Cursor.isSome_foldUntil test String.push state "" yields enough
  rwa [perform_eq_outcome, Option.isSome_map] at answered

end TextCursor

end ForwardCursor
