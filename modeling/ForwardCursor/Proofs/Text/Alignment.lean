import ForwardCursor.Proofs.Text.Lines
import ForwardCursor.Source.Script

namespace ForwardCursor
namespace TextCursor

/-!
# Lines across failures

Whoever goes on after a failure gets as many lines as the text has.  A failure can take a part
of a line away, but what is left of it is still a line of its own, and it is the next one to
be given.  This is so even if nothing is left but the second half of a line break.

The proof follows two counts.  A line that is given leaves one piece fewer in the text, and a
failure leaves the pieces as many as they are but one failure fewer to come.
-/

variable {σ ε ρ φ : Type} [Source σ ε Char] [Source ρ φ Char]

/-! ## Answers -/

/-- These are the answers until there is no line. -/
def GivesLines (rounds : Nat) (text : TextCursor σ) (answers : List (Except ε String)) : Prop :=
  ∃ after, text.lines rounds (answers.length + 1) = some (answers.map some ++ [none], after)

theorem givesLines_nil (rounds : Nat) {text : TextCursor σ} (ended : text.ahead = none) :
    text.GivesLines rounds [] :=
  ⟨text, lines_of_end rounds 1 ended⟩

theorem GivesLines.cons {rounds : Nat} {text middle : TextCursor σ} {answer : Except ε String}
    {answers : List (Except ε String)} (first : text.line? rounds = some (some answer, middle))
    (later : middle.GivesLines rounds answers) : text.GivesLines rounds (answer :: answers) := by
  rcases later with ⟨after, later⟩
  exact ⟨after, lines_cons first later⟩

/-- A line that was given, and whether a request for it had failed before. -/
structure GivenLine where
  interrupted : Bool
  line : String

/-- The lines among some answers, where a request may have failed already. -/
def givenLines : Bool → List (Except ε String) → List GivenLine
  | _, [] => []
  | interrupted, .ok line :: answers => ⟨interrupted, line⟩ :: givenLines false answers
  | _, .error _ :: answers => givenLines true answers

/-- The line given is what is left of another one, of which nothing was lost without a
failure. -/
def GivenLine.LeftOf (given : GivenLine) (line : String) : Prop :=
  given.line.toList <:+ line.toList ∧ (given.interrupted = false → given.line = line)

/-- The first line may have been longer if a request had failed. -/
theorem leftOf_of_interrupted {interrupted : Bool} {answers : List (Except ε String)}
    {shorter line : String} {lines : List String}
    (aligned : List.Forall₂ GivenLine.LeftOf (givenLines interrupted answers) (shorter :: lines))
    (suffix : shorter.toList <:+ line.toList) :
    List.Forall₂ GivenLine.LeftOf (givenLines true answers) (line :: lines) := by
  induction answers generalizing interrupted with
  | nil => cases aligned
  | cons answer answers inductionHypothesis =>
      cases answer with
      | ok given =>
          cases aligned with
          | cons first later =>
              exact .cons ⟨first.1.trans suffix, fun impossible => by cases impossible⟩ later
      | error failure => exact inductionHypothesis aligned

/-! ## The two texts -/

/-- Without failures the lines are those of the pieces. -/
theorem givesLines_of_yields {rounds : Nat} {text : TextCursor σ} {remaining : List Char}
    {pieces : List Piece} (yields : text.cursor.Yields remaining 0)
    (divides : Divides remaining pieces) (enough : remaining.length < rounds) :
    text.GivesLines rounds ((pieces.map Piece.string).map .ok) := by
  rw [← List.append_nil pieces] at divides
  rcases readsLines_of_yields yields divides enough with ⟨after, rest, reads, yields, nothing⟩
  have ended := (atEnd_of_yields yields nothing).mpr rfl
  have last := lines_of_end rounds 1 ((Cursor.atEnd_iff after.cursor).mp ended)
  refine ⟨after, ?_⟩
  rw [List.length_map, List.length_map, List.map_map, List.map_map]
  exact lines_append reads.lines_eq last

/-- With failures there are still as many lines as pieces. -/
theorem leftOf_pieces {rounds : Nat} {text : TextCursor σ} {remaining : List Char}
    {pieces : List Piece} {failed : Nat} (yields : text.cursor.Yields remaining failed)
    (divides : Divides remaining pieces) (enough : remaining.length < rounds) :
    ∃ answers, text.GivesLines rounds answers ∧ answers.length ≤ remaining.length + failed ∧
      List.Forall₂ GivenLine.LeftOf (givenLines false answers) (pieces.map Piece.string) := by
  induction pieces generalizing text remaining failed with
  | nil =>
      have ended := (atEnd_of_yields yields divides).mpr rfl
      exact ⟨[], givesLines_nil rounds ((Cursor.atEnd_iff text.cursor).mp ended), Nat.zero_le _, .nil⟩
  | cons piece pieces fewerPieces =>
      -- The pieces stay as many when a request fails, so the failures are counted inside.
      induction failed using Nat.strong_induction_on generalizing text remaining piece with
      | h failed fewerFailures =>
          rcases nextLine_yields yields divides enough with
            ⟨after, rest, given, rfl, remains, later, _⟩ |
            ⟨failure, after, left, shorter, later, given, shortened, remains, leftPieces, suffix, rfl⟩
          · have something := List.length_pos_iff.mpr divides.characters_ne_nil
            rw [List.length_append] at enough ⊢
            rcases fewerPieces remains later (by omega) with ⟨answers, gives, bounded, aligned⟩
            refine ⟨.ok piece.string :: answers, gives.cons (line?_of_yields yields divides given), ?_,
              .cons ⟨List.suffix_rfl, fun _ => rfl⟩ aligned⟩
            rw [List.length_cons]
            omega
          · have noLonger := shortened.length_le
            rcases fewerFailures later (Nat.lt_succ_self later) shorter remains leftPieces
              (Nat.lt_of_le_of_lt noLonger enough) with ⟨answers, gives, bounded, aligned⟩
            refine ⟨.error failure :: answers, gives.cons (line?_of_yields yields divides given), ?_,
              leftOf_of_interrupted aligned (Piece.suffix_string suffix)⟩
            rw [List.length_cons]
            omega

/-- Two text cursors have the same text in front of them, and one of them meets failures.  It
comes to the end nevertheless, with one request for each character and each failure at most.
The lines that it gives are, one by one, what is left of the lines of the other, and a line
whose requests did not fail is given as a whole. -/
theorem lines_stay_aligned {text : TextCursor σ} {faultless : TextCursor ρ}
    {characters : List Char} {failed rounds : Nat} (yields : text.cursor.Yields characters failed)
    (same : faultless.cursor.Yields characters 0) (enough : characters.length < rounds) :
    ∃ answers lines, text.GivesLines rounds answers ∧
      faultless.GivesLines rounds (lines.map .ok) ∧
      answers.length ≤ characters.length + failed ∧
      List.Forall₂ GivenLine.LeftOf (givenLines false answers) lines := by
  rcases exists_divides characters with ⟨pieces, divides⟩
  rcases leftOf_pieces yields divides enough with ⟨answers, gives, bounded, aligned⟩
  exact ⟨answers, pieces.map Piece.string, gives, givesLines_of_yields same divides enough, bounded,
    aligned⟩

/-- A text of two lines. -/
def twoLines : List Char := ['a', 'b', 'c', '\r', '\n', 'd', '\n']

/-- That text with a failure inside its first line and one inside the pair that ends it. -/
def interrupted : Script String Char :=
  ⟨[.ok (some 'a'), .ok (some 'b'), .error "line", .ok (some 'c'), .ok (some '\r'),
    .ok (some '\n'), .error "pair", .ok (some 'd'), .ok (some '\n'), .ok none]⟩

/-- A text cursor at the start of the interrupted text. -/
def interruptedStart : TextCursor (Script String Char) :=
  ⟨⟨⟨interrupted.answers.drop 1⟩, some 'a', 0⟩⟩

theorem lines_stay_aligned_interrupted :
    interruptedStart.GivesLines 8 [.error "line", .error "pair", .ok "", .ok "d"] ∧
      ∃ answers lines, interruptedStart.GivesLines 8 answers ∧
        (ofSequence twoLines).GivesLines 8 (lines.map .ok) ∧
        answers.length ≤ twoLines.length + 2 ∧
        List.Forall₂ GivenLine.LeftOf (givenLines false answers) lines := by
  have failing : Source.Yields interrupted twoLines 2 :=
    .given rfl (.given rfl (.failed rfl (.given rfl (.given rfl (.given rfl (.failed rfl
      (.given rfl (.given rfl (.ended rfl)))))))))
  have started : Cursor.ofSource interrupted = .ok interruptedStart.cursor := rfl
  have yields := Cursor.yields_ofSource started failing
  have same : (ofSequence twoLines).cursor.Yields twoLines 0 := .present rfl (Source.yields_list _)
  exact ⟨⟨_, rfl⟩, lines_stay_aligned yields same (by decide)⟩

end TextCursor
end ForwardCursor
