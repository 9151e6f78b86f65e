import ForwardCursor.Proofs.Cursor.Finite
import ForwardCursor.Proofs.Text.Operation
import ForwardCursor.Proofs.Text.Pieces

namespace ForwardCursor
namespace TextCursor

/-!
# Reading a finite text by lines

A text cursor over a finite source reads the pieces of the text that remains, one with each
line.  A failure can come at any of the requests that this takes, and then a part of the
piece has been lost.  Whatever the part is, the rest of it is again one piece, with what is
left of the same line.  Half of a pair that remains ends an empty line, like the pair itself
would have done.

Without failures the lines read are therefore those of the whole text.  Each of them leaves
the text cursor behind its piece, and the end is reached with the last one.
-/

variable {σ ε : Type} [Source σ ε Char]

/-! ## Single steps -/

theorem next_yields {text : TextCursor σ} {character : Char} {rest : List Char} {failures : Nat}
    (yields : text.cursor.Yields (character :: rest) failures) :
    (∃ after, text.next = (.ok (some character), after) ∧ after.cursor.Yields rest failures ∧
      after.position = text.position + 1) ∨
    (∃ failure after later, text.next = (.error failure, after) ∧
      after.cursor.Yields (character :: rest) later ∧ failures = later + 1) := by
  rcases Cursor.next_yields yields with ⟨after, stepped, remains, moved⟩ |
    ⟨failure, after, later, stepped, remains, _, fewer⟩
  · exact Or.inl ⟨⟨after⟩, by rw [next_eq, stepped], remains, moved⟩
  · exact Or.inr ⟨failure, ⟨after⟩, later, by rw [next_eq, stepped], remains, fewer⟩

theorem skip_yields {text : TextCursor σ} {character : Char} {rest : List Char} {failures : Nat}
    (yields : text.cursor.Yields (character :: rest) failures) :
    (∃ after, text.skip = (.ok (), after) ∧ after.cursor.Yields rest failures ∧
      after.position = text.position + 1) ∨
    (∃ failure after later, text.skip = (.error failure, after) ∧
      after.cursor.Yields (character :: rest) later ∧ failures = later + 1) := by
  have skipped : text.skip = (text.next.1.map fun _ => (), text.next.2) := rfl
  rcases next_yields yields with ⟨after, stepped, remains, moved⟩ |
    ⟨failure, after, later, stepped, remains, fewer⟩
  · rw [stepped] at skipped
    exact Or.inl ⟨after, skipped, remains, moved⟩
  · rw [stepped] at skipped
    exact Or.inr ⟨failure, after, later, skipped, remains, fewer⟩

/-! ## A line break -/

/-- A line break is passed over as a whole, or there is a failure and some of it is left. -/
theorem skipLineBreak_yields {text : TextCursor σ} {ending rest : List Char} {failures : Nat}
    (yields : text.cursor.Yields (ending ++ rest) failures) (ends : LineEnd ending rest) :
    (∃ after, text.skipLineBreak = (.ok (), after) ∧ after.cursor.Yields rest failures ∧
      after.position = text.position + ending.length) ∨
    (∃ failure after left later, text.skipLineBreak = (.error failure, after) ∧
      left <:+ ending ∧ left ≠ [] ∧ LineEnd left rest ∧ after.cursor.Yields (left ++ rest) later ∧
      failures = later + 1) := by
  cases ends with
  | feed rest =>
      rcases next_yields yields with ⟨after, stepped, remains, moved⟩ |
        ⟨failure, after, later, stepped, remains, fewer⟩
      · have passed := skipLineBreak_of_single stepped fun impossible => by cases impossible
        exact Or.inl ⟨after, passed, remains, moved⟩
      · exact Or.inr ⟨failure, after, ['\n'], later, skipLineBreak_of_error stepped,
          List.suffix_rfl, List.cons_ne_nil _ _, .feed rest, remains, fewer⟩
  | pair rest =>
      rcases next_yields yields with ⟨between, stepped, remains, moved⟩ |
        ⟨failure, after, later, stepped, remains, fewer⟩
      · -- The carriage return is taken in any case, so a failure leaves the line feed alone.
        have passed := skipLineBreak_of_pair stepped remains.ahead_eq
        rcases skip_yields remains with ⟨after, skipped, remains, further⟩ |
          ⟨failure, after, later, skipped, remains, fewer⟩
        · refine Or.inl ⟨after, passed.trans skipped, remains, ?_⟩
          rw [further, moved]
          rfl
        · exact Or.inr ⟨failure, after, ['\n'], later, passed.trans skipped,
            List.suffix_cons _ _, List.cons_ne_nil _ _, .feed rest, remains, fewer⟩
      · exact Or.inr ⟨failure, after, ['\r', '\n'], later, skipLineBreak_of_error stepped,
          List.suffix_rfl, List.cons_ne_nil _ _, .pair rest, remains, fewer⟩
  | carriage single =>
      rcases next_yields yields with ⟨after, stepped, remains, moved⟩ |
        ⟨failure, after, later, stepped, remains, fewer⟩
      · have alone : after.ahead ≠ some '\n' := by
          rw [ahead, remains.ahead_eq]
          exact single
        exact Or.inl ⟨after, skipLineBreak_of_single stepped fun _ => alone, remains, moved⟩
      · exact Or.inr ⟨failure, after, ['\r'], later, skipLineBreak_of_error stepped,
          List.suffix_rfl, List.cons_ne_nil _ _, .carriage single, remains, fewer⟩
  | text => exact Or.inl ⟨text, skipLineBreak_of_end yields.ahead_eq, yields, rfl⟩

/-! ## A line -/

theorem foldl_push (characters : List Char) (string : String) :
    characters.foldl String.push string = string ++ String.ofList characters := by
  induction characters generalizing string with
  | nil => simp
  | cons character characters inductionHypothesis =>
      rw [List.foldl_cons, inductionHypothesis, String.ofList_cons, ← String.append_assoc,
        String.append_singleton]

/-- A bounded operation gives out the run in front of the first character that satisfies the
predicate, or it meets a failure inside this run. -/
theorem takeUntil_yields (predicate : Char → Bool) {rounds : Nat} {text : TextCursor σ}
    {remaining : List Char} {failures : Nat} (yields : text.cursor.Yields remaining failures)
    (enough : remaining.length < rounds) :
    let run := remaining.takeWhile fun character => !predicate character
    (∃ after, text.takeUntil rounds predicate = some (.ok (String.ofList run), after) ∧
      after.cursor.Yields (remaining.dropWhile fun character => !predicate character) failures ∧
      after.position = text.position + run.length) ∨
    (∃ failure after lost left later,
      text.takeUntil rounds predicate = some (.error failure, after) ∧
      remaining = lost ++ left ∧ left ≠ [] ∧ (∀ character ∈ lost, predicate character = false) ∧
      after.cursor.Yields left later ∧ failures = later + 1) := by
  rcases Cursor.foldUntil_yields predicate String.push "" yields enough with
    ⟨after, finished, remains, moved⟩ |
    ⟨failure, after, lost, left, later, finished, whole, nonempty, passed, remains, fewer⟩
  · refine Or.inl ⟨⟨after⟩, ?_, remains, moved⟩
    rw [takeUntil, takeUntilWith, finished, foldl_push, String.empty_append]
    rfl
  · refine Or.inr ⟨failure, ⟨after⟩, lost, left, later, ?_, whole, nonempty, passed, remains, fewer⟩
    rw [takeUntil, takeUntilWith, finished]
    rfl

/-- A request for a line reads the first piece.  If it fails, what is left of the text has the
same pieces, but the first of them has lost some characters. -/
theorem nextLine_yields {rounds : Nat} {text : TextCursor σ} {remaining : List Char} {piece : Piece}
    {pieces : List Piece} {failures : Nat} (yields : text.cursor.Yields remaining failures)
    (divides : Divides remaining (piece :: pieces)) (enough : remaining.length < rounds) :
    (∃ after rest, text.nextLine rounds = some (.ok piece.string, after) ∧
      remaining = piece.characters ++ rest ∧ after.cursor.Yields rest failures ∧
      Divides rest pieces ∧ after.position = text.position + piece.characters.length) ∨
    (∃ failure after left shorter later, text.nextLine rounds = some (.error failure, after) ∧
      left <:+ remaining ∧ after.cursor.Yields left later ∧ Divides left (shorter :: pieces) ∧
      shorter.line <:+ piece.line ∧ failures = later + 1) := by
  rcases takeUntil_yields isLineTerminator yields enough with ⟨stopped, taken, remains, moved⟩ |
    ⟨failure, after, lost, left, later, taken, rfl, nonempty, passed, remains, fewer⟩
  · cases divides with
    | @cons line ending rest _ unbroken ends _ later =>
        rcases ends.takeWhile_eq unbroken with ⟨front, back⟩
        rw [front] at taken moved
        rw [back] at remains
        rcases skipLineBreak_yields remains ends with ⟨after, passed, remains, further⟩ |
          ⟨failure, after, left, fewer, passed, shorter, nonempty, ends, remains, less⟩
        · refine Or.inl ⟨after, rest, ?_, (List.append_assoc _ _ _).symm, remains, later, ?_⟩
          · rw [nextLine_of_taken taken, passed]
            rfl
          · rw [further, moved, Piece.characters, List.length_append, Nat.add_assoc]
        · -- The line has been taken before its line break, so that an empty line is left of it.
          refine Or.inr ⟨failure, after, left ++ rest, ⟨[], left⟩, fewer, ?_, ?_, remains, ?_,
            List.nil_suffix, less⟩
          · rw [nextLine_of_taken taken, passed]
            rfl
          · exact (List.suffix_append_self_iff.mpr shorter).trans (List.suffix_append _ _)
          · exact Divides.cons (List.forall_mem_nil _) ends nonempty later
  · rcases divides.of_lost passed nonempty with ⟨shorter, divides, suffix⟩
    exact Or.inr ⟨failure, after, left, shorter, later, nextLine_of_error taken,
      List.suffix_append _ _, remains, divides, suffix, fewer⟩

/-! ## Lines in a row -/

/-- The answers to `count` requests for a line in a row, where the end gives empty lines. -/
def nextLines (rounds : Nat) :
    Nat → TextCursor σ → Option (List (Except ε String) × TextCursor σ)
  | 0, text => some ([], text)
  | count + 1, text => do
    let (answer, text) ← text.nextLine rounds
    let (answers, text) ← nextLines rounds count text
    return (answer :: answers, text)

theorem nextLines_cons {rounds count : Nat} {text middle after : TextCursor σ}
    {answer : Except ε String} {answers : List (Except ε String)}
    (first : text.nextLine rounds = some (answer, middle))
    (later : middle.nextLines rounds count = some (answers, after)) :
    text.nextLines rounds (count + 1) = some (answer :: answers, after) := by
  simp only [nextLines, first, later, Option.bind_eq_bind, Option.bind_some, Option.pure_def]

theorem nextLines_of_end (rounds count : Nat) {text : TextCursor σ} (ended : text.ahead = none) :
    text.nextLines (rounds + 1) count = some (List.replicate count (.ok ""), text) := by
  induction count with
  | zero => rfl
  | succ count inductionHypothesis =>
      exact nextLines_cons (nextLine_of_end rounds ended) inductionHypothesis

/-- By either way of asking for lines, those of the pieces are given one by one, and the
text cursor gets behind the last piece. -/
structure ReadsLines (rounds : Nat) (text : TextCursor σ) (pieces : List Piece)
    (after : TextCursor σ) : Prop where
  lines_eq : text.lines rounds pieces.length =
    some (pieces.map fun piece => some (.ok piece.string), after)
  nextLines_eq : text.nextLines rounds pieces.length =
    some (pieces.map fun piece => .ok piece.string, after)
  position_eq : after.position = text.position + (pieces.flatMap Piece.characters).length

/-- The end has been reached: there are no lines, or only empty ones, however many are asked
for. -/
structure NoLinesLeft (text : TextCursor σ) : Prop where
  atEnd_eq : text.atEnd = true
  lines_eq : ∀ rounds count, text.lines rounds count = some (List.replicate count none, text)
  nextLines_eq : ∀ rounds count,
    text.nextLines (rounds + 1) count = some (List.replicate count (.ok ""), text)

theorem noLinesLeft_of_end {text : TextCursor σ} (ended : text.ahead = none) :
    text.NoLinesLeft where
  atEnd_eq := (Cursor.atEnd_iff text.cursor).mpr ended
  lines_eq := fun rounds count => lines_of_end rounds count ended
  nextLines_eq := fun rounds count => nextLines_of_end rounds count ended

theorem atEnd_of_yields {text : TextCursor σ} {remaining : List Char} {pieces : List Piece}
    {failures : Nat} (yields : text.cursor.Yields remaining failures)
    (divides : Divides remaining pieces) : text.atEnd = true ↔ pieces = [] := by
  rw [atEnd, Cursor.atEnd_iff, yields.ahead_eq, List.head?_eq_none_iff]
  constructor
  · rintro rfl
    exact divides.eq_nil
  · rintro rfl
    exact divides.characters_eq.symm

/-- In front of a piece the next of the remaining lines is the next line. -/
theorem line?_of_yields {rounds : Nat} {text after : TextCursor σ} {remaining : List Char}
    {piece : Piece} {pieces : List Piece} {failures : Nat} {answer : Except ε String}
    (yields : text.cursor.Yields remaining failures)
    (divides : Divides remaining (piece :: pieces))
    (finished : text.nextLine rounds = some (answer, after)) :
    text.line? rounds = some (some answer, after) := by
  refine line?_of_nextLine ?_ finished
  rw [← Bool.not_eq_true, atEnd_of_yields yields divides]
  exact List.cons_ne_nil piece pieces

/-- The first pieces are read and the others are left. -/
theorem readsLines_of_yields {rounds : Nat} {text : TextCursor σ} {remaining : List Char}
    {read unread : List Piece} (yields : text.cursor.Yields remaining 0)
    (divides : Divides remaining (read ++ unread)) (enough : remaining.length < rounds) :
    ∃ middle rest, ReadsLines rounds text read middle ∧ middle.cursor.Yields rest 0 ∧
      Divides rest unread := by
  induction read generalizing text remaining with
  | nil => exact ⟨text, remaining, ⟨rfl, rfl, rfl⟩, yields, divides⟩
  | cons piece read inductionHypothesis =>
      rcases nextLine_yields yields divides enough with
        ⟨after, rest, given, rfl, remains, later, moved⟩ | ⟨_, _, _, _, _, _, _, _, _, _, fewer⟩
      · rw [List.length_append] at enough
        rcases inductionHypothesis remains later (by omega) with
          ⟨middle, left, reads, leaves, unreadPieces⟩
        refine ⟨middle, left, ⟨?_, ?_, ?_⟩, leaves, unreadPieces⟩
        · exact lines_cons (line?_of_yields yields divides given) reads.lines_eq
        · exact nextLines_cons given reads.nextLines_eq
        · rw [reads.position_eq, moved, List.flatMap_cons, List.length_append, Nat.add_assoc]
      · exact absurd fewer (Nat.succ_ne_zero _).symm

/-! ## All lines of a text -/

/-- Wherever a run of operations has led in a text that ends without a failure, the lines that
are still to be read are those of the text that remains, taken as a whole.  A line moves the
text cursor behind the characters that end it.  The last of the lines leads to the end, and
nothing else does. -/
theorem lines_eq_wholeTextLines {start text : TextCursor σ} {whole : List Char} {failed : Nat}
    (yields : start.cursor.Yields whole 0) (run : Run Call start failed text) :
    ∃ taken remaining pieces, whole = taken ++ remaining ∧
      text.position = start.position + taken.length ∧
      text.cursor.remaining = Stream'.Seq.ofList remaining ∧
      Divides remaining pieces ∧ pieces.map Piece.line = wholeTextLines remaining ∧
      ∀ rounds, remaining.length < rounds → ∀ read unread, pieces = read ++ unread →
        ∃ middle, ReadsLines rounds text read middle ∧ (middle.atEnd = true ↔ unread = []) ∧
          (unread = [] → middle.NoLinesLeft) := by
  have within := related_of_run (Cursor.stepwise_within whole 0 start.position) run
    ⟨[], whole, 0, rfl, rfl, yields, Nat.le_refl 0⟩
  rcases within with ⟨taken, remaining, later, split, counted, yields, none⟩
  cases Nat.le_zero.mp none
  rcases exists_divides remaining with ⟨pieces, divides⟩
  refine ⟨taken, remaining, pieces, split, counted, yields.remaining_eq, divides,
    divides.lines_eq, ?_⟩
  rintro rounds enough read unread rfl
  rcases readsLines_of_yields yields divides enough with ⟨middle, rest, reads, yields, divides⟩
  have ended := atEnd_of_yields yields divides
  refine ⟨middle, reads, ended, ?_⟩
  intro nothing
  exact noLinesLeft_of_end ((Cursor.atEnd_iff middle.cursor).mp (ended.mpr nothing))

/-- A text with all kinds of line breaks. -/
def allBreaks : List Char := ['a', '\r', '\n', 'b', '\r', 'c', '\n']

/-- That text between the two halves of the pair. -/
def insidePair : TextCursor (List Char) := ⟨⟨allBreaks.drop 3, some '\n', 2⟩⟩

theorem lines_eq_wholeTextLines_insidePair :
    (ofSequence allBreaks).cursor.Yields allBreaks 0 ∧
      Run Call (ofSequence allBreaks) 0 insidePair ∧
      ∃ pieces after, pieces.map Piece.line = [[], ['b'], ['c']] ∧
        ReadsLines 6 insidePair pieces after ∧ after.NoLinesLeft := by
  have yields : (ofSequence allBreaks).cursor.Yields allBreaks 0 := .present rfl (Source.yields_list _)
  have taken : Call (ofSequence allBreaks) (.ok (.string "a\r")) insidePair := ⟨0, .take 2, rfl⟩
  have run := Run.refl.step taken
  rcases lines_eq_wholeTextLines yields run with
    ⟨front, remaining, pieces, split, counted, _, _, same, reading⟩
  have left : remaining = allBreaks.drop 2 := by
    have two : front.length = 2 := (counted.trans (Nat.zero_add _)).symm
    rw [split, ← two, List.drop_left]
  have enough : remaining.length < 6 := by
    rw [left]
    decide
  rcases reading 6 enough pieces [] (List.append_nil _).symm with ⟨after, reads, _, nothing⟩
  refine ⟨yields, run, pieces, after, ?_, reads, nothing rfl⟩
  rw [same, left]
  rfl

end TextCursor
end ForwardCursor
