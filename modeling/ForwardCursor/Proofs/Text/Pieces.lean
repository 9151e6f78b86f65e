import ForwardCursor.Text.Line
import Mathlib.Data.List.Basic

namespace ForwardCursor

/-!
# The lines of a whole text

Two descriptions of the lines of a text that is known as a whole.  The first rewrites the
text until all line breaks are the same, and then splits it there.  The second divides the
text into pieces, each a line with the characters that end it, so that it also tells
where a line is in the text.

The second description is a relation, not a procedure.  A carriage return in front of a line
feed never ends a line by itself, because the line feed belongs to it.  The end of the text
ends a line too, but not an empty one.
-/

/-! ## Rewriting and splitting -/

/-- Every pair of a carriage return and a line feed is replaced by one line feed. -/
def joinPairs : List Char → List Char
  | '\r' :: '\n' :: text => '\n' :: joinPairs text
  | character :: text => character :: joinPairs text
  | [] => []

/-- Every carriage return is replaced by a line feed. -/
def feedLines (text : List Char) : List Char :=
  text.map fun character => if character = '\r' then '\n' else character

/-- The last of some lines is left out if it is empty. -/
def dropEmptyLast (lines : List (List Char)) : List (List Char) :=
  if lines.getLast? = some [] then lines.dropLast else lines

/-- The lines of a whole text: pairs are joined, the other carriage returns are replaced, and
the text is split at its line feeds. -/
def wholeTextLines (text : List Char) : List (List Char) :=
  dropEmptyLast ((feedLines (joinPairs text)).splitOn '\n')

/-! ## Pieces -/

/-- A line and the characters that end it. -/
structure Piece where
  line : List Char
  ending : List Char

/-- The characters of a text that are a piece of it. -/
def Piece.characters (piece : Piece) : List Char := piece.line ++ piece.ending

/-- The line of a piece as it is given out. -/
def Piece.string (piece : Piece) : String := String.ofList piece.line

theorem Piece.suffix_string {shorter piece : Piece} (suffix : shorter.line <:+ piece.line) :
    shorter.string.toList <:+ piece.string.toList := by
  rw [Piece.string, Piece.string, String.toList_ofList, String.toList_ofList]
  exact suffix

/-- The characters end a line in front of the rest of the text. -/
inductive LineEnd : List Char → List Char → Prop where
  | feed (rest : List Char) : LineEnd ['\n'] rest
  | pair (rest : List Char) : LineEnd ['\r', '\n'] rest
  | carriage {rest : List Char} (single : rest.head? ≠ some '\n') : LineEnd ['\r'] rest
  | text : LineEnd [] []

/-- A line has no line break in it. -/
def Unbroken (line : List Char) : Prop := ∀ character ∈ line, character ≠ '\n' ∧ character ≠ '\r'

instance (line : List Char) : Decidable (Unbroken line) := List.decidableBAll _ line

/-- The text is divided into pieces, none of which is empty. -/
inductive Divides : List Char → List Piece → Prop where
  | nil : Divides [] []
  | cons {line ending rest : List Char} {pieces : List Piece} (unbroken : Unbroken line)
      (ends : LineEnd ending rest) (nonempty : line ++ ending ≠ []) (later : Divides rest pieces) :
      Divides (line ++ (ending ++ rest)) (⟨line, ending⟩ :: pieces)

/-- No character of the text is lost or moved by dividing it. -/
theorem Divides.characters_eq {text : List Char} {pieces : List Piece}
    (divides : Divides text pieces) : pieces.flatMap Piece.characters = text := by
  induction divides with
  | nil => rfl
  | cons _ _ _ _ inductionHypothesis =>
      rw [List.flatMap_cons, inductionHypothesis, Piece.characters, List.append_assoc]

theorem isLineTerminator_eq_false_iff (character : Char) :
    isLineTerminator character = false ↔ character ≠ '\n' ∧ character ≠ '\r' := by
  rw [← Bool.not_eq_true, isLineTerminator_iff, not_or]

/-- The first line of a text reaches to the first line break or to the end. -/
theorem LineEnd.takeWhile_eq {line ending rest : List Char} (unbroken : Unbroken line)
    (ends : LineEnd ending rest) :
    (line ++ (ending ++ rest)).takeWhile (fun character => !isLineTerminator character) = line ∧
      (line ++ (ending ++ rest)).dropWhile (fun character => !isLineTerminator character) =
        ending ++ rest := by
  have passed : ∀ character ∈ line, (!isLineTerminator character) = true := by
    intro character member
    rw [(isLineTerminator_eq_false_iff character).mpr (unbroken character member)]
    rfl
  rw [List.takeWhile_append_of_pos passed, List.dropWhile_append_of_pos passed]
  cases ends with
  | feed rest => simp [isLineTerminator]
  | pair rest => simp [isLineTerminator]
  | carriage single => simp [isLineTerminator]
  | text => simp

theorem Divides.characters_ne_nil {text : List Char} {piece : Piece} {pieces : List Piece}
    (divides : Divides text (piece :: pieces)) : piece.characters ≠ [] := by
  cases divides with
  | cons _ _ nonempty _ => exact nonempty

theorem Divides.eq_nil {pieces : List Piece} (divides : Divides [] pieces) : pieces = [] := by
  generalize same : ([] : List Char) = text at divides
  cases divides with
  | nil => rfl
  | cons _ _ nonempty _ =>
      rw [← List.append_assoc] at same
      exact absurd (List.append_eq_nil_iff.mp same.symm).1 nonempty

/-- A character that is no line break belongs to the line that follows it. -/
theorem Divides.cons_unbroken {character : Char} (other : character ≠ '\n' ∧ character ≠ '\r')
    {text : List Char} {pieces : List Piece} (divides : Divides text pieces) :
    ∃ pieces, Divides (character :: text) pieces := by
  cases divides with
  | nil =>
      have single : Unbroken [character] := List.forall_mem_singleton.mpr other
      exact ⟨_, Divides.cons single .text (List.cons_ne_nil _ _) .nil⟩
  | cons unbroken ends _ later =>
      have longer : Unbroken (character :: _) := List.forall_mem_cons.mpr ⟨other, unbroken⟩
      exact ⟨_, Divides.cons longer ends (List.cons_ne_nil _ _) later⟩

/-- A run without line breaks that is lost shortens the first line from the front and nothing
else, as long as something is left. -/
theorem Divides.of_lost {lost left : List Char} {piece : Piece} {pieces : List Piece}
    (divides : Divides (lost ++ left) (piece :: pieces))
    (passed : ∀ character ∈ lost, isLineTerminator character = false) (nonempty : left ≠ []) :
    ∃ shorter, Divides left (shorter :: pieces) ∧ shorter.line <:+ piece.line := by
  have skipped : ∀ character ∈ lost, (!isLineTerminator character) = true := by
    intro character member
    rw [passed character member]
    rfl
  generalize same : lost ++ left = text at divides
  cases divides with
  | @cons line ending rest _ unbroken ends _ later =>
      rcases ends.takeWhile_eq unbroken with ⟨front, back⟩
      rw [← same, List.takeWhile_append_of_pos skipped] at front
      rw [← same, List.dropWhile_append_of_pos skipped] at back
      have suffix := front ▸ List.suffix_append lost _
      have whole := List.takeWhile_append_dropWhile (p := (!isLineTerminator ·)) (l := left)
      rw [back] at whole
      rw [← whole] at nonempty ⊢
      refine ⟨⟨_, ending⟩, Divides.cons ?_ ends ?_ later, suffix⟩
      · exact fun character member => unbroken character (suffix.mem member)
      · intro empty
        rcases List.append_eq_nil_iff.mp empty with ⟨emptyLine, rfl⟩
        cases ends with
        | text => exact nonempty (by rw [emptyLine]; rfl)

/-- Every text can be divided. -/
theorem exists_divides (text : List Char) : ∃ pieces, Divides text pieces := by
  induction text using joinPairs.induct with
  | case1 text inductionHypothesis =>
      rcases inductionHypothesis with ⟨pieces, divides⟩
      exact ⟨_, Divides.cons (List.forall_mem_nil _) (.pair text) (List.cons_ne_nil _ _) divides⟩
  | case2 character text single inductionHypothesis =>
      rcases inductionHypothesis with ⟨pieces, divides⟩
      by_cases feed : character = '\n'
      · subst feed
        exact ⟨_, Divides.cons (List.forall_mem_nil _) (.feed text) (List.cons_ne_nil _ _) divides⟩
      · by_cases carriage : character = '\r'
        · subst carriage
          have alone : text.head? ≠ some '\n' := by
            intro paired
            rcases List.head?_eq_some_iff.mp paired with ⟨rest, same⟩
            exact single rest rfl same
          exact ⟨_, Divides.cons (List.forall_mem_nil _) (.carriage alone) (List.cons_ne_nil _ _)
            divides⟩
        · exact divides.cons_unbroken ⟨feed, carriage⟩
  | case3 => exact ⟨[], .nil⟩

/-! ## The two descriptions agree -/

theorem joinPairs_cons {character : Char} {text : List Char}
    (single : character = '\r' → text.head? ≠ some '\n') :
    joinPairs (character :: text) = character :: joinPairs text := by
  rw [joinPairs]
  intro rest carriage paired
  exact single carriage (List.head?_eq_some_iff.mpr ⟨rest, paired⟩)

theorem joinPairs_append {line : List Char} (unbroken : Unbroken line) (rest : List Char) :
    joinPairs (line ++ rest) = line ++ joinPairs rest := by
  induction line with
  | nil => rfl
  | cons character line inductionHypothesis =>
      rcases List.forall_mem_cons.mp unbroken with ⟨other, unbroken⟩
      rw [List.cons_append, joinPairs_cons (fun carriage => absurd carriage other.2),
        inductionHypothesis unbroken, List.cons_append]

theorem feedLines_append (first second : List Char) :
    feedLines (first ++ second) = feedLines first ++ feedLines second := List.map_append

theorem feedLines_of_unbroken {line : List Char} (unbroken : Unbroken line) :
    feedLines line = line := by
  induction line with
  | nil => rfl
  | cons character line inductionHypothesis =>
      rcases List.forall_mem_cons.mp unbroken with ⟨other, unbroken⟩
      rw [feedLines, List.map_cons, if_neg other.2]
      exact congrArg (character :: ·) (inductionHypothesis unbroken)

/-- However a line ends, a single line feed is left of it. -/
theorem feedLines_joinPairs {ending rest : List Char} (ends : LineEnd ending rest)
    (nonempty : ending ≠ []) :
    feedLines (joinPairs (ending ++ rest)) = '\n' :: feedLines (joinPairs rest) := by
  cases ends with
  | feed rest =>
      rw [List.singleton_append, joinPairs_cons (fun impossible => by cases impossible)]
      rfl
  | pair rest => rfl
  | carriage single =>
      rw [List.singleton_append, joinPairs_cons (fun _ => single)]
      rfl
  | text => exact absurd rfl nonempty

theorem dropEmptyLast_cons (line : List Char) {lines : List (List Char)} (nonempty : lines ≠ []) :
    dropEmptyLast (line :: lines) = line :: dropEmptyLast lines := by
  rw [dropEmptyLast, dropEmptyLast, List.getLast?_cons_of_ne_nil nonempty,
    List.dropLast_cons_of_ne_nil nonempty]
  split <;> rfl

theorem wholeTextLines_of_unbroken {line : List Char} (unbroken : Unbroken line)
    (nonempty : line ≠ []) : wholeTextLines line = [line] := by
  have joined := joinPairs_append unbroken []
  rw [List.append_nil, joinPairs, List.append_nil] at joined
  have absent : '\n' ∉ line := fun member => (unbroken _ member).1 rfl
  rw [wholeTextLines, joined, feedLines_of_unbroken unbroken, List.splitOn_eq_singleton absent,
    dropEmptyLast, List.getLast?_singleton, if_neg (Option.some_inj.not.mpr nonempty)]

theorem wholeTextLines_append {line ending rest : List Char} (unbroken : Unbroken line)
    (ends : LineEnd ending rest) (nonempty : ending ≠ []) :
    wholeTextLines (line ++ (ending ++ rest)) = line :: wholeTextLines rest := by
  have absent : '\n' ∉ line := fun member => (unbroken _ member).1 rfl
  rw [wholeTextLines, joinPairs_append unbroken, feedLines_append, feedLines_of_unbroken unbroken,
    feedLines_joinPairs ends nonempty, List.splitOn_append_cons_self_of_not_mem absent,
    dropEmptyLast_cons line (List.splitOn_ne_nil _ _), wholeTextLines]

/-- The lines of the pieces are the lines of the whole text. -/
theorem Divides.lines_eq {text : List Char} {pieces : List Piece} (divides : Divides text pieces) :
    pieces.map Piece.line = wholeTextLines text := by
  induction divides with
  | nil => rfl
  | @cons line ending rest pieces unbroken ends nonempty later inductionHypothesis =>
      by_cases last : ending = []
      · subst last
        cases ends with
        | text =>
            rw [List.append_nil] at nonempty
            rw [later.eq_nil, List.append_nil, List.append_nil,
              wholeTextLines_of_unbroken unbroken nonempty]
            rfl
      · rw [wholeTextLines_append unbroken ends last, List.map_cons, inductionHypothesis]

/-- A pair is one line break, and two carriage returns are two. -/
example : wholeTextLines ['a', '\r', '\n', 'b', '\r', '\r', 'c', '\n'] =
    [['a'], ['b'], [], ['c']] := rfl

end ForwardCursor
