import ForwardCursor.Text.Basic

namespace ForwardCursor

/-!
# Lines

A line ends at a line feed, at a carriage return, or at the pair of a carriage
return and a line feed, which is one break and not two.  The end of the text also
ends a line, but it does not start another one: text that ends in a line break has
no empty line after it.

The pair is recognized by looking at the character ahead after a carriage return has
been taken.  Reading a line therefore has three places where the source can fail:
inside the line, at its terminator, and at the second half of a pair.  The characters
taken before a failure stay taken.
-/

/-- Whether a character starts a line break. -/
def isLineTerminator (character : Char) : Bool :=
  character == '\n' || character == '\r'

theorem isLineTerminator_iff (character : Char) :
    isLineTerminator character = true ↔ character = '\n' ∨ character = '\r' := by
  simp [isLineTerminator]

namespace TextCursor

variable {σ ε : Type} [Source σ ε Char]

/-- Take the line break ahead, with the line feed that belongs to a carriage return.
At the end there is nothing to take. -/
def skipLineBreak (text : TextCursor σ) : Except ε Unit × TextCursor σ :=
  match text.next with
  | (.ok (some '\r'), text) => if text.ahead = some '\n' then text.skip else (.ok (), text)
  | (.ok _, text) => (.ok (), text)
  | (.error failure, text) => (.error failure, text)

/-- Take a line and its line break, and give out the line.  At the end the line is
empty. -/
def nextLine (rounds : Nat) (text : TextCursor σ) :
    Option (Except ε String × TextCursor σ) :=
  (text.takeUntil rounds isLineTerminator).map fun
    | (.ok line, text) =>
      let (ended, text) := text.skipLineBreak
      (ended.map fun _ => line, text)
    | (.error failure, text) => (.error failure, text)

/-- The next line, or nothing at the end. -/
def line? (rounds : Nat) (text : TextCursor σ) :
    Option (Option (Except ε String) × TextCursor σ) :=
  if text.atEnd then some (none, text)
  else (text.nextLine rounds).map fun (answer, text) => (some answer, text)

/-- The answers to `count` requests for a line in a row, whatever each of them is. -/
def lines (rounds : Nat) :
    Nat → TextCursor σ → Option (List (Option (Except ε String)) × TextCursor σ)
  | 0, text => some ([], text)
  | count + 1, text => do
    let (answer, text) ← text.line? rounds
    let (answers, text) ← lines rounds count text
    return (answer :: answers, text)

/-! ## The ways past a line break -/

theorem skipLineBreak_of_error {text after : TextCursor σ} {failure : ε}
    (stepped : text.next = (.error failure, after)) :
    text.skipLineBreak = (.error failure, after) := by
  simp only [skipLineBreak, stepped]

/-- Both halves of a pair are passed over. -/
theorem skipLineBreak_of_pair {text after : TextCursor σ}
    (stepped : text.next = (.ok (some '\r'), after)) (paired : after.ahead = some '\n') :
    text.skipLineBreak = after.skip := by
  simp only [skipLineBreak, stepped, paired, if_true]

theorem skipLineBreak_of_single {text after : TextCursor σ} {given : Option Char}
    (stepped : text.next = (.ok given, after))
    (single : given = some '\r' → after.ahead ≠ some '\n') :
    text.skipLineBreak = (.ok (), after) := by
  simp only [skipLineBreak, stepped]
  split
  · next carriage =>
      cases carriage
      exact if_neg (single rfl)
  · next other => cases other; rfl
  · next impossible => cases impossible

/-- A line break is passed over in one of the three ways above. -/
theorem skipLineBreak_cases (text : TextCursor σ) :
    (∃ failure after, text.next = (.error failure, after) ∧
      text.skipLineBreak = (.error failure, after)) ∨
    (∃ after, text.next = (.ok (some '\r'), after) ∧ after.ahead = some '\n' ∧
      text.skipLineBreak = after.skip) ∨
    (∃ given after, text.next = (.ok given, after) ∧
      (given = some '\r' → after.ahead ≠ some '\n') ∧ text.skipLineBreak = (.ok (), after)) := by
  match stepped : text.next with
  | (.error failure, after) =>
      exact Or.inl ⟨failure, after, rfl, skipLineBreak_of_error stepped⟩
  | (.ok given, after) =>
      by_cases pair : given = some '\r' ∧ after.ahead = some '\n'
      · rcases pair with ⟨rfl, paired⟩
        exact Or.inr (Or.inl ⟨after, rfl, paired, skipLineBreak_of_pair stepped paired⟩)
      · have single := not_and.mp pair
        exact Or.inr (Or.inr ⟨given, after, rfl, single, skipLineBreak_of_single stepped single⟩)

/-! ## The ways of a line -/

theorem nextLine_of_taken {rounds : Nat} {text stopped : TextCursor σ} {line : String}
    (taken : text.takeUntil rounds isLineTerminator = some (.ok line, stopped)) :
    text.nextLine rounds =
      some (stopped.skipLineBreak.1.map fun _ => line, stopped.skipLineBreak.2) := by
  rw [nextLine, taken]
  rfl

theorem nextLine_of_error {rounds : Nat} {text after : TextCursor σ} {failure : ε}
    (taken : text.takeUntil rounds isLineTerminator = some (.error failure, after)) :
    text.nextLine rounds = some (.error failure, after) := by
  rw [nextLine, taken]
  rfl

theorem line?_of_nextLine {rounds : Nat} {text after : TextCursor σ} {answer : Except ε String}
    (unfinished : text.atEnd = false) (finished : text.nextLine rounds = some (answer, after)) :
    text.line? rounds = some (some answer, after) := by
  rw [line?, unfinished, finished]
  rfl

theorem lines_cons {rounds count : Nat} {text middle after : TextCursor σ}
    {answer : Option (Except ε String)} {answers : List (Option (Except ε String))}
    (first : text.line? rounds = some (answer, middle))
    (later : middle.lines rounds count = some (answers, after)) :
    text.lines rounds (count + 1) = some (answer :: answers, after) := by
  simp only [lines, first, later, Option.bind_eq_bind, Option.bind_some, Option.pure_def]

/-- Requests can be made in two lots: the second starts where the first stopped. -/
theorem lines_append {rounds first second : Nat} {text middle after : TextCursor σ}
    {answers later : List (Option (Except ε String))}
    (begun : text.lines rounds first = some (answers, middle))
    (finished : middle.lines rounds second = some (later, after)) :
    text.lines rounds (first + second) = some (answers ++ later, after) := by
  induction first generalizing text answers with
  | zero =>
      cases begun
      rw [Nat.zero_add]
      exact finished
  | succ first inductionHypothesis =>
      rw [lines, Option.bind_eq_bind, Option.bind_eq_some_iff] at begun
      rcases begun with ⟨⟨answer, next⟩, asked, begun⟩
      rcases Option.bind_eq_some_iff.mp begun with ⟨⟨others, last⟩, begun, same⟩
      cases same
      rw [Nat.succ_add]
      exact lines_cons asked (inductionHypothesis begun)

/-! ## Lines at the end -/

theorem skipLineBreak_of_end {text : TextCursor σ} (ended : text.ahead = none) :
    text.skipLineBreak = (.ok (), text) := by
  have stays : text.next = (.ok none, text) := by
    rw [next_eq, Cursor.next_of_end ended]
  simp only [skipLineBreak, stays]

theorem nextLine_of_end (rounds : Nat) {text : TextCursor σ} (ended : text.ahead = none) :
    text.nextLine (rounds + 1) = some (.ok "", text) := by
  simp only [nextLine, takeUntil_of_end rounds _ ended, Option.map_some,
    skipLineBreak_of_end ended, Except.map]

/-- At the end there is no line, and asking for one changes nothing. -/
theorem line?_of_end (rounds : Nat) {text : TextCursor σ} (ended : text.ahead = none) :
    text.line? rounds = some (none, text) := by
  have ended : text.atEnd = true := (Cursor.atEnd_iff text.cursor).mpr ended
  simp only [line?, ended, if_true]

theorem lines_of_end (rounds count : Nat) {text : TextCursor σ} (ended : text.ahead = none) :
    text.lines rounds count = some (List.replicate count none, text) := by
  induction count with
  | zero => rfl
  | succ count inductionHypothesis =>
      exact lines_cons (line?_of_end rounds ended) inductionHypothesis

end TextCursor

end ForwardCursor
