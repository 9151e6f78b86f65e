import ForwardCursor.Cursor.Extract
import ForwardCursor.Source.Sequence

namespace ForwardCursor

/-!
# Text cursors

A text cursor is a cursor over characters that gives out runs of them as strings.
Its single steps are the ones of the cursor inside.  Its runs are the same
repetitions as those of the cursor, collected in a string instead of an array, so
no character is looked at or asked for in a different order.
-/

/-- A cursor over characters whose runs are strings. -/
structure TextCursor (σ : Type) where
  cursor : Cursor σ Char

namespace TextCursor

variable {σ ε β τ : Type}

/-- Perform a step of the cursor inside. -/
def onCursor (step : Cursor σ Char → β × Cursor σ Char) (text : TextCursor σ) :
    β × TextCursor σ :=
  let (answer, cursor) := step text.cursor
  (answer, ⟨cursor⟩)

/-- Start a text cursor over a source that cannot fail. -/
def ofSequence [Source σ Empty Char] (source : σ) : TextCursor σ :=
  ⟨Cursor.ofSequence source⟩

/-- Start a text cursor over the characters of a string. -/
def ofString (string : String) : TextCursor (List Char) := ofSequence string.toList

/-- The number of characters taken. -/
def position (text : TextCursor σ) : Nat := text.cursor.position

/-- The next character, which has not been taken yet. -/
def ahead (text : TextCursor σ) : Option Char := text.cursor.ahead

/-- Whether the end has been reached. -/
def atEnd (text : TextCursor σ) : Bool := text.cursor.atEnd

/-- Give back the source, which has already given the character ahead. -/
def source (text : TextCursor σ) : σ := text.cursor.source

variable [Source σ ε Char]

/-- Start a text cursor by asking for the first character.  A failure of that request
is returned with the source. -/
def ofSource (source : σ) : Except (ε × σ) (TextCursor σ) :=
  (Cursor.ofSource source).map mk

/-- Take the next character, or nothing at the end. -/
def next : TextCursor σ → Except ε (Option Char) × TextCursor σ := onCursor Cursor.next

/-- Pass over the next character, if there is one. -/
def skip : TextCursor σ → Except ε Unit × TextCursor σ := onCursor Cursor.skip

/-- Pass over `count` characters, or fewer if the end comes first, and tell how many
there were. -/
def drop (count : Nat) : TextCursor σ → Except ε Nat × TextCursor σ :=
  onCursor (Cursor.drop count)

/-- Take `count` characters, or fewer if the end comes first. -/
def take (count : Nat) : TextCursor σ → Except ε String × TextCursor σ :=
  onCursor (Cursor.foldTake String.push count "")

/-- Take characters until a test with a state accepts the one ahead; the last state is
part of the answer. -/
def takeUntilWith (rounds : Nat) (test : τ → Char → Bool × τ) (state : τ)
    (text : TextCursor σ) : Option (Except ε String × τ × TextCursor σ) :=
  (Cursor.foldUntil test String.push rounds state "" text.cursor).map
    fun (answer, state, cursor) => (answer, state, ⟨cursor⟩)

/-- Take characters until the one ahead satisfies the predicate. -/
def takeUntil (rounds : Nat) (predicate : Char → Bool) (text : TextCursor σ) :
    Option (Except ε String × TextCursor σ) :=
  (text.takeUntilWith rounds (fun _ character => (predicate character, ())) ()).map
    fun (answer, _, text) => (answer, text)

/-- Take characters until the one ahead is the target. -/
def takeTo (rounds : Nat) (target : Char) (text : TextCursor σ) :
    Option (Except ε String × TextCursor σ) :=
  text.takeUntil rounds (· == target)

/-- Take all remaining characters. -/
def takeAll (rounds : Nat) (text : TextCursor σ) :
    Option (Except ε String × TextCursor σ) :=
  text.takeUntil rounds fun _ => false

/-! ## The cursor inside -/

theorem next_eq (text : TextCursor σ) :
    text.next = (text.cursor.next.1, ⟨text.cursor.next.2⟩) := rfl

theorem skip_eq (text : TextCursor σ) :
    text.skip = (text.cursor.skip.1, ⟨text.cursor.skip.2⟩) := rfl

theorem drop_eq (count : Nat) (text : TextCursor σ) :
    text.drop count = ((text.cursor.drop count).1, ⟨(text.cursor.drop count).2⟩) := rfl

/-- At the end a bounded run is empty, and nothing is asked of test or source. -/
theorem takeUntilWith_of_end (rounds : Nat) (test : τ → Char → Bool × τ) (state : τ)
    {text : TextCursor σ} (ended : text.ahead = none) :
    text.takeUntilWith (rounds + 1) test state = some (.ok "", state, text) := by
  have ended : text.cursor.ahead = none := ended
  simp only [takeUntilWith, Cursor.foldUntil_of_end test String.push rounds state "" ended,
    Option.map_some]

theorem takeUntil_of_end (rounds : Nat) (predicate : Char → Bool)
    {text : TextCursor σ} (ended : text.ahead = none) :
    text.takeUntil (rounds + 1) predicate = some (.ok "", text) := by
  simp only [takeUntil, takeUntilWith_of_end rounds _ () ended, Option.map_some]

end TextCursor

end ForwardCursor
