import ForwardCursor.Proofs.Text.Alignment

namespace ForwardCursor

/-!
# Lines that are written and read back

Text can be written line by line, each line with a line break of its own choice, and then be read
by lines.  Which line break ended a line is not given out, so this choice would not matter if
every line break could be found again.  There is one that cannot: a carriage return and the line
feed of an empty line after it are two line breaks where they are written, and one pair where
they are read.

This is the only way to lose a line, and it costs one line each time.  The line behind the pair
is an ordinary one again, whatever ends it.
-/

/-- A line break as it is written. -/
inductive LineBreak where
  | feed
  | carriage
  | pair
  deriving DecidableEq

def LineBreak.characters : LineBreak → List Char
  | .feed => ['\n']
  | .carriage => ['\r']
  | .pair => ['\r', '\n']

/-- A line with the line break that it is written with. -/
structure WrittenLine where
  line : List Char
  lineBreak : LineBreak
  unbroken : Unbroken line

namespace WrittenLine

def characters (written : WrittenLine) : List Char := written.line ++ written.lineBreak.characters

/-- The line is nothing but a line feed, and the carriage return in front of it takes this for the
second half of a pair. -/
def MergesInto (written previous : WrittenLine) : Prop :=
  previous.lineBreak = .carriage ∧ written.line = [] ∧ written.lineBreak = .feed

instance (written previous : WrittenLine) : Decidable (written.MergesInto previous) :=
  inferInstanceAs (Decidable (_ ∧ _ ∧ _))

/-- The lines behind another one, without those that merge into the line in front of them. -/
def apartFrom : WrittenLine → List WrittenLine → List WrittenLine
  | _, [] => []
  | previous, written :: later =>
    if written.MergesInto previous then apartFrom written later
    else written :: apartFrom written later

/-- The lines without those that merge into the line in front of them. -/
def apart : List WrittenLine → List WrittenLine
  | [] => []
  | written :: later => written :: apartFrom written later

/-- How many lines merge into the line in front of them. -/
def mergers (written : List WrittenLine) : Nat :=
  (written.zip written.tail).countP fun (previous, written) => written.MergesInto previous

end WrittenLine

/-- Text that is written line by line.  At its end there can be a line without a line break, if it
is not empty. -/
structure WrittenText where
  written : List WrittenLine
  last : List Char
  unbroken : Unbroken last

namespace WrittenText

def characters (text : WrittenText) : List Char :=
  text.written.flatMap WrittenLine.characters ++ text.last

def string (text : WrittenText) : String := String.ofList text.characters

/-- The line without a line break, if there is one. -/
def lastLines (last : List Char) : List (List Char) := if last = [] then [] else [last]

/-- Some of the lines written, and the one without a line break. -/
def strings (text : WrittenText) (written : List WrittenLine) : List String :=
  (written.map WrittenLine.line ++ lastLines text.last).map String.ofList

end WrittenText

/-! ## Lines that merge -/

namespace WrittenLine

theorem mergers_cons_cons (previous next : WrittenLine) (later : List WrittenLine) :
    mergers (previous :: next :: later) =
      mergers (next :: later) + if next.MergesInto previous then 1 else 0 := by
  simp only [mergers, List.tail_cons, List.zip_cons_cons, List.countP_cons, decide_eq_true_eq]

theorem length_apartFrom (previous : WrittenLine) (written : List WrittenLine) :
    (apartFrom previous written).length + mergers (previous :: written) = written.length := by
  induction written generalizing previous with
  | nil => rfl
  | cons next later inductionHypothesis =>
      have counted := inductionHypothesis next
      rw [mergers_cons_cons, apartFrom, List.length_cons]
      split
      · omega
      · rw [List.length_cons]
        omega

/-- Each line that merges is one line less. -/
theorem length_apart (written : List WrittenLine) :
    (apart written).length + mergers written = written.length := by
  cases written with
  | nil => rfl
  | cons written later =>
      rw [apart, List.length_cons, List.length_cons, ← length_apartFrom written later]
      omega

theorem apartFrom_of_chain {previous : WrittenLine} {written : List WrittenLine}
    (chain : (previous :: written).IsChain fun previous written => ¬ written.MergesInto previous) :
    apartFrom previous written = written := by
  induction written generalizing previous with
  | nil => rfl
  | cons next later inductionHypothesis =>
      rcases List.isChain_cons_cons.mp chain with ⟨apart, chain⟩
      rw [apartFrom, if_neg apart, inductionHypothesis chain]

theorem apart_of_chain {written : List WrittenLine}
    (chain : written.IsChain fun previous written => ¬ written.MergesInto previous) :
    apart written = written := by
  cases written with
  | nil => rfl
  | cons written later => rw [apart, apartFrom_of_chain chain]

end WrittenLine

/-! ## The lines of written text -/

theorem Unbroken.head?_ne {line : List Char} (unbroken : Unbroken line) :
    line.head? ≠ some '\n' := by
  intro feed
  exact (unbroken '\n' (List.mem_of_head? feed)).1 rfl

theorem LineBreak.characters_ne_nil (lineBreak : LineBreak) : lineBreak.characters ≠ [] := by
  cases lineBreak <;> exact List.cons_ne_nil _ _

/-- A line break ends its line, unless it is half of a pair. -/
theorem LineBreak.lineEnd (lineBreak : LineBreak) {rest : List Char}
    (single : lineBreak = .carriage → rest.head? ≠ some '\n') :
    LineEnd lineBreak.characters rest := by
  cases lineBreak with
  | feed => exact .feed rest
  | carriage => exact .carriage (single rfl)
  | pair => exact .pair rest

theorem wholeTextLines_last {last : List Char} (unbroken : Unbroken last) :
    wholeTextLines last = WrittenText.lastLines last := by
  by_cases empty : last = []
  · rw [empty]
    rfl
  · rw [wholeTextLines_of_unbroken unbroken empty, WrittenText.lastLines, if_neg empty]

namespace WrittenLine

theorem wholeTextLines_cons (written : WrittenLine) {rest : List Char}
    (single : written.lineBreak = .carriage → rest.head? ≠ some '\n') :
    wholeTextLines (written.characters ++ rest) = written.line :: wholeTextLines rest := by
  rw [characters, List.append_assoc]
  exact wholeTextLines_append written.unbroken (LineBreak.lineEnd _ single)
    (LineBreak.characters_ne_nil _)

/-- A line that merges is read as a part of the line break in front of it. -/
theorem wholeTextLines_of_merges {written previous : WrittenLine}
    (merges : written.MergesInto previous) (rest : List Char) :
    wholeTextLines (previous.characters ++ (written.characters ++ rest)) =
      previous.line :: wholeTextLines rest := by
  rcases merges with ⟨carriage, empty, feed⟩
  rw [characters, characters, carriage, empty, feed, List.append_assoc]
  exact wholeTextLines_append previous.unbroken (.pair rest) (List.cons_ne_nil _ _)

/-- No other line than one that merges begins with a line feed behind a carriage return. -/
theorem head?_ne_of_not_merges {written previous : WrittenLine}
    (apart : ¬ written.MergesInto previous) (carriage : previous.lineBreak = .carriage)
    (rest : List Char) : (written.characters ++ rest).head? ≠ some '\n' := by
  rcases written with ⟨line, lineBreak, unbroken⟩
  cases line with
  | nil =>
      cases lineBreak with
      | feed => exact absurd ⟨carriage, rfl, rfl⟩ apart
      | carriage | pair =>
          intro feed
          have same : '\r' = '\n' := Option.some.inj feed
          exact absurd same (by decide)
  | cons first line =>
      have head := unbroken.head?_ne
      exact head

/-- The lines of written text are those that do not merge. -/
theorem wholeTextLines_written (previous : WrittenLine) (written : List WrittenLine)
    {last : List Char} (unbroken : Unbroken last) :
    wholeTextLines (previous.characters ++ (written.flatMap characters ++ last)) =
      previous.line :: ((apartFrom previous written).map line ++ WrittenText.lastLines last) := by
  induction written generalizing previous with
  | nil =>
      have single := fun _ : previous.lineBreak = .carriage => unbroken.head?_ne
      rw [List.flatMap_nil, List.nil_append, wholeTextLines_cons previous single,
        wholeTextLines_last unbroken]
      rfl
  | cons next later inductionHypothesis =>
      have onwards := inductionHypothesis next
      rw [List.flatMap_cons, List.append_assoc, apartFrom]
      by_cases merges : next.MergesInto previous
      · -- Behind the pair the text goes on as it does behind any line feed.
        have single : next.lineBreak = .carriage →
            (later.flatMap characters ++ last).head? ≠ some '\n' := by
          intro carriage
          cases carriage.symm.trans merges.2.2
        rw [wholeTextLines_cons next single] at onwards
        rw [if_pos merges, wholeTextLines_of_merges merges, (List.cons.inj onwards).2]
      · have single := fun carriage =>
          head?_ne_of_not_merges merges carriage (later.flatMap characters ++ last)
        rw [if_neg merges, wholeTextLines_cons previous single, onwards]
        rfl

end WrittenLine

namespace WrittenText

theorem wholeTextLines_characters (text : WrittenText) :
    wholeTextLines text.characters =
      (WrittenLine.apart text.written).map WrittenLine.line ++ lastLines text.last := by
  rcases text with ⟨written, last, unbroken⟩
  cases written with
  | nil => exact wholeTextLines_last unbroken
  | cons written later =>
      rw [characters, List.flatMap_cons, List.append_assoc]
      exact WrittenLine.wholeTextLines_written written later unbroken

end WrittenText

/-! ## Reading -/

namespace TextCursor

open WrittenLine (MergesInto apart mergers)

theorem givesLines_ofString (string : String) {rounds : Nat}
    (enough : string.toList.length < rounds) :
    (ofString string).GivesLines rounds
      (((wholeTextLines string.toList).map String.ofList).map .ok) := by
  rcases exists_divides string.toList with ⟨pieces, divides⟩
  have gives := givesLines_of_yields (Cursor.yields_ofSequence string.toList) divides enough
  rw [← divides.lines_eq, List.map_map (f := Piece.line)]
  exact gives

/-- Text that was written line by line gives its lines back, but for the empty ones that are a
line feed right behind the carriage return of another line.  Each of them is one line less.  If
there are none, what is read is what was written. -/
theorem lines_of_writtenText (text : WrittenText) {rounds : Nat}
    (enough : text.characters.length < rounds) :
    (ofString text.string).GivesLines rounds ((text.strings (apart text.written)).map .ok) ∧
      (apart text.written).length + mergers text.written = text.written.length ∧
      ((text.written.IsChain fun previous written => ¬ written.MergesInto previous) →
        (ofString text.string).GivesLines rounds ((text.strings text.written).map .ok)) := by
  have characters : text.string.toList = text.characters := String.toList_ofList
  have gives := givesLines_ofString text.string (characters ▸ enough)
  rw [characters, text.wholeTextLines_characters] at gives
  refine ⟨gives, WrittenLine.length_apart text.written, ?_⟩
  intro chain
  rw [WrittenLine.apart_of_chain chain] at gives
  exact gives

def emptyLine (lineBreak : LineBreak) : WrittenLine := ⟨[], lineBreak, List.forall_mem_nil _⟩

/-- Lines of which the second one merges into the first.  The third one has the same characters
and does not. -/
def merging : WrittenText where
  written := [⟨['a'], .carriage, by decide⟩, emptyLine .feed, emptyLine .feed, emptyLine .carriage,
    emptyLine .pair]
  last := ['b']
  unbroken := by decide

/-- The last of these lines, where none merges. -/
def parting : WrittenText := { merging with written := merging.written.drop 2 }

theorem lines_of_writtenText_merging :
    (merging.string = "a\r\n\n\r\r\nb" ∧ mergers merging.written = 1 ∧
        (ofString merging.string).GivesLines 9 [.ok "a", .ok "", .ok "", .ok "", .ok "b"]) ∧
      parting.string = "\n\r\r\nb" ∧
        (ofString parting.string).GivesLines 6 [.ok "", .ok "", .ok "", .ok "b"] := by
  have chain : parting.written.IsChain fun previous written => ¬ written.MergesInto previous :=
    List.isChain_cons_cons.mpr ⟨by decide, List.isChain_cons_cons.mpr
      ⟨by decide, .singleton _⟩⟩
  have merged := lines_of_writtenText merging (by decide : merging.characters.length < 9)
  have parted := lines_of_writtenText parting (by decide : parting.characters.length < 6)
  exact ⟨⟨rfl, rfl, merged.1⟩, rfl, parted.2.2 chain⟩

end TextCursor
end ForwardCursor
