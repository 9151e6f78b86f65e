import ForwardCursor.Proofs.Text.Session

namespace ForwardCursor

/-!
# Text cursors and plain cursors over characters

A text cursor gives out strings where a plain cursor over the same characters gives out
arrays.  To each operation of a text cursor there is a counterpart on a plain cursor.  For
most of them it is the operation of the same name.  A line has none there and is put
together from three: what is in front of the line terminator, the terminator, and a line
feed ahead that belongs to it.

An operation and its counterpart take the same steps.  This needs no more of the two
sources than that they answer alike, so the theorem about equal sources is one of the uses
that can be made of it.
-/

namespace Cursor

variable {σ ε : Type} [Source σ ε Char]

/-- Take the next character, and a line feed ahead if that was a carriage return.  The first
failure ends it. -/
def passLineBreak (cursor : Cursor σ Char) : Except ε Unit × Cursor σ Char :=
  match cursor.next with
  | (.ok given, after) =>
    if given = some '\r' ∧ after.ahead = some '\n' then after.skip else (.ok (), after)
  | (.error failure, after) => (.error failure, after)

/-- Take characters until a line terminator is ahead, and then pass it.  The first failure
ends it. -/
def takeLine (rounds : Nat) (cursor : Cursor σ Char) :
    Option (Except ε (Array Char) × Cursor σ Char) :=
  (cursor.takeUntil rounds isLineTerminator).map fun
    | (.ok line, stopped) =>
      (stopped.passLineBreak.1.map fun _ => line, stopped.passLineBreak.2)
    | (.error failure, after) => (.error failure, after)

/-- What the counterpart of an operation gives out. -/
inductive TextAnswer where
  | plain (answer : Answer Char)
  | line (given : Option (Array Char))

/-- Perform the counterpart of an operation of a text cursor, with a record of what the
caller's test is asked about. -/
def counterpart (rounds : Nat) (cursor : Cursor σ Char) :
    TextCursor.Operation → Option (Outcome ε TextAnswer (Cursor σ Char))
  | .next => some ⟨cursor.next.1.map (.plain ∘ .element), [], cursor.next.2⟩
  | .skip => some ⟨cursor.skip.1.map fun _ => .plain .done, [], cursor.skip.2⟩
  | .drop count => some ⟨(cursor.drop count).1.map (.plain ∘ .count), [], (cursor.drop count).2⟩
  | .take count => some ⟨(cursor.take count).1.map (.plain ∘ .elements), [], (cursor.take count).2⟩
  | .takeUntilWith test state =>
    (cursor.takeUntilWith rounds (recording test) (state, [])).map
      fun (answer, (_, asked), after) => ⟨answer.map (.plain ∘ .elements), asked, after⟩
  | .takeTo target =>
    (cursor.takeTo rounds target).map
      fun (answer, after) => ⟨answer.map (.plain ∘ .elements), [], after⟩
  | .takeAll =>
    (cursor.takeAll rounds).map fun (answer, after) => ⟨answer.map (.plain ∘ .elements), [], after⟩
  | .nextLine =>
    (cursor.takeLine rounds).map fun (answer, after) => ⟨answer.map (.plain ∘ .elements), [], after⟩
  | .line =>
    if cursor.atEnd then some ⟨.ok (.line none), [], cursor⟩
    else (cursor.takeLine rounds).map fun (answer, after) => ⟨answer.map (.line ∘ some), [], after⟩

/-! ## Ways past a line break -/

theorem passLineBreak_of_error {cursor after : Cursor σ Char} {failure : ε}
    (stepped : cursor.next = (.error failure, after)) :
    cursor.passLineBreak = (.error failure, after) := by
  simp only [passLineBreak, stepped]

theorem passLineBreak_of_ok {cursor after : Cursor σ Char} {given : Option Char}
    (stepped : cursor.next = (.ok given, after)) :
    cursor.passLineBreak =
      if given = some '\r' ∧ after.ahead = some '\n' then after.skip else (.ok (), after) := by
  simp only [passLineBreak, stepped]

end Cursor

namespace TextCursor

/-- A string and an array of the same characters. -/
def Spells (string : String) (elements : Array Char) : Prop := string.toList = elements.toList

theorem spells_empty : Spells "" #[] := rfl

theorem spells_push (string : String) (elements : Array Char) (character : Char)
    (spells : Spells string elements) :
    Spells (string.push character) (elements.push character) := by
  rw [Spells, String.toList_push, spells, Array.toList_push]

/-- The answers are the same, with strings for arrays. -/
inductive Matches : Answer → Cursor.TextAnswer → Prop where
  | character (given : Option Char) : Matches (.character given) (.plain (.element given))
  | done : Matches .done (.plain .done)
  | count (passed : Nat) : Matches (.count passed) (.plain (.count passed))
  | string {taken : String} {elements : Array Char} (spells : Spells taken elements) :
      Matches (.string taken) (.plain (.elements elements))
  | noLine : Matches (.line none) (.line none)
  | line {taken : String} {elements : Array Char} (spells : Spells taken elements) :
      Matches (.line (some taken)) (.line (some elements))

/-- Only one answer of a text cursor matches an answer of a plain cursor. -/
theorem Matches.unique {first second : Answer} {answer : Cursor.TextAnswer}
    (one : Matches first answer) (other : Matches second answer) : first = second := by
  cases one with
  | character given =>
      cases other
      rfl
  | done =>
      cases other
      rfl
  | count passed =>
      cases other
      rfl
  | string spells =>
      cases other with
      | string others => rw [String.toList_inj.mp (spells.trans others.symm)]
  | noLine =>
      cases other
      rfl
  | line spells =>
      cases other with
      | line others => rw [String.toList_inj.mp (spells.trans others.symm)]

section Related

variable {σ ρ ε φ : Type} {failing : ε → φ → Prop} {related : σ → ρ → Prop}

/-- The cursor inside a text cursor shows the same as a plain cursor. -/
def Alongside (related : σ → ρ → Prop) (text : TextCursor σ) (cursor : Cursor ρ Char) : Prop :=
  text.cursor.Abreast related cursor

/-- A run without a test of the caller's is given out as a string here and as an array there. -/
theorem run_alongside {first : Option (Except ε String × TextCursor σ)}
    {second : Option (Except φ (Array Char) × Cursor ρ Char)}
    (run : Option.Rel (Together (Alike failing Spells) (Alongside related)) first second) :
    Option.Rel (Outcome.Alike failing Matches (Alongside related))
      ((first.map fun (answer, after) => (answer.map Answer.string, after)).map
        fun (answer, after) => ⟨answer, [], after⟩)
      (second.map fun (answer, after) => ⟨answer.map (.plain ∘ .elements), [], after⟩) := by
  rw [Option.map_map]
  apply rel_map run
  rintro ⟨answer, after⟩ ⟨given, other⟩ ⟨answers, afters⟩
  exact ⟨answers.map fun _ _ => .string, rfl, afters⟩

variable [Source σ ε Char] [Source ρ φ Char] (alike : Source.AnswerAlike failing related)
  {text : TextCursor σ} {cursor : Cursor ρ Char}

include alike

/-! ## Runs of characters -/

theorem take_alongside (count : Nat) (alongside : Alongside related text cursor) :
    Together (Alike failing Spells) (Alongside related) (text.take count) (cursor.take count) := by
  rcases Cursor.foldTake_abreast alike spells_push count spells_empty alongside with
    ⟨answers, afters⟩
  exact ⟨answers, afters⟩

theorem takeUntilWith_alongside (rounds : Nat) {τ : Type} (test : τ → Char → Bool × τ) (state : τ)
    (alongside : Alongside related text cursor) :
    Option.Rel (Together (Alike failing Spells) (Together Eq (Alongside related)))
      (text.takeUntilWith rounds test state) (cursor.takeUntilWith rounds test state) := by
  have collected : Option.Rel (Together (Alike failing Spells)
      (Together Eq (Cursor.Abreast related)))
      (Cursor.foldUntil test String.push rounds state "" text.cursor)
      (Cursor.foldUntil test Array.push rounds state #[] cursor) := by
    apply Cursor.foldUntil_abreast alike spells_push
    · rintro state _ element rfl
      exact ⟨rfl, rfl⟩
    · rfl
    · exact spells_empty
    · exact alongside
  rw [← Option.map_id' (x := cursor.takeUntilWith rounds test state)]
  apply rel_map collected
  rintro ⟨answer, last, after⟩ ⟨given, state, other⟩ ⟨answers, states, afters⟩
  exact ⟨answers, states, afters⟩

theorem takeUntil_alongside (rounds : Nat) (predicate : Char → Bool)
    (alongside : Alongside related text cursor) :
    Option.Rel (Together (Alike failing Spells) (Alongside related))
      (text.takeUntil rounds predicate) (cursor.takeUntil rounds predicate) := by
  apply rel_map (takeUntilWith_alongside alike rounds _ () alongside)
  rintro ⟨answer, last, after⟩ ⟨given, state, other⟩ ⟨answers, _, afters⟩
  exact ⟨answers, afters⟩

/-! ## Lines -/

theorem skipLineBreak_alongside (alongside : Alongside related text cursor) :
    Together (Alike failing Eq) (Alongside related) text.skipLineBreak cursor.passLineBreak := by
  rcases (Cursor.next_abreast alike alongside).cases with
    ⟨given, _, after, other, stepped, steppedOther, rfl, afters⟩ |
    ⟨failure, failed, after, other, stepped, steppedOther, failures, afters⟩
  · have here : text.next = (.ok given, ⟨after⟩) := by rw [next_eq, stepped]
    have same : other.ahead = after.ahead := afters.ahead_eq.symm
    rw [Cursor.passLineBreak_of_ok steppedOther, same]
    by_cases pair : given = some '\r' ∧ after.ahead = some '\n'
    · rcases pair with ⟨rfl, paired⟩
      rw [if_pos ⟨rfl, paired⟩, skipLineBreak_of_pair here paired]
      rcases Cursor.skip_abreast alike afters with ⟨answers, lasts⟩
      exact ⟨answers, lasts⟩
    · rw [if_neg pair, skipLineBreak_of_single here (not_and.mp pair)]
      exact ⟨.ok rfl, afters⟩
  · have here : text.next = (.error failure, ⟨after⟩) := by rw [next_eq, stepped]
    rw [Cursor.passLineBreak_of_error steppedOther, skipLineBreak_of_error here]
    exact ⟨.error failures, afters⟩

theorem nextLine_alongside (rounds : Nat) (alongside : Alongside related text cursor) :
    Option.Rel (Together (Alike failing Spells) (Alongside related)) (text.nextLine rounds)
      (cursor.takeLine rounds) := by
  apply rel_map (takeUntil_alongside alike rounds isLineTerminator alongside)
  rintro ⟨answer, stopped⟩ ⟨other, halted⟩ ⟨answers, stops⟩
  cases answers with
  | ok spells =>
      rcases skipLineBreak_alongside alike stops with ⟨ends, afters⟩
      exact ⟨ends.map fun _ _ _ => spells, afters⟩
  | error failed => exact ⟨.error failed, stops⟩

/-! ## Operations -/

/-- Every operation has the outcome of its counterpart. -/
theorem outcome_alongside (rounds : Nat) (operation : Operation)
    (alongside : Alongside related text cursor) :
    Option.Rel (Outcome.Alike failing Matches (Alongside related)) (text.outcome rounds operation)
      (cursor.counterpart rounds operation) := by
  cases operation with
  | next =>
      rcases Cursor.next_abreast alike alongside with ⟨answers, afters⟩
      refine .some ⟨?_, rfl, afters⟩
      apply answers.map
      rintro given _ rfl
      exact .character given
  | skip =>
      rcases Cursor.skip_abreast alike alongside with ⟨answers, afters⟩
      exact .some ⟨answers.map fun _ _ _ => .done, rfl, afters⟩
  | drop count =>
      rcases Cursor.drop_abreast alike count alongside with ⟨answers, afters⟩
      refine .some ⟨?_, rfl, afters⟩
      apply answers.map
      rintro passed _ rfl
      exact .count passed
  | take count =>
      rcases take_alongside alike count alongside with ⟨answers, afters⟩
      exact .some ⟨answers.map fun _ _ => .string, rfl, afters⟩
  | takeUntilWith test state =>
      apply rel_map (takeUntilWith_alongside alike rounds _ _ alongside)
      rintro ⟨answer, ⟨last, asked⟩, after⟩ ⟨given, ⟨_, _⟩, other⟩ ⟨answers, ⟨rfl⟩, afters⟩
      exact ⟨answers.map fun _ _ => .string, rfl, afters⟩
  | takeTo target => exact run_alongside (takeUntil_alongside alike rounds _ alongside)
  | takeAll => exact run_alongside (takeUntil_alongside alike rounds _ alongside)
  | nextLine => exact run_alongside (nextLine_alongside alike rounds alongside)
  | line =>
      have ended : text.atEnd = cursor.atEnd := alongside.atEnd_eq
      simp only [outcome, perform, Cursor.counterpart, line?, ended]
      split
      · exact .some ⟨.ok .noLine, rfl, alongside⟩
      · rw [Option.map_map, Option.map_map]
        apply rel_map (nextLine_alongside alike rounds alongside)
        rintro ⟨answer, after⟩ ⟨given, other⟩ ⟨answers, afters⟩
        exact ⟨answers.map fun _ _ => .line, rfl, afters⟩

/-- On text cursors over related sources an operation has related outcomes.  They are both
those of its counterpart on the cursor inside one of them. -/
theorem outcome_abreast (rounds : Nat) (operation : Operation) {other : TextCursor ρ}
    (abreast : text.cursor.Abreast related other.cursor) :
    Option.Rel (Outcome.Alike failing Eq fun text other => text.cursor.Abreast related other.cursor)
      (text.outcome rounds operation) (other.outcome rounds operation) := by
  have there := outcome_alongside alike rounds operation abreast
  have here := outcome_alongside Source.answerAlike_eq rounds operation
    (Cursor.abreast_rfl other.cursor)
  apply rel_common there here
  rintro ⟨first, _, after⟩ ⟨second, _, left⟩ ⟨common, _, inside⟩ ⟨one, ⟨⟩, afters⟩
    ⟨two, ⟨⟩, lefts⟩
  refine ⟨?_, rfl, ?_⟩
  · cases one with
    | ok given =>
        cases two with
        | ok same => exact .ok (given.unique same)
    | error failed =>
        cases two with
        | error same =>
            cases same
            exact .error failed
  · cases lefts.eq
    exact afters

/-- Every session has the outcomes of its counterpart. -/
theorem session_alongside (rounds : Nat) (operations : List Operation)
    (alongside : Alongside related text cursor) :
    Option.Rel (List.Forall₂ (Outcome.Alike failing Matches (Alongside related)))
      (session (outcome rounds) operations text)
      (session (Cursor.counterpart rounds) operations cursor) :=
  session_alike (fun _ _ operation sides => outcome_alongside alike rounds operation sides)
    operations alongside

end Related

/-! ## Equal sources -/

section Equal

variable {σ ε : Type} [Source σ ε Char]

/-- The same view of the same source, after as many requests. -/
structure SameView (text : TextCursor (Counted σ)) (cursor : Cursor (Counted σ) Char) : Prop where
  position_eq : text.position = cursor.position
  atEnd_eq : text.atEnd = cursor.atEnd
  ahead_eq : text.ahead = cursor.ahead
  pulls_eq : text.source.pulls = cursor.source.pulls
  source_eq : text.source.source = cursor.source.source

theorem Alongside.sameView {text : TextCursor (Counted σ)} {cursor : Cursor (Counted σ) Char}
    (alongside : Alongside Eq text cursor) : SameView text cursor where
  position_eq := alongside.position_eq
  atEnd_eq := alongside.atEnd_eq
  ahead_eq := alongside.ahead_eq
  pulls_eq := congrArg Counted.pulls alongside.source
  source_eq := congrArg Counted.source alongside.source

/-- A text cursor and a plain cursor over equal sources both start or both fail.  A session on
the one has the outcomes of its counterpart on the other, whatever fails meanwhile: the same
failures, the same characters, the tests asked about the same characters, and the same view
after each operation. -/
theorem sessions_alike_counterpart (source : Counted σ) :
    Alike Eq (fun text cursor => SameView text cursor ∧
        ∀ (rounds : Nat) (operations : List Operation),
          Option.Rel (List.Forall₂ (Outcome.Alike Eq Matches SameView))
            (session (outcome rounds) operations text)
            (session (Cursor.counterpart rounds) operations cursor))
      (ofSource source) (Cursor.ofSource source) := by
  rw [ofSource]
  cases Cursor.ofSource (α := Char) source with
  | error failed => exact .error rfl
  | ok cursor =>
      have alongside : Alongside Eq ⟨cursor⟩ cursor := Cursor.abreast_rfl cursor
      refine .ok ⟨alongside.sameView, ?_⟩
      intro rounds operations
      apply rel_imp (session_alongside Source.answerAlike_eq rounds operations alongside)
      rintro outcomes others same
      apply same.imp
      rintro outcome other ⟨answers, asked, afters⟩
      exact ⟨answers, asked, afters.sameView⟩

end Equal

end TextCursor

end ForwardCursor
