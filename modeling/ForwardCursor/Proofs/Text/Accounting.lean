import ForwardCursor.Proofs.Cursor.Accounting
import ForwardCursor.Proofs.Text.Operation
import ForwardCursor.Source.Script

namespace ForwardCursor

/-!
# Requests made of a source of characters

Text cursors keep the balance of the cursor inside.  Taking a line is the one operation
with several places for a request: the characters of the line, its terminator, and the
second half of a pair.  A failure at one place ends the call, so there is at most one.

After the end no request is made at all.  A source that would have elements again after
its end is never asked for them.
-/

/-- The requests made of a source are those of its cursor's start, of the elements taken, and
of the failed calls.  A call that succeeds makes one for each element that it takes, and at
the end there are no more.  The same holds for text cursors, which may be made of a cursor
that has been called before. -/
theorem pulls_eq_position_add_failures {σ ε α ρ φ : Type} [Source σ ε α] [Source ρ φ Char] :
    (∀ {counted : Counted σ} {start cursor : Cursor (Counted σ) α} {failed : Nat},
      Cursor.ofSource counted = .ok start → Run Cursor.Call start failed cursor →
      cursor.source.pulls = counted.pulls + (cursor.position + 1 + failed) ∧
      (∀ {answer after}, cursor.Call answer after → cursor.Accounts (failures answer) after) ∧
      (cursor.atEnd = true → cursor.Rests)) ∧
    (∀ {counted : Counted ρ} {start cursor : Cursor (Counted ρ) Char}
      {text : TextCursor (Counted ρ)} {earlier failed : Nat},
      Cursor.ofSource counted = .ok start → Run Cursor.Call start earlier cursor →
      Run TextCursor.Call ⟨cursor⟩ failed text →
      text.source.pulls = counted.pulls + (text.position + 1 + (earlier + failed)) ∧
      (∀ {answer after}, text.Call answer after →
        text.cursor.Accounts (failures answer) after.cursor) ∧
      (text.atEnd = true → text.Rests)) := by
  constructor
  · intro counted start cursor failed started run
    refine ⟨?_, fun called => Cursor.stepwise_accounts.of_call called, ?_⟩
    · exact Cursor.pulls_of_accounts started (Cursor.stepwise_accounts.of_run run)
    · intro ended
      exact Cursor.rests_of_end ((Cursor.atEnd_iff cursor).mp ended)
  · intro counted start cursor text earlier failed started before run
    refine ⟨?_, fun called => TextCursor.related_of_call Cursor.stepwise_accounts called, ?_⟩
    · exact Cursor.pulls_of_accounts started
        ((Cursor.stepwise_accounts.of_run before).trans
          (TextCursor.related_of_run Cursor.stepwise_accounts run))
    · intro ended
      exact TextCursor.rests_of_end ((Cursor.atEnd_iff text.cursor).mp ended)

/-- Characters with two failures among them, and one more character after the end. -/
def resuming : Script String Char :=
  ⟨[.ok (some 'a'), .error "first", .ok (some '\r'), .ok (some '\n'), .error "second", .ok none,
    .ok (some 'z')]⟩

/-- What is left of that source after some requests. -/
def resumed (requests : Nat) : Counted (Script String Char) :=
  ⟨⟨resuming.answers.drop requests⟩, requests⟩

theorem pulls_eq_position_add_failures_resuming :
    Cursor.ofSource (resumed 0) = .ok ⟨resumed 1, some 'a', 0⟩ ∧
      Run Cursor.Call ⟨resumed 1, some 'a', 0⟩ 1 ⟨resumed 2, some 'a', 0⟩ ∧
      (resumed 2).pulls = 0 + 1 + 1 ∧
      Run TextCursor.Call ⟨⟨resumed 2, some 'a', 0⟩⟩ 1 ⟨⟨resumed 6, none, 3⟩⟩ ∧
      (resumed 6).pulls = 3 + 1 + (1 + 1) ∧
      (⟨⟨resumed 6, none, 3⟩⟩ : TextCursor (Counted (Script String Char))).Rests := by
  have started : Cursor.ofSource (resumed 0) = .ok ⟨resumed 1, some 'a', 0⟩ := rfl
  have failing : Cursor.Call ⟨resumed 1, some 'a', 0⟩ (.error "first") ⟨resumed 2, some 'a', 0⟩ :=
    ⟨0, .take 5, rfl⟩
  have paired : TextCursor.Call ⟨⟨resumed 2, some 'a', 0⟩⟩ (.error "second")
      ⟨⟨resumed 5, some '\n', 2⟩⟩ := ⟨3, .nextLine, rfl⟩
  have last : TextCursor.Call ⟨⟨resumed 5, some '\n', 2⟩⟩ (.ok (.line (some "")))
      ⟨⟨resumed 6, none, 3⟩⟩ := ⟨3, .line, rfl⟩
  have before := Run.refl.step failing
  have run := (Run.refl.step paired).step last
  rcases @pulls_eq_position_add_failures (Script String Char) String Char (Script String Char)
    String _ _ with ⟨cursors, texts⟩
  rcases cursors started before with ⟨counted, _, _⟩
  rcases texts started before run with ⟨countedLater, _, rests⟩
  exact ⟨started, before, counted.trans (Nat.zero_add _), run,
    countedLater.trans (Nat.zero_add _), rests rfl⟩

end ForwardCursor
