import ForwardCursor.Proofs.Cursor.Operation

namespace ForwardCursor
namespace Cursor

/-!
# Requests made of a source

A cursor makes one request for each element that it takes, and one more for each call that
fails.  The element of a failed call stays ahead, and asking for its successor is all that
the next call does anew.

The requests are counted by the source itself.  The balance holds for a single step and is
additive, so it holds for every operation.  It makes no difference which way the operation
ends.
-/

variable {σ ε α : Type} [Source σ ε α]

/-- From one cursor to another as many requests were made as elements were taken, and one
for each failure. -/
structure Accounts (before : Cursor (Counted σ) α) (failed : Nat) (after : Cursor (Counted σ) α) :
    Prop where
  position_le : before.position ≤ after.position
  pulls_eq : after.source.pulls =
    before.source.pulls + (after.position - before.position) + failed

namespace Accounts

theorem refl (cursor : Cursor (Counted σ) α) : Accounts cursor 0 cursor where
  position_le := Nat.le_refl _
  pulls_eq := by rw [Nat.sub_self, Nat.add_zero]

theorem trans {first second third : Cursor (Counted σ) α} {failed later : Nat}
    (start : Accounts first failed second) (rest : Accounts second later third) :
    Accounts first (failed + later) third where
  position_le := Nat.le_trans start.position_le rest.position_le
  pulls_eq := by
    have early := start.position_le
    have late := rest.position_le
    rw [rest.pulls_eq, start.pulls_eq]
    omega

end Accounts

/-! ## Single steps -/

theorem accounts_of_taken {cursor : Cursor (Counted σ) α} {ahead : Option α} {rest : Counted σ}
    (answered : Source.pull cursor.source = (.ok ahead, rest)) :
    Accounts cursor 0 ⟨rest, ahead, cursor.position + 1⟩ where
  position_le := Nat.le_succ _
  pulls_eq := by
    have counted := Counted.pull_pulls cursor.source
    rw [answered] at counted
    rw [counted, Nat.add_sub_cancel_left]

theorem accounts_of_failed {cursor : Cursor (Counted σ) α} {failure : ε} {rest : Counted σ}
    (failed : Source.pull cursor.source = (.error failure, rest)) :
    Accounts cursor 1 { cursor with source := rest } where
  position_le := Nat.le_refl _
  pulls_eq := by
    have counted := Counted.pull_pulls cursor.source
    rw [failed] at counted
    rw [counted, Nat.sub_self]

theorem next_accounts (cursor : Cursor (Counted σ) α) :
    Accounts cursor (failures cursor.next.1) cursor.next.2 := by
  rcases cursor.next_cases with ⟨_, stepped⟩ | ⟨_, _, _, _, answered, stepped⟩ |
    ⟨_, _, _, _, failed, stepped⟩
  · rw [stepped]
    exact Accounts.refl cursor
  · rw [stepped]
    exact accounts_of_taken answered
  · rw [stepped]
    exact accounts_of_failed failed

theorem stepwise_accounts : Stepwise (Accounts (σ := σ) (α := α)) where
  refl := Accounts.refl
  next := next_accounts
  trans := Accounts.trans

/-! ## Since the start -/

/-- To start a cursor takes one request. -/
theorem pulls_ofSource {counted : Counted σ} {start : Cursor (Counted σ) α}
    (started : ofSource counted = .ok start) :
    start.position = 0 ∧ start.source.pulls = counted.pulls + 1 := by
  rcases eq_of_started started with ⟨answered, zero⟩
  have one := Counted.pull_pulls counted
  rw [answered] at one
  exact ⟨zero, one⟩

/-- The balance of a cursor since its start. -/
theorem pulls_of_accounts {counted : Counted σ} {start cursor : Cursor (Counted σ) α} {failed : Nat}
    (started : ofSource counted = .ok start) (accounts : Accounts start failed cursor) :
    cursor.source.pulls = counted.pulls + (cursor.position + 1 + failed) := by
  rcases pulls_ofSource started with ⟨zero, first⟩
  rw [accounts.pulls_eq, first, zero, Nat.sub_zero]
  omega

end Cursor
end ForwardCursor
