import ForwardCursor.Source.Basic

namespace ForwardCursor

/-!
# Sequences as sources

In-memory sequences never fail, so their failures are of the empty type.  A list
comes to an end and stays there.  The two endless sequences are kept as the finite
value that produces them.
-/

variable {α : Type}

/-- A list gives its elements in order, and is left with the ones not yet given. -/
instance : Source (List α) Empty α where
  pull
    | [] => (.ok none, [])
    | head :: tail => (.ok (some head), tail)

theorem pull_nil : Source.pull ([] : List α) = (.ok none, []) := rfl

theorem pull_cons (head : α) (tail : List α) :
    Source.pull (head :: tail) = (.ok (some head), tail) := rfl

/-- A list repeated forever.  Its elements still to come are those of `rest`, and
after them `period` over and over.  An empty period gives no elements. -/
structure Cycle (α : Type) where
  period : List α
  rest : List α

namespace Cycle

/-- The repetition of a list, from its start. -/
def ofList (period : List α) : Cycle α := ⟨period, period⟩

instance : Source (Cycle α) Empty α where
  pull cycle :=
    match cycle.rest, cycle.period with
    | head :: tail, period => (.ok (some head), ⟨period, tail⟩)
    | [], head :: tail => (.ok (some head), ⟨head :: tail, tail⟩)
    | [], [] => (.ok none, ⟨[], []⟩)

end Cycle

/-- The integers from `next` upwards. -/
structure Ascending where
  next : Int

namespace Ascending

instance : Source Ascending Empty Int where
  pull ascending := (.ok (some ascending.next), ⟨ascending.next + 1⟩)

end Ascending

end ForwardCursor
