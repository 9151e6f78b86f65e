import ForwardCursor.Source.Basic

namespace ForwardCursor

/-!
# Scripts

A script states the answers of a source one by one.  It is the most general source
that differs from another one only finitely often: failures fall where the script
puts them, and elements may follow a report that there are none.  A script over the
empty failure type is a sequence that may go on after its end.
-/

variable {ε α : Type}

/-- The answers still to be given, after which there are no elements forever. -/
structure Script (ε α : Type) where
  answers : List (Except ε (Option α))

namespace Script

instance : Source (Script ε α) ε α where
  pull
    | ⟨[]⟩ => (.ok none, ⟨[]⟩)
    | ⟨answer :: answers⟩ => (answer, ⟨answers⟩)

/-- A script of never failing requests, each giving an element or none. -/
def ofNexts (nexts : List (Option α)) : Script Empty α := ⟨nexts.map .ok⟩

end Script

end ForwardCursor
