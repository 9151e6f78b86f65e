import ForwardCursor.Utf8.Front

namespace ForwardCursor
namespace Utf8

/-!
# How the front depends on later bytes

Bytes arrive one after the other, and what they start with is looked at again each
time.  Once it is decided it stays: later bytes change the front only while all bytes
so far are a malformed part.  Then the part can grow or become a character, but it
does not shrink.

Bytes of which all are a malformed part are therefore all that ever has to be kept
while waiting for more.  A decoder can keep them in any number of pieces, because only
the whole of them is looked at.
-/

/-- All of the bytes are a malformed part, so that further bytes can matter. -/
def Unfinished (bytes : List UInt8) : Prop := front bytes = .malformed bytes.length

instance (bytes : List UInt8) : Decidable (Unfinished bytes) :=
  inferInstanceAs (Decidable (front bytes = .malformed bytes.length))

theorem unfinished_nil : Unfinished [] := rfl

theorem continuation_append (count low high value size : Nat) (bytes more : List UInt8) :
    continuation count low high value size (bytes ++ more) =
        continuation count low high value size bytes ∨
      continuation count low high value size bytes = .malformed (size + bytes.length) ∧
        size + bytes.length ≤ (continuation count low high value size (bytes ++ more)).size := by
  induction bytes generalizing count low high value size with
  | nil =>
      cases count with
      | zero => exact Or.inl rfl
      | succ count => exact Or.inr ⟨rfl, le_size_continuation _ _ _ _ _ _⟩
  | cons byte bytes inductionHypothesis =>
      cases count with
      | zero => exact Or.inl rfl
      | succ count =>
          rw [List.cons_append, continuation, continuation, List.length_cons,
            Nat.add_comm bytes.length 1, ← Nat.add_assoc]
          by_cases fits : low ≤ byte.toNat ∧ byte.toNat ≤ high
          · rw [if_pos fits, if_pos fits]
            exact inductionHypothesis _ _ _ _ _
          · rw [if_neg fits, if_neg fits]
            exact Or.inl rfl

theorem front_append (bytes more : List UInt8) :
    front (bytes ++ more) = front bytes ∨
      Unfinished bytes ∧ bytes.length ≤ (front (bytes ++ more)).size := by
  cases bytes with
  | nil => exact Or.inr ⟨unfinished_nil, Nat.zero_le _⟩
  | cons lead bytes =>
      cases leading : owed? lead with
      | none => exact Or.inl (by simp only [List.cons_append, front, leading])
      | some owed =>
          simp only [Unfinished, List.cons_append, front, leading, List.length_cons,
            Nat.add_comm bytes.length 1]
          exact continuation_append _ _ _ _ _ _ _

theorem Unfinished.length_le {bytes : List UInt8} (unfinished : Unfinished bytes)
    (more : List UInt8) : bytes.length ≤ (front (bytes ++ more)).size := by
  rcases front_append bytes more with same | ⟨_, longer⟩
  · rw [same, unfinished]
    exact Nat.le_refl _
  · exact longer

theorem front_append_of_scalar {bytes : List UInt8} {character : Char} {size : Nat}
    (found : front bytes = .scalar character size) (more : List UInt8) :
    front (bytes ++ more) = .scalar character size := by
  rcases front_append bytes more with same | ⟨unfinished, _⟩
  · exact same.trans found
  · cases found.symm.trans unfinished

/-- A malformed part with a byte after it is final. -/
theorem front_append_of_broken {bytes : List UInt8} {size : Nat}
    (found : front bytes = .malformed size) (short : size < bytes.length) (more : List UInt8) :
    front (bytes ++ more) = .malformed size := by
  rcases front_append bytes more with same | ⟨unfinished, _⟩
  · exact same.trans found
  · cases found.symm.trans unfinished
    exact absurd short (Nat.lt_irrefl _)

/-- Looking at a character again after taking just its bytes finds it again. -/
theorem continuation_take_of_scalar {count low high value size whole : Nat} {bytes : List UInt8}
    {character : Char}
    (found : continuation count low high value size bytes = .scalar character whole) :
    continuation count low high value size (bytes.take (whole - size)) =
      .scalar character whole := by
  induction bytes generalizing count low high value size with
  | nil => rw [List.take_nil]; exact found
  | cons byte bytes inductionHypothesis =>
      cases count with
      | zero => simpa only [continuation] using found
      | succ count =>
          rw [continuation] at found
          by_cases fits : low ≤ byte.toNat ∧ byte.toNat ≤ high
          · rw [if_pos fits] at found
            have inside := le_size_continuation count 0x80 0xBF
              (value * 0x40 + (byte.toNat - 0x80)) (size + 1) bytes
            rw [found] at inside
            have split : whole - size = (whole - (size + 1)) + 1 := by
              simp only [Front.size] at inside
              omega
            rw [split, List.take_succ_cons, continuation, if_pos fits]
            exact inductionHypothesis found
          · rw [if_neg fits] at found
            cases found

theorem front_take_of_scalar {bytes : List UInt8} {character : Char} {size : Nat}
    (found : front bytes = .scalar character size) :
    front (bytes.take size) = .scalar character size := by
  cases bytes with
  | nil => cases found
  | cons lead bytes =>
      cases leading : owed? lead with
      | none =>
          simp only [front, leading] at found
          cases found
      | some owed =>
          simp only [front, leading] at found
          have inside := le_size_continuation owed.count owed.low owed.high owed.value 1 bytes
          rw [found] at inside
          have split : size = (size - 1) + 1 := by
            simp only [Front.size] at inside
            omega
          rw [split, List.take_succ_cons]
          simp only [front, leading, ← split]
          exact continuation_take_of_scalar found

/-! ## One more byte -/

/-- A byte after unfinished ones completes a character, or it breaks the part that they
are, or it leaves them unfinished. -/
theorem front_snoc_cases {bytes : List UInt8} (unfinished : Unfinished bytes) (byte : UInt8) :
    (∃ character, front (bytes ++ [byte]) = .scalar character (bytes.length + 1)) ∨
    front (bytes ++ [byte]) = .malformed bytes.length ∨
    Unfinished (bytes ++ [byte]) := by
  have upper := size_front_le (bytes ++ [byte])
  have lower := unfinished.length_le [byte]
  rw [List.length_append, List.length_singleton] at upper
  cases found : front (bytes ++ [byte]) with
  | scalar character size =>
      rw [found, Front.size] at upper lower
      have different : size ≠ bytes.length := by
        intro same
        have again := front_take_of_scalar found
        rw [same, List.take_left' rfl] at again
        cases unfinished.symm.trans again
      have whole : size = bytes.length + 1 := by omega
      exact Or.inl ⟨character, by rw [whole]⟩
  | malformed size =>
      rw [found, Front.size] at upper lower
      by_cases broken : size = bytes.length
      · exact Or.inr (Or.inl (by rw [broken]))
      · have whole : size = bytes.length + 1 := by omega
        refine Or.inr (Or.inr ?_)
        rw [Unfinished, found, whole, List.length_append, List.length_singleton]

/-- The same with more bytes after that byte, which matter in the last case only. -/
theorem front_append_cons_cases {bytes : List UInt8} (unfinished : Unfinished bytes)
    (byte : UInt8) (more : List UInt8) :
    (∃ character, front (bytes ++ [byte]) = .scalar character (bytes.length + 1) ∧
      front (bytes ++ byte :: more) = .scalar character (bytes.length + 1)) ∨
    (front (bytes ++ [byte]) = .malformed bytes.length ∧
      front (bytes ++ byte :: more) = .malformed bytes.length) ∨
    Unfinished (bytes ++ [byte]) := by
  rw [List.append_cons bytes byte more]
  rcases front_snoc_cases unfinished byte with ⟨character, complete⟩ | broken | later
  · exact Or.inl ⟨character, complete, front_append_of_scalar complete more⟩
  · have short : bytes.length < (bytes ++ [byte]).length := by
      rw [List.length_append, List.length_singleton]
      exact Nat.lt_succ_self _
    exact Or.inr (Or.inl ⟨broken, front_append_of_broken broken short more⟩)
  · exact Or.inr (Or.inr later)

end Utf8
end ForwardCursor
