import ForwardCursor.Proofs.Utf8.Parts

namespace ForwardCursor
namespace Utf8

/-!
# Where a part has to end

The bytes of a character behind its first one lie in a range of their own.  A byte outside
this range therefore ends the part in front of it, whether that part is a character or not,
and bytes can be divided in front of such a byte and behind it separately.

Bytes of which all are one malformed part have not met their end.  They are the beginning of
a character, or there is just one of them and it begins none.  The second kind is not waiting
for anything, as no byte can follow it.  It is told apart only when one does.
-/

open String (utf8EncodeChar)

/-- A byte in the range of those that follow the first byte of a character. -/
def Continuing (byte : UInt8) : Prop := 0x80 ≤ byte.toNat ∧ byte.toNat ≤ 0xBF

instance (byte : UInt8) : Decidable (Continuing byte) :=
  inferInstanceAs (Decidable (0x80 ≤ byte.toNat ∧ byte.toNat ≤ 0xBF))

theorem Continues.continuing {low high : Nat} {bytes : List UInt8} (lower : 0x80 ≤ low)
    (upper : high ≤ 0xBF) (fits : Continues low high bytes) : ∀ byte ∈ bytes, Continuing byte := by
  induction bytes generalizing low high with
  | nil => simp
  | cons first bytes inductionHypothesis =>
      rcases fits with ⟨⟨above, below⟩, later⟩
      simp only [List.mem_cons, forall_eq_or_imp]
      constructor
      · exact ⟨Nat.le_trans lower above, Nat.le_trans below upper⟩
      · exact inductionHypothesis (Nat.le_refl _) (Nat.le_refl _) later

/-! ## Bytes in front of a boundary -/

section Boundary

variable {bytes : List UInt8} {byte : UInt8}

theorem continuing_of_snoc_prefix (nonempty : bytes ≠ []) {character : Char}
    (start : bytes ++ [byte] <+: utf8EncodeChar character) : Continuing byte := by
  rcases List.exists_cons_of_ne_nil nonempty with ⟨lead, tail, rfl⟩
  rcases spells_of_encode character with ⟨first, later, written, ⟨owed, leading, _, fits, _⟩⟩
  rcases owed?_bounds leading with ⟨lower, _, upper⟩
  rw [written, List.cons_append, List.cons_prefix_cons] at start
  apply fits.continuing lower upper
  apply start.2.subset
  simp

/-- A character cannot end with a byte outside the range. -/
theorem front_snoc_ne_scalar (nonempty : bytes ≠ []) (boundary : ¬ Continuing byte)
    (character : Char) : front (bytes ++ [byte]) ≠ .scalar character (bytes.length + 1) := by
  intro found
  rcases front_eq_scalar_iff.mp found with ⟨start, size⟩
  have whole : (utf8EncodeChar character).length = (bytes ++ [byte]).length := by
    rw [← size, List.length_append, List.length_singleton]
  have same : utf8EncodeChar character = bytes ++ [byte] := start.eq_of_length whole
  have start : bytes ++ [byte] <+: utf8EncodeChar character := same ▸ List.prefix_rfl
  apply boundary
  exact continuing_of_snoc_prefix nonempty start

/-- Nor can it go on behind such a byte. -/
theorem not_unfinished_snoc (nonempty : bytes ≠ []) (boundary : ¬ Continuing byte) :
    ¬ Unfinished (bytes ++ [byte]) := by
  intro unfinished
  rcases List.exists_cons_of_ne_nil nonempty with ⟨lead, tail, rfl⟩
  cases leading : owed? lead with
  | none =>
      simp only [Unfinished, List.cons_append, front, leading, Front.malformed.injEq,
        List.length_cons, List.length_append] at unfinished
      omega
  | some owed =>
      rcases viable_of_unfinished leading unfinished with ⟨character, more, _, written⟩
      apply boundary
      apply continuing_of_snoc_prefix nonempty
      rw [List.cons_append, written]
      exact List.prefix_append _ _

theorem front_append_of_boundary (nonempty : bytes ≠ []) {more : List UInt8}
    (boundary : ∀ byte ∈ more.head?, ¬ Continuing byte) : front (bytes ++ more) = front bytes := by
  cases more with
  | nil => rw [List.append_nil]
  | cons byte more =>
      have ends : ¬ Continuing byte := boundary byte rfl
      rcases front_append bytes (byte :: more) with same | ⟨unfinished, _⟩
      · exact same
      · rcases front_append_cons_cases unfinished byte more with ⟨_, complete, _⟩ | ⟨_, found⟩ | later
        · exact absurd complete (front_snoc_ne_scalar nonempty ends _)
        · rw [found, unfinished]
        · exact absurd later (not_unfinished_snoc nonempty ends)

end Boundary

theorem firstPart_append {bytes more : List UInt8} (same : front (bytes ++ more) = front bytes) :
    firstPart (bytes ++ more) = firstPart bytes := by
  have bound := size_front_le bytes
  unfold firstPart
  rw [same]
  cases found : front bytes with
  | scalar character size => rfl
  | malformed size =>
      rw [found, Front.size] at bound
      simp only [List.take_append_of_le_length bound]

/-- In front of a boundary and behind it, the parts are those of the bytes on that side. -/
theorem parts_append {bytes more : List UInt8}
    (boundary : ∀ byte ∈ more.head?, ¬ Continuing byte) :
    parts (bytes ++ more) = parts bytes ++ parts more := by
  induction bytes using parts.induct with
  | case1 => rw [parts_nil, List.nil_append, List.nil_append]
  | case2 lead rest inductionHypothesis =>
      have nonempty := List.cons_ne_nil lead rest
      have same := front_append_of_boundary nonempty boundary
      have bound := size_front_le (lead :: rest)
      rw [parts_of_ne_nil (List.append_ne_nil_of_left_ne_nil nonempty more), parts_of_ne_nil nonempty,
        firstPart_append same, same, List.drop_append_of_le_length bound, inductionHypothesis,
        List.cons_append]

/-! ## Bytes that have not met a boundary -/

/-- A byte that no encoded character starts with. -/
def Stray (byte : UInt8) : Prop := ∀ character, ¬ [byte] <+: utf8EncodeChar character

/-- The beginning of a character, or a single byte that begins none. -/
def Undecided (bytes : List UInt8) : Prop := Viable bytes ∨ ∃ byte, bytes = [byte] ∧ Stray byte

theorem viable_nil : Viable [] := by
  refine ⟨'A', utf8EncodeChar 'A', ?_, rfl⟩
  decide

theorem stray_of_owed?_none {byte : UInt8} (leading : owed? byte = none) : Stray byte := by
  intro character start
  rcases spells_of_encode character with ⟨first, tail, written, ⟨owed, table, _⟩⟩
  rw [written, List.cons_prefix_cons] at start
  cases start.1
  cases leading.symm.trans table

theorem unfinished_of_stray {byte : UInt8} (stray : Stray byte) : Unfinished [byte] := by
  cases found : front [byte] with
  | scalar character size =>
      have start := (front_eq_scalar_iff.mp found).1
      rcases spells_of_encode character with ⟨first, tail, written, _⟩
      have begins : [byte] <+: utf8EncodeChar character := by
        rw [written, List.cons_prefix_cons] at start
        rw [written, ← start.1]
        exact List.prefix_append [first] tail
      exact absurd begins (stray character)
  | malformed size =>
      have positive := size_front_pos byte []
      have bound := size_front_le [byte]
      rw [found, Front.size] at positive bound
      rw [Unfinished, found, Nat.le_antisymm bound positive]

theorem unfinished_iff_undecided {bytes : List UInt8} : Unfinished bytes ↔ Undecided bytes := by
  constructor
  · intro unfinished
    cases bytes with
    | nil => exact Or.inl viable_nil
    | cons lead rest =>
        cases leading : owed? lead with
        | none =>
            simp only [Unfinished, front, leading, Front.malformed.injEq, List.length_cons] at unfinished
            have single : rest = [] := List.length_eq_zero_iff.mp (by omega)
            rw [single]
            exact Or.inr ⟨lead, rfl, stray_of_owed?_none leading⟩
        | some owed => exact Or.inl (viable_of_unfinished leading unfinished)
  · rintro (viable | ⟨byte, rfl, stray⟩)
    · exact unfinished_of_viable viable
    · exact unfinished_of_stray stray

end Utf8
end ForwardCursor
