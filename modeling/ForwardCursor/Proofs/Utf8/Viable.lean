import ForwardCursor.Proofs.Utf8.Encoding
import ForwardCursor.Proofs.Utf8.Stability

namespace ForwardCursor
namespace Utf8

/-!
# Malformed parts

Bytes are viable if some encoded character starts with them and goes on after them.  The
malformed front of bytes is described here without the table of lead bytes: no encoded
character starts the bytes, and the part is their longest viable prefix, or a single
byte if only the empty prefix is viable.

The unfinished bytes are the viable ones and the single bytes that start no character.
That viable bytes are unfinished is a matter of stability.  For the other direction the
bytes that are still owed are supplied, each as small as it may be.
-/

open String (utf8EncodeChar)

/-- A proper prefix of some encoded character. -/
def Viable (bytes : List UInt8) : Prop :=
  ∃ character rest, rest ≠ [] ∧ utf8EncodeChar character = bytes ++ rest

/-- A part at the start of some bytes that has to be given up: no encoded character
starts there, and no longer prefix is viable. -/
structure MalformedPart (bytes part : List UInt8) : Prop where
  not_scalar : ∀ character, ¬ utf8EncodeChar character <+: bytes
  prefix_bytes : part <+: bytes
  longest : part ≠ [] ∧ Viable part ∧
      (∀ other, other <+: bytes → Viable other → other.length ≤ part.length) ∨
    part.length = 1 ∧ ∀ other, other <+: bytes → Viable other → other = []

theorem unfinished_of_viable {bytes : List UInt8} (viable : Viable bytes) : Unfinished bytes := by
  rcases viable with ⟨character, rest, more, written⟩
  have whole := front_encode_append character []
  rw [List.append_nil, written] at whole
  rcases front_append bytes rest with same | ⟨unfinished, _⟩
  · have bound := size_front_le bytes
    have positive := List.length_pos_iff.mpr more
    rw [← same, whole, Front.size, List.length_append] at bound
    omega
  · exact unfinished

/-! ## Completing what is owed -/

theorem continues_replicate (count : Nat) : Continues 0x80 0xBF (List.replicate count 0x80) := by
  induction count with
  | zero => trivial
  | succ count inductionHypothesis =>
      rw [List.replicate_succ]
      exact ⟨by decide, inductionHypothesis⟩

theorem exists_completion {count low high value size : Nat} {bytes : List UInt8}
    (lower : 0x80 ≤ low) (ordered : low ≤ high) (upper : high ≤ 0xBF)
    (found : continuation count low high value size bytes = .malformed (size + bytes.length)) :
    ∃ more character, more ≠ [] ∧
      continuation count low high value size (bytes ++ more) =
        .scalar character (size + (bytes ++ more).length) := by
  induction bytes generalizing count low high value size with
  | nil =>
      cases count with
      | zero => cases found
      | succ count =>
          have first := toNat_ofNat_byte (show low < 0x100 by omega)
          have fits : Continues low high (UInt8.ofNat low :: List.replicate count 0x80) := by
            refine ⟨?_, continues_replicate count⟩
            rw [first]
            exact ⟨Nat.le_refl _, ordered⟩
          have counted : (UInt8.ofNat low :: List.replicate count 0x80).length = count + 1 := by
            rw [List.length_cons, List.length_replicate]
          have complete := continuation_of_continues counted fits value size []
          rw [List.append_nil] at complete
          refine ⟨UInt8.ofNat low :: List.replicate count 0x80,
            Char.ofNat (accumulate value (UInt8.ofNat low :: List.replicate count 0x80)),
            List.cons_ne_nil _ _, ?_⟩
          rw [List.nil_append, counted]
          exact complete
  | cons byte bytes inductionHypothesis =>
      cases count with
      | zero => cases found
      | succ count =>
          rw [continuation] at found
          by_cases inside : low ≤ byte.toNat ∧ byte.toNat ≤ high
          · have regroup : size + (byte :: bytes).length = size + 1 + bytes.length := by
              rw [List.length_cons]
              omega
            rw [if_pos inside, regroup] at found
            rcases inductionHypothesis (Nat.le_refl _) (by omega) (Nat.le_refl _) found with
              ⟨more, character, nonempty, complete⟩
            refine ⟨more, character, nonempty, ?_⟩
            rw [List.cons_append, continuation, if_pos inside, complete, List.length_cons]
            congr 1
            omega
          · rw [if_neg inside] at found
            have impossible := congrArg Front.size found
            simp only [Front.size, List.length_cons] at impossible
            omega

theorem owed?_bounds {lead : UInt8} {owed : Owed} (leading : owed? lead = some owed) :
    0x80 ≤ owed.low ∧ owed.low ≤ owed.high ∧ owed.high ≤ 0xBF := by
  simp only [owed?] at leading
  repeat' split at leading
  all_goals cases leading
  all_goals simp

/-- Unfinished bytes of which the first leads a character are the start of one. -/
theorem viable_of_unfinished {lead : UInt8} {bytes : List UInt8} {owed : Owed}
    (leading : owed? lead = some owed) (unfinished : Unfinished (lead :: bytes)) :
    Viable (lead :: bytes) := by
  rcases owed?_bounds leading with ⟨lower, ordered, upper⟩
  simp only [Unfinished, front, leading, List.length_cons, Nat.add_comm bytes.length] at unfinished
  rcases exists_completion lower ordered upper unfinished with
    ⟨more, character, nonempty, complete⟩
  have found : front (lead :: bytes ++ more) =
      .scalar character (lead :: bytes ++ more).length := by
    simp only [List.cons_append, front, leading, List.length_cons, complete]
    rw [Nat.add_comm]
  rcases front_eq_scalar_iff.mp found with ⟨start, whole⟩
  exact ⟨character, more, nonempty, start.eq_of_length whole.symm⟩

/-! ## The malformed front -/

theorem unfinished_take {bytes : List UInt8} {size : Nat}
    (found : front bytes = .malformed size) : Unfinished (bytes.take size) := by
  have bound := size_front_le bytes
  rw [found, Front.size] at bound
  rcases front_append (bytes.take size) (bytes.drop size) with same | ⟨unfinished, _⟩
  · rw [List.take_append_drop, found] at same
    rw [Unfinished, ← same, List.length_take, Nat.min_eq_left bound]
  · exact unfinished

/-- No viable prefix is longer than the malformed front. -/
theorem length_le_of_viable {bytes other : List UInt8} {size : Nat}
    (found : front bytes = .malformed size) (start : other <+: bytes) (viable : Viable other) :
    other.length ≤ size := by
  rcases start with ⟨more, rfl⟩
  have longer := (unfinished_of_viable viable).length_le more
  rw [found] at longer
  exact longer

theorem not_viable_of_owed?_none {lead : UInt8} {bytes other : List UInt8}
    (leading : owed? lead = none) (start : other <+: lead :: bytes) (viable : Viable other) :
    other = [] := by
  cases other with
  | nil => rfl
  | cons first other =>
      rcases viable with ⟨character, rest, _, written⟩
      rcases spells_of_encode character with ⟨head, tail, same, ⟨owed, table, _⟩⟩
      cases (List.cons_prefix_cons.mp start).1
      cases same.symm.trans written
      cases leading.symm.trans table

theorem malformedPart_of_front {lead : UInt8} {bytes : List UInt8} {size : Nat}
    (found : front (lead :: bytes) = .malformed size) :
    MalformedPart (lead :: bytes) ((lead :: bytes).take size) := by
  have positive := size_front_pos lead bytes
  have bound := size_front_le (lead :: bytes)
  rw [found, Front.size] at positive bound
  have length : ((lead :: bytes).take size).length = size := by
    rw [List.length_take, Nat.min_eq_left bound]
  refine ⟨?_, List.take_prefix _ _, ?_⟩
  · intro character start
    cases found.symm.trans (front_eq_scalar_iff.mpr ⟨start, rfl⟩)
  · cases leading : owed? lead with
    | none =>
        refine Or.inr ⟨?_, fun other => not_viable_of_owed?_none leading⟩
        simp only [front, leading] at found
        cases found
        exact length
    | some owed =>
        have unfinished := unfinished_take found
        rcases Nat.exists_eq_succ_of_ne_zero (Nat.ne_of_gt positive) with ⟨further, rfl⟩
        refine Or.inl ⟨List.cons_ne_nil _ _, viable_of_unfinished leading unfinished, ?_⟩
        intro other start viable
        rw [length]
        exact length_le_of_viable found start viable

/-! ## The front is determined -/

theorem MalformedPart.ne_nil {bytes part : List UInt8} (malformed : MalformedPart bytes part) :
    part ≠ [] := by
  rcases malformed.longest with ⟨nonempty, _, _⟩ | ⟨single, _⟩
  · exact nonempty
  · intro empty
    rw [empty] at single
    cases single

theorem MalformedPart.length_le {bytes part other : List UInt8}
    (malformed : MalformedPart bytes part) (second : MalformedPart bytes other) :
    other.length ≤ part.length := by
  rcases second.longest with ⟨nonempty, viable, _⟩ | ⟨single, _⟩
  · rcases malformed.longest with ⟨_, _, longest⟩ | ⟨_, none⟩
    · exact longest other second.prefix_bytes viable
    · exact absurd (none other second.prefix_bytes viable) nonempty
  · rw [single]
    exact List.length_pos_iff.mpr malformed.ne_nil

/-- What it means to read the front of bytes, in terms of the encoder alone. -/
structure ReadsFront (read : List UInt8 → Front) : Prop where
  read_scalar : ∀ {bytes : List UInt8} {character : Char}, utf8EncodeChar character <+: bytes →
    read bytes = .scalar character (utf8EncodeChar character).length
  read_malformed : ∀ {bytes part : List UInt8}, MalformedPart bytes part →
    read bytes = .malformed part.length

theorem readsFront_front : ReadsFront front where
  read_scalar start := front_eq_scalar_iff.mpr ⟨start, rfl⟩
  read_malformed := by
    intro bytes part malformed
    cases bytes with
    | nil => exact absurd (List.prefix_nil.mp malformed.prefix_bytes) malformed.ne_nil
    | cons lead rest =>
        cases found : front (lead :: rest) with
        | scalar character size =>
            exact absurd (front_eq_scalar_iff.mp found).1 (malformed.not_scalar character)
        | malformed size =>
            have own := malformedPart_of_front found
            have same := Nat.le_antisymm (malformed.length_le own) (own.length_le malformed)
            have bound := size_front_le (lead :: rest)
            rw [found, Front.size] at bound
            rw [List.length_take, Nat.min_eq_left bound] at same
            rw [same]

/-- No other function does it, as long as there are bytes at all. -/
theorem ReadsFront.eq_front {read : List UInt8 → Front} (reads : ReadsFront read)
    {bytes : List UInt8} (nonempty : bytes ≠ []) : read bytes = front bytes := by
  cases bytes with
  | nil => exact absurd rfl nonempty
  | cons lead rest =>
      cases found : front (lead :: rest) with
      | scalar character size =>
          rcases front_eq_scalar_iff.mp found with ⟨start, rfl⟩
          exact reads.read_scalar start
      | malformed size =>
          have bound := size_front_le (lead :: rest)
          rw [found, Front.size] at bound
          rw [reads.read_malformed (malformedPart_of_front found), List.length_take,
            Nat.min_eq_left bound]

end Utf8
end ForwardCursor
