import ForwardCursor.Utf8.Failure
import Mathlib.Tactic.IntervalCases

namespace ForwardCursor

/-!
# What the text of a failure tells

The text of a failure is a single line, and the offset, the cause and its details follow one
another in it without any quotation.  It can be taken apart in only one way nevertheless.  The
offset ends where its digits end.  The two causes differ in their first letter.  Each byte of a
malformed sequence takes two digits, also the small ones, and the text of a fault is followed by
nothing but the last full stop.

A fault is told by its text alone.  It may have any text, even one that looks like the text of a
failure, but this makes it longer than the one that it looks like.
-/

/-! ## Bytes -/

/-- The value of a hexadecimal digit. -/
def digitValue (digit : Char) : Nat :=
  if digit.isDigit then digit.toNat - '0'.toNat else digit.toNat - 'a'.toNat + 10

theorem digitValue_digitChar {value : Nat} (small : value < 16) :
    digitValue (Nat.digitChar value) = value := by
  interval_cases value <;> rfl

theorem hexDigits_injective : Function.Injective hexDigits := by
  intro byte other same
  rw [hexDigits, hexDigits, List.cons.injEq, List.cons.injEq] at same
  rcases same with ⟨high, low, _⟩
  have bounded := byte.toNat_lt
  have boundedOther := other.toNat_lt
  have highs := congrArg digitValue high
  have lows := congrArg digitValue low
  rw [digitValue_digitChar (by omega), digitValue_digitChar (by omega)] at highs lows
  apply UInt8.toNat_inj.mp
  omega

namespace Malformed

theorem byteList_injective : Function.Injective byteList := by
  intro bytes others same
  induction bytes generalizing others with
  | nil =>
      cases others with
      | nil => rfl
      | cons other others => cases same
  | cons byte bytes inductionHypothesis =>
      cases others with
      | nil => cases same
      | cons other others =>
          simp only [byteList_cons, List.cons.injEq, true_and] at same
          -- The digits of a byte are always two, so the other bytes begin at the same place.
          rcases List.append_inj same rfl with ⟨digits, rest⟩
          rw [hexDigits_injective digits, inductionHypothesis rest]

theorem causeText_eq (sequence : Malformed) :
    sequence.causeText = "invalid utf-8 sequence:" ++ String.ofList (byteList sequence.bytes) := rfl

theorem causeText_inj {sequence other : Malformed} :
    sequence.causeText = other.causeText ↔ sequence.bytes = other.bytes := by
  rw [causeText_eq, causeText_eq, String.append_right_inj, String.ofList_inj,
    byteList_injective.eq_iff]

/-- A malformed sequence is not taken for a failed read. -/
theorem causeText_ne_read (sequence : Malformed) (message : String) :
    sequence.causeText ≠ "read failed: " ++ message := by
  intro same
  rw [causeText_eq] at same
  have characters := congrArg String.toList same
  rw [String.toList_append, String.toList_append] at characters
  have first : some 'i' = some 'r' := congrArg List.head? characters
  cases first

end Malformed

/-! ## Offsets -/

/-- An offset is read back from its digits, which end in front of the first other character. -/
theorem ofDigitChars_offset (offset : Nat) (rest : List Char) :
    Nat.ofDigitChars 10 (((Nat.repr offset).toList ++ ' ' :: rest).takeWhile Char.isDigit) 0 =
      offset := by
  rw [Nat.repr_eq_ofList_toDigits, String.toList_ofList, List.takeWhile_append_of_pos,
    List.takeWhile_cons_of_neg, List.append_nil, Nat.ofDigitChars_ten_toDigits]
  · decide
  · intro digit member
    exact Nat.isDigit_of_mem_toDigits (by decide) (by decide) member

theorem toList_locatedText (offset : Nat) (cause : String) :
    (locatedText offset cause).toList = "byte ".toList ++
      ((Nat.repr offset).toList ++ ' ' :: '-' :: ' ' :: (cause.toList ++ ['.'])) := by
  simp only [locatedText, String.toList_append, List.append_assoc]
  rfl

theorem locatedText_inj {offset other : Nat} {cause otherCause : String} :
    locatedText offset cause = locatedText other otherCause ↔
      offset = other ∧ cause = otherCause := by
  constructor
  · intro same
    have characters := congrArg String.toList same
    rw [toList_locatedText, toList_locatedText, List.append_cancel_left_eq] at characters
    have offsets :=
      congrArg (fun text => Nat.ofDigitChars 10 (text.takeWhile Char.isDigit) 0) characters
    rw [ofDigitChars_offset, ofDigitChars_offset] at offsets
    cases offsets
    rw [locatedText, locatedText, String.append_left_inj, String.append_right_inj] at same
    exact ⟨rfl, same⟩
  · rintro ⟨rfl, rfl⟩
    rfl

/-! ## Failures -/

namespace Failure

/-- Two failures report the same: the same malformed sequence, or faults with the same text at
the same offset. -/
inductive SameReport : Failure → Failure → Prop where
  | read {fault other : Fault} (offset : Nat) (same : fault.text = other.text) :
      SameReport (.read fault offset) (.read other offset)
  | malformed (sequence : Malformed) : SameReport (.malformed sequence) (.malformed sequence)

theorem text_read (fault : Fault) (offset : Nat) :
    (read fault offset).text = locatedText offset ("read failed: " ++ fault.text) := rfl

theorem text_malformed (sequence : Malformed) :
    (malformed sequence).text = locatedText sequence.offset sequence.causeText := rfl

theorem text_read_inj {fault otherFault : Fault} {offset other : Nat} :
    (read fault offset).text = (read otherFault other).text ↔
      offset = other ∧ fault.text = otherFault.text := by
  rw [text_read, text_read, locatedText_inj, String.append_right_inj]

theorem text_malformed_inj {sequence other : Malformed} :
    (malformed sequence).text = (malformed other).text ↔ sequence = other := by
  rcases sequence with ⟨bytes, offset⟩
  rcases other with ⟨otherBytes, otherOffset⟩
  rw [text_malformed, text_malformed, locatedText_inj, Malformed.causeText_inj, Malformed.mk.injEq]
  exact and_comm

theorem text_malformed_ne_read (sequence : Malformed) (fault : Fault) (offset : Nat) :
    (malformed sequence).text ≠ (read fault offset).text := by
  intro same
  rw [text_malformed, text_read, locatedText_inj] at same
  exact sequence.causeText_ne_read fault.text same.2

theorem text_eq_iff (first second : Failure) :
    first.text = second.text ↔ first.SameReport second := by
  constructor
  · intro same
    cases first with
    | read fault offset =>
        cases second with
        | read otherFault other =>
            rcases text_read_inj.mp same with ⟨rfl, texts⟩
            exact .read offset texts
        | malformed sequence =>
            exact absurd same.symm (text_malformed_ne_read sequence fault offset)
    | malformed sequence =>
        cases second with
        | read fault offset => exact absurd same (text_malformed_ne_read sequence fault offset)
        | malformed other =>
            cases text_malformed_inj.mp same
            exact .malformed sequence
  · intro same
    cases same with
    | read offset texts => exact text_read_inj.mpr ⟨rfl, texts⟩
    | malformed sequence => rfl

/-- Failures that differ in their cause, their offset, the text of the fault or the malformed
bytes have different texts.  A malformed sequence that has become a fault is told by the text of
the fault as well, and the fault still holds it with its offset. -/
theorem texts_tell_failures_apart :
    (∀ first second : Failure, first.text = second.text ↔ first.SameReport second) ∧
      (∀ sequence other : Malformed,
        (malformed sequence).toFault.text = (malformed other).toFault.text ↔ sequence = other) ∧
      ∀ sequence : Malformed, (malformed sequence).toFault.malformed? = some sequence := by
  refine ⟨text_eq_iff, ?_, malformed?_toFault_malformed⟩
  intro sequence other
  rw [text_toFault_malformed, text_toFault_malformed]
  exact text_malformed_inj

/-- A fault with the text of a failure does not make its own failure look like that one. -/
example :
    (read ⟨.other, .message (malformed ⟨[0xFF], 1⟩).text⟩ 1).text =
      "byte 1 - read failed: byte 1 - invalid utf-8 sequence: 0xff.." := by
  decide

end Failure

end ForwardCursor
