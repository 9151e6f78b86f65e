import ForwardCursor.Proofs.Utf8.Parts

namespace ForwardCursor
namespace Utf8

/-!
# Bytes as text, whatever they are

Every sequence of bytes can be read as text if each malformed part is given up for the
replacement character.  What text that is can be said of all the bytes at once, by the
encoder and the malformed parts alone: where an encoded character starts, it is read, and
where none starts, the malformed part there is replaced as a whole.

This determines the text.  It is the one that the parts of the bytes show.
-/

open String (utf8EncodeChar)

/-- The characters that bytes stand for, with one replacement character for each malformed
part. -/
inductive Substitutes : List UInt8 → List Char → Prop where
  | nil : Substitutes [] []
  | character (character : Char) {rest : List UInt8} {characters : List Char}
      (later : Substitutes rest characters) :
      Substitutes (utf8EncodeChar character ++ rest) (character :: characters)
  | malformed {part rest : List UInt8} {characters : List Char}
      (broken : MalformedPart (part ++ rest) part) (later : Substitutes rest characters) :
      Substitutes (part ++ rest) ('\uFFFD' :: characters)

/-- The character that is shown for a part. -/
def Part.shown : Part → Char
  | scalar character => character
  | malformed _ => '\uFFFD'

/-- Where no character starts, the malformed part is what is found there. -/
theorem substitutes_of_front {lead : UInt8} {bytes : List UInt8} {size : Nat}
    {characters : List Char} (found : front (lead :: bytes) = .malformed size)
    (later : Substitutes ((lead :: bytes).drop size) characters) :
    Substitutes (lead :: bytes) ('\uFFFD' :: characters) := by
  have broken := malformedPart_of_front found
  have whole := List.take_append_drop size (lead :: bytes)
  have given := @Substitutes.malformed ((lead :: bytes).take size) ((lead :: bytes).drop size)
  rw [whole] at given
  exact given broken later

/-- The parts of any bytes show a text for them. -/
theorem substitutes_parts (bytes : List UInt8) :
    Substitutes bytes ((parts bytes).map Part.shown) := by
  induction bytes using parts.induct with
  | case1 =>
      rw [parts_nil]
      exact .nil
  | case2 lead rest inductionHypothesis =>
      have whole := firstPart_append_drop (lead :: rest)
      rw [parts, List.map_cons]
      cases first : firstPart (lead :: rest) with
      | scalar character =>
          rw [first] at whole
          have later := Substitutes.character character inductionHypothesis
          rwa [← Part.bytes, whole] at later
      | malformed part =>
          cases found : front (lead :: rest) with
          | scalar character size => cases (firstPart_of_scalar found).symm.trans first
          | malformed size =>
              rw [found] at inductionHypothesis
              exact substitutes_of_front found inductionHypothesis

theorem parts_malformed_append {part rest : List UInt8}
    (broken : MalformedPart (part ++ rest) part) :
    parts (part ++ rest) = .malformed part :: parts rest := by
  have found := readsFront_front.read_malformed broken
  have nonempty : part ++ rest ≠ [] := List.append_ne_nil_of_left_ne_nil broken.ne_nil rest
  rw [parts_of_ne_nil nonempty, firstPart_of_malformed found, found, Front.size,
    List.take_left' rfl, List.drop_left' rfl]

/-- There is no other text. -/
theorem Substitutes.eq_parts {bytes : List UInt8} {characters : List Char}
    (substitutes : Substitutes bytes characters) :
    characters = (parts bytes).map Part.shown := by
  induction substitutes with
  | nil => rw [parts_nil, List.map_nil]
  | character character _ inductionHypothesis =>
      rw [parts_encode_append, List.map_cons, ← inductionHypothesis, Part.shown]
  | malformed broken _ inductionHypothesis =>
      rw [parts_malformed_append broken, List.map_cons, ← inductionHypothesis, Part.shown]

/-- As a string, this is the one text that the bytes stand for. -/
theorem exists_text (bytes : List UInt8) :
    ∃ string : String, ∀ other : String, Substitutes bytes other.toList ↔ other = string := by
  have shown : (String.ofList ((parts bytes).map Part.shown)).toList =
      (parts bytes).map Part.shown := String.toList_ofList
  refine ⟨String.ofList ((parts bytes).map Part.shown), ?_⟩
  intro other
  constructor
  · intro substitutes
    rw [← substitutes.eq_parts, String.ofList_toList]
  · rintro rfl
    rw [shown]
    exact substitutes_parts bytes

end Utf8
end ForwardCursor
