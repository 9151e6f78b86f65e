import ForwardCursor.Proofs.Utf8.Viable

namespace ForwardCursor
namespace Utf8

/-!
# Dividing bytes into parts

Every sequence of bytes is divided from the front into characters and malformed parts.
The parts hold all of the bytes, each in its place.  A division without malformed parts
is the one that encoding its characters undoes, and there is no other way to obtain
those bytes from characters.
-/

open String (utf8EncodeChar)

inductive Part where
  | scalar (character : Char)
  | malformed (bytes : List UInt8)
  deriving DecidableEq

/-- The bytes of a character are those that the encoder writes for it. -/
def Part.bytes : Part → List UInt8
  | scalar character => utf8EncodeChar character
  | malformed bytes => bytes

/-- The part that bytes start with. -/
def firstPart (bytes : List UInt8) : Part :=
  match front bytes with
  | .scalar character _ => .scalar character
  | .malformed size => .malformed (bytes.take size)

def parts : List UInt8 → List Part
  | [] => []
  | lead :: rest =>
    firstPart (lead :: rest) :: parts ((lead :: rest).drop (front (lead :: rest)).size)
termination_by bytes => bytes.length
decreasing_by
  have positive := size_front_pos lead rest
  rw [List.length_drop, List.length_cons]
  omega

/-! ## The first part -/

theorem firstPart_of_scalar {bytes : List UInt8} {character : Char} {size : Nat}
    (found : front bytes = .scalar character size) : firstPart bytes = .scalar character := by
  rw [firstPart, found]

theorem firstPart_of_malformed {bytes : List UInt8} {size : Nat}
    (found : front bytes = .malformed size) :
    firstPart bytes = .malformed (bytes.take size) := by
  rw [firstPart, found]

theorem firstPart_of_unfinished {bytes : List UInt8} (unfinished : Unfinished bytes) :
    firstPart bytes = .malformed bytes := by
  rw [firstPart_of_malformed unfinished, List.take_length]

theorem bytes_firstPart (bytes : List UInt8) :
    (firstPart bytes).bytes = bytes.take (front bytes).size := by
  cases found : front bytes with
  | scalar character size =>
      rcases front_eq_scalar_iff.mp found with ⟨⟨rest, rfl⟩, rfl⟩
      rw [firstPart_of_scalar found, Front.size, List.take_left' rfl, Part.bytes]
  | malformed size =>
      rw [firstPart_of_malformed found, Front.size, Part.bytes]

theorem length_bytes_firstPart (bytes : List UInt8) :
    (firstPart bytes).bytes.length = (front bytes).size := by
  rw [bytes_firstPart, List.length_take, Nat.min_eq_left (size_front_le bytes)]

theorem firstPart_append_drop (bytes : List UInt8) :
    (firstPart bytes).bytes ++ bytes.drop (front bytes).size = bytes := by
  rw [bytes_firstPart, List.take_append_drop]

theorem malformedPart_of_firstPart {bytes part : List UInt8} (nonempty : bytes ≠ [])
    (first : firstPart bytes = .malformed part) : MalformedPart bytes part := by
  rcases List.exists_cons_of_ne_nil nonempty with ⟨lead, rest, rfl⟩
  cases found : front (lead :: rest) with
  | scalar character size =>
      rw [firstPart_of_scalar found] at first
      cases first
  | malformed size =>
      rw [firstPart_of_malformed found] at first
      cases first
      exact malformedPart_of_front found

/-! ## All parts -/

theorem parts_nil : parts [] = [] := by rw [parts]

theorem parts_of_ne_nil {bytes : List UInt8} (nonempty : bytes ≠ []) :
    parts bytes = firstPart bytes :: parts (bytes.drop (front bytes).size) := by
  cases bytes with
  | nil => exact absurd rfl nonempty
  | cons lead rest => rw [parts]

/-- The parts hold all of the bytes, in order. -/
theorem flatMap_bytes_parts (bytes : List UInt8) : (parts bytes).flatMap Part.bytes = bytes := by
  induction bytes using parts.induct with
  | case1 => rw [parts_nil, List.flatMap_nil]
  | case2 lead rest inductionHypothesis =>
      rw [parts, List.flatMap_cons, inductionHypothesis, firstPart_append_drop]

/-- The later parts are the parts of the later bytes. -/
theorem parts_drop {bytes : List UInt8} {before after : List Part}
    (divided : parts bytes = before ++ after) :
    parts (bytes.drop (before.flatMap Part.bytes).length) = after := by
  induction before generalizing bytes with
  | nil => exact divided
  | cons part before inductionHypothesis =>
      cases bytes with
      | nil =>
          rw [parts_nil] at divided
          cases divided
      | cons lead rest =>
          rw [parts, List.cons_append] at divided
          rcases List.cons.inj divided with ⟨rfl, later⟩
          rw [List.flatMap_cons, List.length_append, length_bytes_firstPart, ← List.drop_drop]
          exact inductionHypothesis later

/-- A malformed part cannot be read as a character, and it is no shorter than it has to be. -/
theorem malformedPart_of_parts {bytes part : List UInt8} {before after : List Part}
    (divided : parts bytes = before ++ .malformed part :: after) :
    MalformedPart (bytes.drop (before.flatMap Part.bytes).length) part := by
  have later := parts_drop divided
  cases left : bytes.drop (before.flatMap Part.bytes).length with
  | nil =>
      rw [left, parts_nil] at later
      cases later
  | cons lead rest =>
      rw [left, parts] at later
      exact malformedPart_of_firstPart (List.cons_ne_nil lead rest) (List.cons.inj later).1

/-! ## Encoded characters -/

theorem parts_encode_append (character : Char) (rest : List UInt8) :
    parts (utf8EncodeChar character ++ rest) = .scalar character :: parts rest := by
  have found := front_encode_append character rest
  have nonempty : utf8EncodeChar character ++ rest ≠ [] := by
    intro empty
    rw [empty] at found
    cases found
  rw [parts_of_ne_nil nonempty, firstPart_of_scalar found, found, Front.size, List.drop_left' rfl]

theorem parts_encode (characters : List Char) :
    parts (characters.flatMap utf8EncodeChar) = characters.map .scalar := by
  induction characters with
  | nil => exact parts_nil
  | cons character characters inductionHypothesis =>
      rw [List.flatMap_cons, parts_encode_append, inductionHypothesis, List.map_cons]

/-- Bytes have no malformed part exactly if they are what is written for some characters,
and then the characters are the parts. -/
theorem parts_eq_scalars_iff {bytes : List UInt8} {characters : List Char} :
    parts bytes = characters.map .scalar ↔ bytes = characters.flatMap utf8EncodeChar := by
  constructor
  · intro divided
    have whole := flatMap_bytes_parts bytes
    rw [divided, List.flatMap_map] at whole
    exact whole.symm
  · rintro rfl
    exact parts_encode characters

end Utf8
end ForwardCursor
