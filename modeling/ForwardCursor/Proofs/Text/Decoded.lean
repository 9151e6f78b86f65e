import ForwardCursor.Proofs.Cursor.Finite
import ForwardCursor.Proofs.Decoder.Policies
import ForwardCursor.Proofs.Text.Counterpart
import ForwardCursor.Text.Decoded

namespace ForwardCursor

/-!
# Text from a device

A text cursor over a device cannot be told from one over a string.  The bytes may be cut into
any pieces, the reads may be interrupted, and the buffer may have any room: if the bytes are
encoded text, every session gives the same answers and shows the same as on that text.  A
lossy decoder makes the same true of all bytes, with the text that they stand for.

The decoder and the list of characters are related by what they have to give.  This relation
is kept by every request, so it is kept by every operation and every session.  The offset of a
strict decoder can be read off it: the bytes given out are those of the characters taken and of
the one ahead.
-/

open String (utf8EncodeChar)

/-! ## A cursor over a list -/

theorem pull_list {α : Type} (elements : List α) :
    Source.pull elements = (.ok elements.head?, elements.tail) := by
  cases elements <;> rfl

namespace Cursor

variable {α : Type}

theorem ofSource_eq_ofSequence {σ : Type} [Source σ Empty α] (source : σ) :
    ofSource source = .ok (ofSequence source) := by
  unfold ofSequence
  split
  · next started => exact started
  · next failure _ _ => exact failure.elim

/-- The position of a cursor over a list says what is ahead and what is left of the list. -/
structure StandsAt (elements : List α) (cursor : Cursor (List α) α) : Prop where
  ahead_eq : cursor.ahead = elements[cursor.position]?
  source_eq : cursor.source = elements.drop (cursor.position + 1)

theorem standsAt_ofSequence (elements : List α) : (ofSequence elements).StandsAt elements := by
  cases elements <;> exact ⟨rfl, rfl⟩

theorem StandsAt.next {elements : List α} (cursor : Cursor (List α) α)
    (stands : cursor.StandsAt elements) : cursor.next.2.StandsAt elements := by
  rcases cursor.next_cases with ⟨_, stepped⟩ | ⟨element, ahead, rest, _, asked, stepped⟩ |
    ⟨_, failure, _⟩
  · rw [stepped]
    exact stands
  · rw [pull_list, stands.source_eq] at asked
    cases asked
    rw [stepped]
    exact ⟨List.head?_drop, List.tail_drop⟩
  · exact failure.elim

theorem StandsAt.yields {elements : List α} {cursor : Cursor (List α) α}
    (stands : cursor.StandsAt elements) : cursor.Yields (elements.drop cursor.position) 0 := by
  have present := stands.ahead_eq
  cases found : elements[cursor.position]? with
  | none =>
      rw [List.drop_eq_nil_of_le (List.getElem?_eq_none_iff.mp found)]
      exact .ended (present.trans found)
  | some element =>
      rcases List.getElem?_eq_some_iff.mp found with ⟨inside, rfl⟩
      rw [List.drop_eq_getElem_cons inside, ← stands.source_eq]
      exact .present (present.trans found) (Source.yields_list _)

end Cursor

/-! ## What a decoder has to give -/

namespace Decoder

open Utf8

/-- The bytes that come to the decoder stand for these characters, and after them the offset
will be `total`. -/
structure Gives (policy : Policy) (total : Nat) (decoder : Decoder) (bytes : List UInt8)
    (characters : List Char) : Prop where
  policy_eq : decoder.policy = policy
  provides : decoder.reader.Provides bytes
  pending_eq : decoder.pending = []
  answers_eq : answers policy decoder.offset (parts bytes) = characterAnswers characters
  total_eq : decoder.offset + bytes.length = total

/-- A failure has no counterpart where nothing fails. -/
def NoFailure (_ : Failure) (_ : Empty) : Prop := False

/-- A decoder that has the characters of a list to give answers as the list does. -/
theorem gives_answerAlike (policy : Policy) (total : Nat) :
    Source.AnswerAlike NoFailure
      fun decoder characters => ∃ bytes, Gives policy total decoder bytes characters := by
  rintro decoder characters ⟨bytes, gives⟩
  have sames := gives.answers_eq
  rw [pull_eq, pull_list]
  by_cases empty : bytes = []
  · rcases decode_of_provides_nil (empty ▸ gives.provides) gives.pending_eq with
      ⟨after, provides, decoded⟩
    have none : characters = [] := by
      rw [empty, parts_nil] at sames
      exact List.map_eq_nil_iff.mp sames.symm
    rw [decoded, none]
    refine ⟨.ok rfl, bytes, gives.policy_eq, empty ▸ provides, rfl, ?_, gives.total_eq⟩
    rw [empty, parts_nil]
    rfl
  · have whole : decoder.pending ++ bytes = bytes := by rw [gives.pending_eq, List.nil_append]
    have unfinished : Unfinished decoder.pending := gives.pending_eq ▸ unfinished_nil
    rcases decode_of_provides gives.provides unfinished (whole.symm ▸ empty) with
      ⟨after, provides, decoded⟩
    rw [whole] at provides decoded
    rw [parts_of_ne_nil empty, answers, length_bytes_firstPart] at sames
    cases characters with
    | nil => cases sames
    | cons character characters =>
        rcases List.cons.inj sames with ⟨first, later⟩
        rw [decoded, gives.policy_eq, first]
        refine ⟨.ok rfl, bytes.drop (front bytes).size, rfl, provides, rfl, later, ?_⟩
        rw [← gives.total_eq, List.length_drop, Nat.add_assoc,
          Nat.add_sub_cancel' (size_front_le bytes)]

theorem Gives.strict_offset {total : Nat} {decoder : Decoder} {bytes : List UInt8}
    {characters : List Char} (gives : Gives .strict total decoder bytes characters) :
    decoder.offset + (characters.flatMap utf8EncodeChar).length = total := by
  have encoded := parts_eq_scalars_iff.mp (parts_of_answers_eq gives.answers_eq)
  rw [← encoded]
  exact gives.total_eq

end Decoder

namespace TextCursor

open Decoder Utf8

/-! ## Abreast of a string -/

/-- A text cursor over a decoder that has the rest of a string to give, next to one over the
string itself. -/
structure Follows (policy : Policy) (total : Nat) (string : String) (text : TextCursor Decoder)
    (other : TextCursor (List Char)) : Prop where
  abreast : text.cursor.Abreast
    (fun decoder characters => ∃ bytes, Gives policy total decoder bytes characters) other.cursor
  stands : other.cursor.StandsAt string.toList

/-- Every operation comes to an end on both, gives the same, and leads on to such a pair. -/
theorem outcome_follows {policy : Policy} {total rounds : Nat} {string : String}
    (enough : string.length < rounds) {text : TextCursor Decoder} {other : TextCursor (List Char)}
    (operation : Operation) (follows : Follows policy total string text other) :
    ∃ outcome outcomeOther, text.outcome rounds operation = some outcome ∧
      other.outcome rounds operation = some outcomeOther ∧
      Outcome.Alike NoFailure Eq (Follows policy total string) outcome outcomeOther := by
  have left : (string.toList.drop other.position).length < rounds := by
    rw [List.length_drop]
    exact Nat.lt_of_le_of_lt (Nat.sub_le _ _) enough
  have ends := isSome_outcome operation follows.stands.yields left
  rcases Option.isSome_iff_exists.mp ends with ⟨outcomeOther, performed⟩
  have same := outcome_abreast (gives_answerAlike policy total) rounds operation follows.abreast
  rw [performed] at same
  rcases rel_some same with ⟨outcome, begun, answer, asked, afters⟩
  have stands := kept_by_outcome Cursor.StandsAt.next performed follows.stands
  exact ⟨outcome, outcomeOther, begun, performed, answer, asked, afters, stands⟩

/-! ## What is seen -/

/-- Two text cursors that show the same, whatever their sources are. -/
structure ShowsSame {σ ρ : Type} (text : TextCursor σ) (other : TextCursor ρ) : Prop where
  position_eq : text.position = other.position
  atEnd_eq : text.atEnd = other.atEnd
  ahead_eq : text.ahead = other.ahead

/-- The same, where the offset of the source counts the bytes of the characters taken and of the
one ahead. -/
structure CountsBytes (string : String) (text : TextCursor Decoder)
    (other : TextCursor (List Char)) : Prop extends ShowsSame text other where
  offset_eq : text.source.offset =
    ((string.toList.take (min (text.position + 1) string.length)).flatMap utf8EncodeChar).length

theorem Follows.showsSame {policy : Policy} {total : Nat} {string : String}
    {text : TextCursor Decoder} {other : TextCursor (List Char)}
    (follows : Follows policy total string text other) : ShowsSame text other where
  position_eq := follows.abreast.position_eq
  atEnd_eq := follows.abreast.atEnd_eq
  ahead_eq := follows.abreast.ahead_eq

theorem Follows.countsBytes {string : String} {text : TextCursor Decoder}
    {other : TextCursor (List Char)}
    (follows : Follows .strict (string.toList.flatMap utf8EncodeChar).length string text other) :
    CountsBytes string text other where
  toShowsSame := follows.showsSame
  offset_eq := by
    rcases follows.abreast.source with ⟨bytes, gives⟩
    have total := gives.strict_offset
    rw [follows.stands.source_eq, ← follows.abreast.position_eq] at total
    let behind := (string.toList.take (text.position + 1)).flatMap utf8EncodeChar
    let left := (string.toList.drop (text.position + 1)).flatMap utf8EncodeChar
    have whole : behind.length + left.length = (string.toList.flatMap utf8EncodeChar).length := by
      rw [← List.length_append, ← List.flatMap_append, List.take_append_drop]
    rw [← String.length_toList, ← List.take_eq_take_min]
    exact Nat.add_right_cancel (total.trans whole.symm)

/-- It starts without a failure, and in every session it gives and shows what a text cursor over
the string does, in as many rounds as the string needs. -/
def ActsAs (string : String) (leaving : TextCursor Decoder → TextCursor (List Char) → Prop)
    (started : Except (Failure × Decoder) (TextCursor Decoder)) : Prop :=
  ∃ text, started = .ok text ∧ leaving text (ofString string) ∧
    ∀ rounds, string.length < rounds → ∀ operations : List Operation,
      ∃ outcomes others, session (outcome rounds) operations text = some outcomes ∧
        session (outcome rounds) operations (ofString string) = some others ∧
        List.Forall₂ (Outcome.Alike NoFailure Eq leaving) outcomes others

/-- What a decoder has to give decides on everything that is seen. -/
theorem actsAs_of_gives {policy : Policy} {total : Nat} {string : String} {decoder : Decoder}
    {bytes : List UInt8} (gives : Gives policy total decoder bytes string.toList)
    {leaving : TextCursor Decoder → TextCursor (List Char) → Prop}
    (seen : ∀ text other, Follows policy total string text other → leaving text other) :
    ActsAs string leaving (ofSource decoder) := by
  have starts := Cursor.ofSource_abreast (gives_answerAlike policy total) ⟨bytes, gives⟩
  rw [Cursor.ofSource_eq_ofSequence] at starts
  rw [ofSource]
  cases started : Cursor.ofSource (α := Char) decoder with
  | error failed =>
      rw [started] at starts
      cases starts
  | ok cursor =>
      rw [started] at starts
      cases starts with
      | ok abreast =>
          have follows : Follows policy total string ⟨cursor⟩ (ofString string) :=
            ⟨abreast, Cursor.standsAt_ofSequence _⟩
          refine ⟨⟨cursor⟩, rfl, seen _ _ follows, ?_⟩
          intro rounds enough operations
          have single := fun text other operation sides =>
            @outcome_follows policy total rounds string enough text other operation sides
          rcases session_together single operations follows with
            ⟨outcomes, others, begun, finished, same⟩
          refine ⟨outcomes, others, begun, finished, ?_⟩
          apply same.imp
          rintro outcome other ⟨answer, asked, afters⟩
          exact ⟨answer, asked, seen _ _ afters⟩

/-- If a device provides encoded text, a strict decoder makes of it what the text itself would
be, and its offset is where the text cursor is in these bytes.  Whatever bytes a device provides,
there is exactly one text that they stand for, and a lossy decoder makes of them what that text
would be. -/
theorem sessions_eq_ofString {device : Device} {bytes : List UInt8}
    (provides : device.Provides bytes) {capacity : Nat} (positive : 0 < capacity) :
    (∀ string : String, bytes = string.toList.flatMap utf8EncodeChar →
      ActsAs string (CountsBytes string)
          (ofSource ({ reader := .ofDevice device capacity, policy := .strict } : Decoder)) ∧
        ActsAs string (CountsBytes string) (ofDevice device)) ∧
    ∃ string : String, (∀ other : String, Substitutes bytes other.toList ↔ other = string) ∧
      ActsAs string ShowsSame
        (ofSource ({ reader := .ofDevice device capacity, policy := .lossy } : Decoder)) := by
  have gives {room : Nat} (positive : 0 < room) (policy : Policy) {characters : List Char}
      (same : answers policy 0 (parts bytes) = characterAnswers characters) :
      Gives policy bytes.length { reader := .ofDevice device room, policy } bytes characters :=
    ⟨rfl, Reader.provides_ofDevice positive provides, rfl, same, Nat.zero_add _⟩
  constructor
  · rintro string rfl
    have same : answers .strict 0 (parts (string.toList.flatMap utf8EncodeChar)) =
        characterAnswers string.toList := by rw [parts_encode, answers_scalars]
    constructor
    · exact actsAs_of_gives (gives positive .strict same) fun _ _ follows => follows.countsBytes
    · have room : 0 < Reader.defaultCapacity := by decide
      exact actsAs_of_gives (gives room .strict same) fun _ _ follows => follows.countsBytes
  · rcases exists_text bytes with ⟨string, unique⟩
    have shown := ((unique string).mpr rfl).eq_parts
    have same : answers .lossy 0 (parts bytes) = characterAnswers string.toList := by
      rw [answers_lossy, shown]
    refine ⟨string, unique, ?_⟩
    exact actsAs_of_gives (gives positive .lossy same) fun _ _ follows => follows.showsSame

theorem sessions_eq_ofString_written :
    written.Provides [0x41, 0xE2, 0x82, 0xAC, 0xF0, 0x9F, 0x98, 0x80] ∧ 0 < 3 ∧
      ActsAs "A€😀" (CountsBytes "A€😀")
        (ofSource ({ reader := .ofDevice written 3, policy := .strict } : Decoder)) ∧
      damaged.Provides [0x41, 0xE2, 0x82, 0xFF, 0xC3] ∧ 0 < 2 ∧
      ActsAs "A\uFFFD\uFFFD\uFFFD" ShowsSame
        (ofSource ({ reader := .ofDevice damaged 2, policy := .lossy } : Decoder)) := by
  have provides : written.Provides [0x41, 0xE2, 0x82, 0xAC, 0xF0, 0x9F, 0x98, 0x80] := ⟨0, rfl⟩
  have encoded : [0x41, 0xE2, 0x82, 0xAC, 0xF0, 0x9F, 0x98, 0x80] =
      "A€😀".toList.flatMap utf8EncodeChar := by decide
  have broken : damaged.Provides [0x41, 0xE2, 0x82, 0xFF, 0xC3] :=
    Device.provides_of_pieces (by decide)
  have three : 0 < 3 := by decide
  have two : 0 < 2 := by decide
  have strictly := ((sessions_eq_ofString provides three).1 "A€😀" encoded).1
  rcases (sessions_eq_ofString broken two).2 with ⟨string, same, leniently⟩
  have shown : "A\uFFFD\uFFFD\uFFFD".toList = ['A', '\uFFFD', '\uFFFD', '\uFFFD'] := by decide
  have substitutes := substitutes_damaged
  rw [← shown, same] at substitutes
  cases substitutes
  exact ⟨provides, three, strictly, broken, two, leniently⟩

end TextCursor

end ForwardCursor
