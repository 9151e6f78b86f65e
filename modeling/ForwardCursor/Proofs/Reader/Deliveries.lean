import ForwardCursor.Reader.Basic
import Mathlib.Data.List.Basic

namespace ForwardCursor

/-!
# What a reader has yet to deliver

A device cuts its bytes into pieces, and a reader cuts the pieces again to fit its
buffer.  Neither cut matters to whoever looks at one byte after the other.  What does
matter is kept here as a list of deliveries: each byte, each end of the data, and each
fault except interruptions, in order.

Looking at a reader shows the first delivery.  An end or a fault is used up by that,
while a byte stays until it is consumed.  This holds for every buffer capacity but
zero, with which no byte can be delivered at all.
-/

/-- A byte, an end of the data, or a fault. -/
abbrev Delivery := Except Fault (Option UInt8)

namespace Delivery

/-- The deliveries of some bytes without an end or a fault among them. -/
def ofBytes (bytes : List UInt8) : List Delivery := bytes.map fun byte => .ok (some byte)

@[simp]
theorem ofBytes_nil : ofBytes [] = [] := rfl

@[simp]
theorem ofBytes_cons (byte : UInt8) (bytes : List UInt8) :
    ofBytes (byte :: bytes) = .ok (some byte) :: ofBytes bytes := rfl

@[simp]
theorem ofBytes_append (first second : List UInt8) :
    ofBytes (first ++ second) = ofBytes first ++ ofBytes second := List.map_append

/-- The bytes in front of the first end or fault. -/
def bytesAhead : List Delivery → List UInt8
  | .ok (some byte) :: deliveries => byte :: bytesAhead deliveries
  | _ => []

/-- An end, which also comes when nothing is left to be delivered, or a fault. -/
inductive Stopped : List Delivery → Prop where
  | ended {deliveries : List Delivery}
      (ended : deliveries = [] ∨ deliveries.head? = some (.ok none)) : Stopped deliveries
  | failed (fault : Fault) (deliveries : List Delivery) : Stopped (.error fault :: deliveries)

/-- Behind the bytes ahead the deliveries stop. -/
theorem exists_stopped (deliveries : List Delivery) :
    ∃ rest, deliveries = ofBytes (bytesAhead deliveries) ++ rest ∧ Stopped rest := by
  induction deliveries with
  | nil => exact ⟨[], rfl, .ended (Or.inl rfl)⟩
  | cons delivery deliveries inductionHypothesis =>
      match delivery with
      | .ok none => exact ⟨.ok none :: deliveries, rfl, .ended (Or.inr rfl)⟩
      | .error fault => exact ⟨.error fault :: deliveries, rfl, .failed fault deliveries⟩
      | .ok (some byte) =>
          rcases inductionHypothesis with ⟨rest, divided, stopped⟩
          exact ⟨rest, congrArg (.ok (some byte) :: ·) divided, stopped⟩

/-- The byte that is delivered, if it is one. -/
def byte? : Delivery → Option UInt8
  | .ok seen => seen
  | .error _ => none

theorem bytesAhead_prefix (deliveries : List Delivery) :
    bytesAhead deliveries <+: deliveries.filterMap byte? := by
  induction deliveries with
  | nil => exact List.nil_prefix
  | cons delivery deliveries inductionHypothesis =>
      match delivery with
      | .ok none => exact List.nil_prefix
      | .error fault => exact List.nil_prefix
      | .ok (some byte) => exact (List.prefix_cons_inj byte).mpr inductionHypothesis

theorem filterMap_ofBytes (bytes : List UInt8) : (ofBytes bytes).filterMap byte? = bytes := by
  rw [ofBytes, List.filterMap_map]
  exact List.filterMap_some

end Delivery

/-- A piece without bytes delivers an end, and an interruption delivers nothing. -/
def Event.deliveries : Event → List Delivery
  | .data [] => [.ok none]
  | .data (byte :: bytes) => Delivery.ofBytes (byte :: bytes)
  | .fault failed => if failed.isInterruption then [] else [.error failed]

theorem Event.filterMap_deliveries (event : Event) :
    event.deliveries.filterMap Delivery.byte? = event.bytes := by
  match event with
  | .data [] => rfl
  | .data (byte :: bytes) => exact Delivery.filterMap_ofBytes (byte :: bytes)
  | .fault failed =>
      simp only [deliveries]
      split <;> rfl

namespace Device

def deliveries (device : Device) : List Delivery := device.events.flatMap Event.deliveries

theorem deliveries_pastInterruptions (device : Device) :
    device.pastInterruptions.deliveries = device.deliveries := by
  rcases device with ⟨events, reads⟩
  induction events generalizing reads with
  | nil => rfl
  | cons event events inductionHypothesis =>
      cases interrupted : event.isInterruption with
      | false => simp [pastInterruptions, interrupted, deliveries]
      | true =>
          cases event with
          | data bytes => cases interrupted
          | fault fault =>
              have silent : (Event.fault fault).deliveries = [] := if_pos interrupted
              have rest := inductionHypothesis reads
              simpa [pastInterruptions, interrupted, deliveries, silent] using rest

theorem pastInterruptions_fault {device : Device} {fault : Fault} {events : List Event}
    (first : device.pastInterruptions.events = .fault fault :: events) :
    fault.isInterruption = false := by
  have stopped := List.head?_dropWhile_not Event.isInterruption device.events
  change device.events.dropWhile Event.isInterruption = _ at first
  rw [first] at stopped
  simpa [Event.isInterruption] using stopped

/-- A read that was not interrupted shows the first delivery.  It may show more bytes
than one, but never a byte together with something else. -/
theorem readThrough_cases {limit : Nat} (positive : 0 < limit) (device : Device) :
    (∃ after, device.readThrough limit = (.ok [], after) ∧
      (device.deliveries = .ok none :: after.deliveries ∨
        device.deliveries = [] ∧ after.deliveries = [])) ∨
    (∃ fault after, device.readThrough limit = (.error fault, after) ∧
      device.deliveries = .error fault :: after.deliveries) ∨
    (∃ byte bytes after, device.readThrough limit = (.ok (byte :: bytes), after) ∧
      device.deliveries = Delivery.ofBytes (byte :: bytes) ++ after.deliveries) := by
  rw [← deliveries_pastInterruptions]
  cases upcoming : device.pastInterruptions.events with
  | nil =>
      refine Or.inl ⟨⟨[], device.pastInterruptions.reads + 1⟩, ?_, Or.inr ⟨?_, rfl⟩⟩
      · simp [readThrough, read, upcoming]
      · simp [deliveries, upcoming]
  | cons event events =>
      cases event with
      | fault fault =>
          have reported := pastInterruptions_fault upcoming
          refine Or.inr (Or.inl ⟨fault, ⟨events, device.pastInterruptions.reads + 1⟩, ?_, ?_⟩)
          · simp [readThrough, read, upcoming]
          · simp [deliveries, upcoming, Event.deliveries, reported]
      | data piece =>
          cases piece with
          | nil =>
              refine Or.inl ⟨⟨events, device.pastInterruptions.reads + 1⟩, ?_, Or.inl ?_⟩
              · simp [readThrough, read, upcoming]
              · simp [deliveries, upcoming, Event.deliveries]
          | cons byte bytes =>
              rcases Nat.exists_eq_succ_of_ne_zero (Nat.ne_of_gt positive) with ⟨room, rfl⟩
              have whole : Delivery.ofBytes bytes =
                  Delivery.ofBytes (bytes.take room) ++ Delivery.ofBytes (bytes.drop room) := by
                rw [← Delivery.ofBytes_append, List.take_append_drop]
              let left := bytes.drop room
              refine Or.inr (Or.inr ⟨byte, bytes.take room,
                ⟨if left.isEmpty then events else .data left :: events,
                  device.pastInterruptions.reads + 1⟩, ?_, ?_⟩)
              · simp [readThrough, read, upcoming, left]
              · cases behind : bytes.drop room with
                | nil => simp [deliveries, upcoming, Event.deliveries, whole, left, behind]
                | cons next later => simp [deliveries, upcoming, Event.deliveries, whole, left, behind]

end Device

namespace Reader

/-- First the bytes in the buffer, then what the device has yet to deliver. -/
def deliveries (reader : Reader) : List Delivery :=
  Delivery.ofBytes reader.buffer ++ reader.device.deliveries

/-- The bytes ahead are the first of those that have not been consumed. -/
theorem bytesAhead_prefix (reader : Reader) :
    Delivery.bytesAhead reader.deliveries <+: reader.bytes := by
  have whole : reader.deliveries.filterMap Delivery.byte? = reader.bytes := by
    rw [deliveries, List.filterMap_append, Delivery.filterMap_ofBytes, Device.deliveries,
      List.filterMap_flatMap, bytes, Device.bytes]
    exact congrArg _ (List.flatMap_congr fun event _ => event.filterMap_deliveries)
  rw [← whole]
  exact Delivery.bytesAhead_prefix reader.deliveries

/-- A reader with room for data, and what it has yet to deliver. -/
structure Delivers (reader : Reader) (deliveries : List Delivery) : Prop where
  capacity_pos : 0 < reader.capacity
  deliveries_eq : reader.deliveries = deliveries

theorem delivers_ofDevice {capacity : Nat} (positive : 0 < capacity) (device : Device) :
    (ofDevice device capacity).Delivers device.deliveries := ⟨positive, rfl⟩

/-! ## Looking at the first delivery -/

/-- An empty buffer shows what a read of the device brings. -/
theorem peek_of_empty {reader : Reader} (empty : reader.buffer = []) :
    reader.peek =
      match reader.device.readThrough reader.capacity with
      | (.ok bytes, device) => (.ok bytes.head?, ⟨reader.capacity, bytes, device⟩)
      | (.error fault, device) => (.error fault, ⟨reader.capacity, [], device⟩) := by
  rcases reader with ⟨capacity, buffer, device⟩
  cases empty
  rfl

theorem peek_cases {reader : Reader} {deliveries : List Delivery}
    (delivers : reader.Delivers deliveries) :
    (∃ after rest, reader.peek = (.ok none, after) ∧ after.Delivers rest ∧
      (deliveries = .ok none :: rest ∨ deliveries = [] ∧ rest = [])) ∨
    (∃ fault after rest, reader.peek = (.error fault, after) ∧ after.Delivers rest ∧
      deliveries = .error fault :: rest) ∨
    (∃ byte after rest, reader.peek = (.ok (some byte), after) ∧ after.Delivers deliveries ∧
      after.consume.Delivers rest ∧ deliveries = .ok (some byte) :: rest) := by
  rcases delivers with ⟨positive, rfl⟩
  rcases reader with ⟨capacity, buffer, device⟩
  cases buffer with
  | cons byte bytes =>
      exact Or.inr (Or.inr ⟨byte, ⟨capacity, byte :: bytes, device⟩, _, rfl,
        ⟨positive, rfl⟩, ⟨positive, rfl⟩, rfl⟩)
  | nil =>
      rw [peek_of_empty rfl]
      rcases device.readThrough_cases positive with ⟨after, seen, ended | ⟨silent, none⟩⟩ |
        ⟨fault, after, seen, failed⟩ | ⟨byte, bytes, after, seen, held⟩
      · exact Or.inl ⟨⟨capacity, [], after⟩, after.deliveries, by rw [seen]; rfl,
          ⟨positive, rfl⟩, Or.inl ended⟩
      · exact Or.inl ⟨⟨capacity, [], after⟩, [], by rw [seen]; rfl,
          ⟨positive, none⟩, Or.inr ⟨silent, rfl⟩⟩
      · exact Or.inr (Or.inl ⟨fault, ⟨capacity, [], after⟩, after.deliveries, by rw [seen],
          ⟨positive, rfl⟩, failed⟩)
      · exact Or.inr (Or.inr ⟨byte, ⟨capacity, byte :: bytes, after⟩, _, by rw [seen]; rfl,
          ⟨positive, held.symm⟩, ⟨positive, rfl⟩, held⟩)

theorem peek_of_byte {reader : Reader} {byte : UInt8} {rest : List Delivery}
    (delivers : reader.Delivers (.ok (some byte) :: rest)) :
    ∃ after, reader.peek = (.ok (some byte), after) ∧
      after.Delivers (.ok (some byte) :: rest) ∧ after.consume.Delivers rest := by
  rcases peek_cases delivers with ⟨_, _, _, _, impossible | ⟨impossible, _⟩⟩ |
    ⟨_, _, _, _, _, impossible⟩ | ⟨_, after, _, seen, stays, consumed, same⟩
  · cases impossible
  · cases impossible
  · cases impossible
  · cases same
    exact ⟨after, seen, stays, consumed⟩

theorem peek_of_fault {reader : Reader} {fault : Fault} {rest : List Delivery}
    (delivers : reader.Delivers (.error fault :: rest)) :
    ∃ after, reader.peek = (.error fault, after) ∧ after.Delivers rest := by
  rcases peek_cases delivers with ⟨_, _, _, _, impossible | ⟨impossible, _⟩⟩ |
    ⟨_, after, _, seen, left, same⟩ | ⟨_, _, _, _, _, _, impossible⟩
  · cases impossible
  · cases impossible
  · cases same
    exact ⟨after, seen, left⟩
  · cases impossible

/-- An end is used up by looking at it, except the one after the last delivery. -/
theorem peek_of_end {reader : Reader} {deliveries : List Delivery}
    (delivers : reader.Delivers deliveries)
    (ended : deliveries = [] ∨ deliveries.head? = some (.ok none)) :
    ∃ after, reader.peek = (.ok none, after) ∧ after.Delivers deliveries.tail := by
  rcases peek_cases delivers with ⟨after, rest, seen, left, rfl | ⟨rfl, rfl⟩⟩ |
    ⟨_, _, _, _, _, rfl⟩ | ⟨_, _, _, _, _, _, rfl⟩
  · exact ⟨after, seen, left⟩
  · exact ⟨after, seen, left⟩
  · rcases ended with impossible | impossible <;> cases impossible
  · rcases ended with impossible | impossible <;> cases impossible

end Reader

/-! ## Bytes and then the end -/

/-- A device that delivers the bytes without a fault, and an end only after the last. -/
def Device.Provides (device : Device) (bytes : List UInt8) : Prop :=
  ∃ ends, device.deliveries = Delivery.ofBytes bytes ++ List.replicate ends (.ok none)

/-- Pieces that are not empty provide their bytes, however they are cut, and whatever
interruptions come between them. -/
theorem Device.provides_of_pieces {device : Device}
    (pieces : ∀ event ∈ device.events, event.isInterruption = true ∨ event.bytes ≠ []) :
    device.Provides device.bytes := by
  have single : ∀ event ∈ device.events, event.deliveries = Delivery.ofBytes event.bytes := by
    intro event member
    cases event with
    | data bytes =>
        cases bytes with
        | nil =>
            rcases pieces _ member with impossible | impossible
            · cases impossible
            · exact absurd rfl impossible
        | cons byte bytes => rfl
    | fault fault =>
        rcases pieces _ member with interrupted | impossible
        · exact if_pos interrupted
        · exact absurd rfl impossible
  refine ⟨0, ?_⟩
  rw [List.replicate_zero, List.append_nil, Device.deliveries, Device.bytes, Delivery.ofBytes,
    List.map_flatMap]
  exact List.flatMap_congr single

/-- The same for what is left to a reader. -/
def Reader.Provides (reader : Reader) (bytes : List UInt8) : Prop :=
  ∃ ends, reader.Delivers (Delivery.ofBytes bytes ++ List.replicate ends (.ok none))

namespace Reader

theorem provides_ofDevice {device : Device} {bytes : List UInt8} {capacity : Nat}
    (positive : 0 < capacity) (provides : device.Provides bytes) :
    (ofDevice device capacity).Provides bytes := by
  rcases provides with ⟨ends, same⟩
  exact ⟨ends, positive, same⟩

theorem peek_of_ends {reader : Reader} {ends : Nat}
    (delivers : reader.Delivers (List.replicate ends (.ok none))) :
    ∃ after, reader.peek = (.ok none, after) ∧ after.Provides [] := by
  have ended : List.replicate ends (.ok none) = ([] : List Delivery) ∨
      (List.replicate ends (.ok none) : List Delivery).head? = some (.ok none) := by
    cases ends with
    | zero => exact Or.inl rfl
    | succ ends => exact Or.inr rfl
  rcases peek_of_end delivers ended with ⟨after, seen, left⟩
  refine ⟨after, seen, ends - 1, ?_⟩
  rw [List.tail_replicate] at left
  exact left

end Reader

end ForwardCursor
