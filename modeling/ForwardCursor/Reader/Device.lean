import ForwardCursor.Reader.Fault

namespace ForwardCursor

/-!
# Devices

A device delivers bytes read by read.  What it will do is a list of events: pieces of
data and faults.  A read states the largest number of bytes that it has room for.
A piece that is longer is delivered in part, and the rest of it is the next event.

An empty piece is a read of no bytes, which means the end of the data to whoever
asks, although events may follow it.  After the last event every read is of this
kind.  All reads are counted, whatever comes of them.
-/

/-- One thing that a device will do. -/
inductive Event where
  | data (bytes : List UInt8)
  | fault (fault : Fault)
  deriving DecidableEq

namespace Event

def isInterruption : Event → Bool
  | .data _ => false
  | .fault failed => failed.isInterruption

/-- The bytes that an event delivers. -/
def bytes : Event → List UInt8
  | .data bytes => bytes
  | .fault _ => []

end Event

/-- The events still to come and the number of reads made so far. -/
structure Device where
  events : List Event
  reads : Nat := 0
  deriving DecidableEq

namespace Device

/-- Read at most `limit` bytes. -/
def read (limit : Nat) (device : Device) : Except Fault (List UInt8) × Device :=
  match device.events with
  | [] => (.ok [], ⟨[], device.reads + 1⟩)
  | .fault fault :: events => (.error fault, ⟨events, device.reads + 1⟩)
  | .data bytes :: events =>
    let rest := bytes.drop limit
    (.ok (bytes.take limit),
      ⟨if rest.isEmpty then events else .data rest :: events, device.reads + 1⟩)

/-- The device after the interrupted reads that come first. -/
def pastInterruptions (device : Device) : Device where
  events := device.events.dropWhile Event.isInterruption
  reads := device.reads + (device.events.takeWhile Event.isInterruption).length

/-- Read at most `limit` bytes, and again as long as the read is interrupted. -/
def readThrough (limit : Nat) (device : Device) : Except Fault (List UInt8) × Device :=
  device.pastInterruptions.read limit

/-- All bytes that the device has yet to deliver. -/
def bytes (device : Device) : List UInt8 := device.events.flatMap Event.bytes

/-! ## No byte is lost or invented -/

theorem read_reads (limit : Nat) (device : Device) :
    (device.read limit).2.reads = device.reads + 1 := by
  unfold read
  split <;> rfl

theorem bytes_of_read_ok {limit : Nat} {device after : Device} {bytes : List UInt8}
    (delivered : device.read limit = (.ok bytes, after)) :
    bytes ++ after.bytes = device.bytes := by
  rcases device with ⟨events, reads⟩
  cases events with
  | nil => cases delivered; rfl
  | cons event events =>
      cases event with
      | fault failed => cases delivered
      | data piece =>
          cases delivered
          have whole := List.take_append_drop limit piece
          cases rest : piece.drop limit with
          | nil =>
              rw [rest, List.append_nil] at whole
              simp [Device.bytes, Event.bytes, whole]
          | cons byte rest' =>
              rw [rest] at whole
              simp only [Device.bytes, List.isEmpty_cons, List.flatMap_cons, Event.bytes,
                ← List.append_assoc, whole, Bool.false_eq_true, if_false]

theorem bytes_of_read_error {limit : Nat} {device after : Device} {fault : Fault}
    (failed : device.read limit = (.error fault, after)) :
    after.bytes = device.bytes := by
  rcases device with ⟨events, reads⟩
  cases events with
  | nil => cases failed
  | cons event events =>
      cases event with
      | data piece => cases failed
      | fault first => cases failed; rfl

/-- An interrupted read delivers nothing. -/
theorem bytes_pastInterruptions (device : Device) :
    device.pastInterruptions.bytes = device.bytes := by
  rcases device with ⟨events, reads⟩
  induction events generalizing reads with
  | nil => rfl
  | cons event events inductionHypothesis =>
      cases interrupted : event.isInterruption with
      | false => simp [pastInterruptions, interrupted, Device.bytes]
      | true =>
          cases event with
          | data bytes => cases interrupted
          | fault fault =>
              have rest := inductionHypothesis reads
              simpa [pastInterruptions, interrupted, Device.bytes, Event.bytes] using rest

end Device

end ForwardCursor
