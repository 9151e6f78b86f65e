import ForwardCursor.Reader.Device
import ForwardCursor.Source.Basic

namespace ForwardCursor

/-!
# Buffered readers

A reader holds the bytes that its device has delivered and nobody has consumed.  It
turns to the device only when it holds none, and one read then fills the buffer anew,
up to its capacity.  Interrupted reads are made again; any other fault, and a read of
no bytes, leave the buffer empty.

A read of no bytes is taken for the end of the data, but it is not remembered: the
next look at an empty buffer reads again.

As a source, a reader gives its bytes one at a time and fails with the faults of its
device.
-/

/-- A device behind a buffer. -/
structure Reader where
  capacity : Nat
  buffer : List UInt8
  device : Device
  deriving DecidableEq

namespace Reader

/-- The capacity of a buffer for which none is stated. -/
def defaultCapacity : Nat := 4096

/-- A reader over a device, of which nothing has been read yet. -/
def ofDevice (device : Device) (capacity : Nat := defaultCapacity) : Reader :=
  ⟨capacity, [], device⟩

/-- A reader that has all its data in the buffer from the start. -/
def ofBytes (bytes : List UInt8) : Reader := ⟨bytes.length, bytes, ⟨[], 0⟩⟩

/-- Look at the next byte, which is not consumed, or find that there is none. -/
def peek (reader : Reader) : Except Fault (Option UInt8) × Reader :=
  match reader.buffer with
  | byte :: _ => (.ok (some byte), reader)
  | [] =>
    match reader.device.readThrough reader.capacity with
    | (.ok bytes, device) => (.ok bytes.head?, ⟨reader.capacity, bytes, device⟩)
    | (.error fault, device) => (.error fault, ⟨reader.capacity, [], device⟩)

/-- Drop the first bytes of the buffer. -/
def consume (reader : Reader) (count : Nat := 1) : Reader :=
  { reader with buffer := reader.buffer.drop count }

/-- All bytes that have not been consumed: those in the buffer, then those that the
device has yet to deliver. -/
def bytes (reader : Reader) : List UInt8 := reader.buffer ++ reader.device.bytes

instance : Source Reader Fault UInt8 where
  pull reader :=
    match reader.peek with
    | (.ok (some byte), reader) => (.ok (some byte), reader.consume)
    | other => other

/-! ## What looking and consuming do to the bytes -/

theorem peek_of_buffer {reader : Reader} {byte : UInt8} {rest : List UInt8}
    (held : reader.buffer = byte :: rest) :
    reader.peek = (.ok (some byte), reader) := by
  simp only [peek, held]

/-- Looking consumes nothing, whether it finds a byte, an end or a fault. -/
theorem bytes_peek (reader : Reader) : reader.peek.2.bytes = reader.bytes := by
  rcases reader with ⟨capacity, buffer, device⟩
  cases buffer with
  | cons byte rest => rfl
  | nil =>
      have kept := device.bytes_pastInterruptions
      simp only [peek, Device.readThrough]
      split
      · next bytes after delivered =>
          have whole := Device.bytes_of_read_ok delivered
          exact whole.trans kept
      · next fault after failed =>
          have whole := Device.bytes_of_read_error failed
          exact whole.trans kept

/-- The byte that was seen is the first one in the buffer that is left. -/
theorem buffer_of_peek_some {reader after : Reader} {byte : UInt8}
    (seen : reader.peek = (.ok (some byte), after)) :
    ∃ rest, after.buffer = byte :: rest := by
  unfold peek at seen
  split at seen
  · next rest held =>
      cases seen
      exact ⟨rest, held⟩
  · split at seen
    · next bytes device _ =>
        cases bytes with
        | nil => cases seen
        | cons first rest =>
            cases seen
            exact ⟨rest, rfl⟩
    · cases seen

/-- Consuming the byte that was seen leaves the bytes after it. -/
theorem bytes_consume_of_peek_some {reader after : Reader} {byte : UInt8}
    (seen : reader.peek = (.ok (some byte), after)) :
    reader.bytes = byte :: after.consume.bytes := by
  rcases buffer_of_peek_some seen with ⟨rest, held⟩
  have kept := reader.bytes_peek
  rw [seen] at kept
  rw [← kept]
  simp only [bytes, consume, held, List.drop_one, List.tail_cons, List.cons_append]

/-- Bytes can be consumed in two lots. -/
theorem consume_consume (reader : Reader) (first second : Nat) :
    (reader.consume first).consume second = reader.consume (first + second) := by
  simp only [consume, List.drop_drop]

/-- The number of bytes left bounds how often bytes can be consumed. -/
theorem length_consume_lt {reader after : Reader} {byte : UInt8} {count : Nat}
    (seen : reader.peek = (.ok (some byte), after)) (positive : 0 < count) :
    (after.consume count).bytes.length < reader.bytes.length := by
  rcases buffer_of_peek_some seen with ⟨rest, held⟩
  have kept := reader.bytes_peek
  rw [seen] at kept
  rw [← kept]
  simp only [bytes, consume, held, List.length_append, List.length_drop, List.length_cons]
  omega

theorem pull_eq_of_peek_some {reader after : Reader} {byte : UInt8}
    (seen : reader.peek = (.ok (some byte), after)) :
    Source.pull reader = (.ok (some byte), after.consume) := by
  simp only [Source.pull, seen]

end Reader

end ForwardCursor
