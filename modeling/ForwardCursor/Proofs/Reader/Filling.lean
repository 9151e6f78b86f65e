import ForwardCursor.Proofs.Reader.Deliveries

namespace ForwardCursor

/-!
# Filling the buffer

A look at a reader fills its buffer more than once.  It fills again after each
interruption, and when there are bytes at last it fills once more to show them.  Only a
filling of an empty buffer reads, so the last one does nothing, and the reads of a look
can be counted: one for each interruption and one that is not interrupted.  A look at a
buffer that holds bytes makes no read at all.

One byte after the other, a reader therefore gives its deliveries.  Nothing is assumed of
the device.  The capacity is of no account as long as there is room for a byte.
-/

namespace Device

/-- An interrupted read changes nothing but the count of the reads. -/
theorem readThrough_of_interruption (limit : Nat) {fault : Fault} (events : List Event)
    (reads : Nat) (interrupted : fault.isInterruption = true) :
    readThrough limit ⟨.fault fault :: events, reads⟩ = readThrough limit ⟨events, reads + 1⟩ := by
  have first : (Event.fault fault).isInterruption = true := interrupted
  have past : pastInterruptions ⟨.fault fault :: events, reads⟩ =
      pastInterruptions ⟨events, reads + 1⟩ := by
    rw [pastInterruptions, pastInterruptions, List.dropWhile_cons_of_pos first,
      List.takeWhile_cons_of_pos first, List.length_cons, Nat.add_assoc, Nat.add_comm 1]
  rw [readThrough, past, readThrough]

/-- Without an interruption in front there is one read. -/
theorem readThrough_of_no_interruption (limit : Nat) {event : Event} (events : List Event)
    (reads : Nat) (first : event.isInterruption = false) :
    readThrough limit ⟨event :: events, reads⟩ = read limit ⟨event :: events, reads⟩ := by
  have stays : ¬ event.isInterruption = true := ne_true_of_eq_false first
  rw [readThrough, pastInterruptions, List.dropWhile_cons_of_neg stays,
    List.takeWhile_cons_of_neg stays]
  rfl

theorem reads_readThrough (limit : Nat) (device : Device) :
    (device.readThrough limit).2.reads =
      device.reads + (1 + (device.events.takeWhile Event.isInterruption).length) := by
  rw [readThrough, read_reads, pastInterruptions, Nat.add_assoc, Nat.add_comm 1]

/-- A read that fails takes the fault off the events. -/
theorem events_of_read_error {limit : Nat} {device after : Device} {fault : Fault}
    (failed : device.read limit = (.error fault, after)) :
    device.events = .fault fault :: after.events := by
  rcases device with ⟨events, reads⟩
  cases events with
  | nil => cases failed
  | cons event events =>
      cases event with
      | data piece => cases failed
      | fault first =>
          cases failed
          rfl

end Device

namespace Reader

/-! ## One filling -/

/-- Show the buffer.  If it is empty, a read is made first. -/
def fill (reader : Reader) : Except Fault (List UInt8) × Reader :=
  match reader.buffer with
  | byte :: rest => (.ok (byte :: rest), reader)
  | [] =>
    match reader.device.read reader.capacity with
    | (.ok bytes, device) => (.ok bytes, ⟨reader.capacity, bytes, device⟩)
    | (.error fault, device) => (.error fault, ⟨reader.capacity, [], device⟩)

/-- A buffer that holds bytes is shown without a read. -/
theorem fill_of_buffer {reader : Reader} (held : reader.buffer ≠ []) :
    reader.fill = (.ok reader.buffer, reader) := by
  rcases reader with ⟨capacity, buffer, device⟩
  cases buffer with
  | nil => exact absurd rfl held
  | cons byte rest => rfl

/-- A filling that fails has taken a fault off the events. -/
theorem events_of_fill_error {reader after : Reader} {fault : Fault}
    (failed : reader.fill = (.error fault, after)) :
    reader.device.events = .fault fault :: after.device.events := by
  unfold fill at failed
  split at failed
  · cases failed
  · split at failed
    · cases failed
    · next read =>
        cases failed
        exact Device.events_of_read_error read

/-! ## Filling until there is something to show -/

/-- Fill as long as the read is interrupted.  Bytes are then shown by filling once more. -/
def fillThrough (reader : Reader) : Except Fault (List UInt8) × Reader :=
  match _ : reader.fill with
  | (.ok [], filled) => (.ok [], filled)
  | (.ok (_ :: _), filled) => filled.fill
  | (.error fault, left) =>
    if fault.isInterruption then left.fillThrough else (.error fault, left)
termination_by reader.device.events.length
decreasing_by
  rw [events_of_fill_error ‹reader.fill = _›, List.length_cons]
  exact Nat.lt_succ_self _

theorem fillThrough_of_ok {reader filled : Reader} {bytes : List UInt8}
    (filling : reader.fill = (.ok bytes, filled)) (shown : filled.buffer = bytes) :
    reader.fillThrough = (.ok bytes, filled) := by
  rw [fillThrough]
  split
  · next found => cases filling.symm.trans found; rfl
  · next found =>
      cases filling.symm.trans found
      rw [← shown]
      exact fill_of_buffer (shown ▸ List.cons_ne_nil _ _)
  · next found => cases filling.symm.trans found

theorem fillThrough_of_error {reader left : Reader} {fault : Fault}
    (filling : reader.fill = (.error fault, left)) :
    reader.fillThrough =
      if fault.isInterruption then left.fillThrough else (.error fault, left) := by
  rw [fillThrough]
  split
  · next found => cases filling.symm.trans found
  · next found => cases filling.symm.trans found
  · next found => cases filling.symm.trans found; rfl

/-- With an empty buffer the fillings read past the interruptions. -/
theorem fillThrough_of_empty (capacity : Nat) (events : List Event) (reads : Nat) :
    fillThrough ⟨capacity, [], ⟨events, reads⟩⟩ =
      match Device.readThrough capacity ⟨events, reads⟩ with
      | (.ok bytes, device) => (.ok bytes, ⟨capacity, bytes, device⟩)
      | (.error fault, device) => (.error fault, ⟨capacity, [], device⟩) := by
  induction events generalizing reads with
  | nil => exact fillThrough_of_ok rfl rfl
  | cons event events inductionHypothesis =>
      cases event with
      | data bytes =>
          rw [Device.readThrough_of_no_interruption capacity events reads rfl]
          exact fillThrough_of_ok rfl rfl
      | fault fault =>
          have failed : fill ⟨capacity, [], ⟨.fault fault :: events, reads⟩⟩ =
              (.error fault, ⟨capacity, [], ⟨events, reads + 1⟩⟩) := rfl
          rw [fillThrough_of_error failed]
          cases interrupted : fault.isInterruption with
          | true =>
              rw [if_pos rfl, inductionHypothesis,
                Device.readThrough_of_interruption capacity events reads interrupted]
          | false =>
              have first : (Event.fault fault).isInterruption = false := interrupted
              rw [if_neg Bool.false_ne_true,
                Device.readThrough_of_no_interruption capacity events reads first]
              rfl

/-- To look at a reader is to fill its buffer in this way. -/
theorem peek_eq_fillThrough (reader : Reader) :
    reader.peek = (reader.fillThrough.1.map List.head?, reader.fillThrough.2) := by
  rcases reader with ⟨capacity, buffer, device⟩
  cases buffer with
  | cons byte rest =>
      have shown : fillThrough ⟨capacity, byte :: rest, device⟩ =
          (.ok (byte :: rest), ⟨capacity, byte :: rest, device⟩) := fillThrough_of_ok rfl rfl
      rw [shown]
      rfl
  | nil =>
      rw [fillThrough_of_empty, peek_of_empty rfl]
      rcases device.readThrough capacity with ⟨answer, after⟩
      cases answer <;> rfl

/-! ## Requests -/

/-- Taking a byte out of the buffer is nothing to the device. -/
theorem device_pull (reader : Reader) : (Source.pull reader).2.device = reader.peek.2.device := by
  simp only [Source.pull]
  split
  · next seen => rw [seen]; rfl
  · rfl

theorem device_pull_of_buffer {reader : Reader} (held : reader.buffer ≠ []) :
    (Source.pull reader).2.device = reader.device := by
  rcases List.exists_cons_of_ne_nil held with ⟨byte, rest, same⟩
  rw [device_pull, peek_of_buffer same]

theorem reads_pull_of_empty {reader : Reader} (empty : reader.buffer = []) :
    (Source.pull reader).2.device.reads =
      reader.device.reads + (1 + (reader.device.events.takeWhile Event.isInterruption).length) := by
  rw [device_pull, peek_of_empty empty, ← Device.reads_readThrough reader.capacity]
  rcases reader.device.readThrough reader.capacity with ⟨answer, after⟩
  cases answer <;> rfl

/-- A request gives the first delivery and uses it up.  After the last one there is nothing. -/
theorem pull_delivers {reader : Reader} {deliveries : List Delivery}
    (delivers : reader.Delivers deliveries) :
    ∃ after, Source.pull reader = (deliveries.head?.getD (.ok none), after) ∧
      after.Delivers deliveries.tail := by
  rcases peek_cases delivers with ⟨after, rest, seen, left, rfl | ⟨rfl, rfl⟩⟩ |
    ⟨fault, after, rest, seen, left, rfl⟩ | ⟨byte, after, rest, seen, _, left, rfl⟩
  · exact ⟨after, by simp only [Source.pull, seen]; rfl, left⟩
  · exact ⟨after, by simp only [Source.pull, seen]; rfl, left⟩
  · exact ⟨after, by simp only [Source.pull, seen]; rfl, left⟩
  · exact ⟨after.consume, pull_eq_of_peek_some seen, left⟩

theorem pulls_delivers (count : Nat) {reader : Reader} {deliveries : List Delivery}
    (delivers : reader.Delivers deliveries) :
    (Source.pulls count reader).1 = deliveries.takeD count (.ok none) := by
  induction count generalizing reader deliveries with
  | zero => rfl
  | succ count inductionHypothesis =>
      rcases pull_delivers delivers with ⟨after, pulled, left⟩
      rw [Source.pulls_succ, pulled, inductionHypothesis left, List.takeD_succ]

end Reader

/-- An interruption is not delivered. -/
theorem Event.isInterruption_of_delivered {event : Event} {fault : Fault}
    (delivered : .error fault ∈ event.deliveries) : fault.isInterruption = false := by
  match event with
  | .data [] => cases List.mem_singleton.mp delivered
  | .data (byte :: bytes) =>
      rcases List.mem_map.mp delivered with ⟨_, _, impossible⟩
      cases impossible
  | .fault failed =>
      cases interrupted : failed.isInterruption with
      | true =>
          rw [deliveries, if_pos interrupted] at delivered
          cases delivered
      | false =>
          rw [deliveries, interrupted, if_neg Bool.false_ne_true] at delivered
          cases List.mem_singleton.mp delivered
          exact interrupted

namespace Reader

/-- What is padded with ends of the data has no other faults. -/
theorem mem_of_mem_takeD {count : Nat} {deliveries : List Delivery} {fault : Fault}
    (member : .error fault ∈ deliveries.takeD count (.ok none)) : .error fault ∈ deliveries := by
  induction count generalizing deliveries with
  | zero => cases member
  | succ count inductionHypothesis =>
      rw [List.takeD_succ] at member
      cases deliveries with
      | nil =>
          rcases List.mem_cons.mp member with impossible | later
          · cases impossible
          · exact inductionHypothesis later
      | cons delivery deliveries =>
          rcases List.mem_cons.mp member with same | later
          · exact same ▸ List.mem_cons_self
          · exact List.mem_cons_of_mem _ (inductionHypothesis later)

/-- The requests of a reader are answered with what the events deliver, in order: the bytes of
the pieces, an end for each piece without bytes, and the faults except interruptions.  After
the last event they are answered with ends.  A request reads only if the buffer is empty, and
then once for each interruption that comes first and once more.  It is a single look through
the buffer, which fills it until a read is not interrupted. -/
theorem pulls_eq_deliveries (device : Device) {capacity : Nat} (positive : 0 < capacity)
    (count : Nat) :
    let start := Reader.ofDevice device capacity
    let reader := (Source.pulls count start).2
    (Source.pulls count start).1 =
        (device.events.flatMap Event.deliveries).takeD count (.ok none) ∧
      (∀ fault, .error fault ∈ (Source.pulls count start).1 → fault.isInterruption = false) ∧
      (reader.buffer ≠ [] → (Source.pull reader).2.device = reader.device) ∧
      (reader.buffer = [] → (Source.pull reader).2.device.reads =
        reader.device.reads +
          (1 + (reader.device.events.takeWhile Event.isInterruption).length)) ∧
      reader.peek = (reader.fillThrough.1.map List.head?, reader.fillThrough.2) := by
  intro start reader
  have answers : (Source.pulls count start).1 = device.deliveries.takeD count (.ok none) :=
    pulls_delivers count (delivers_ofDevice positive device)
  refine ⟨answers, ?_, device_pull_of_buffer, reads_pull_of_empty, peek_eq_fillThrough reader⟩
  intro fault reported
  rw [answers] at reported
  rcases List.mem_flatMap.mp (mem_of_mem_takeD reported) with ⟨event, _, delivered⟩
  exact Event.isInterruption_of_delivered delivered

/-- Interruptions in a row, a piece that fills the buffer twice, a piece without bytes, and a
fault. -/
def unsteady : Device :=
  ⟨[.fault ⟨.interrupted, .standard⟩, .fault ⟨.interrupted, .message "again"⟩,
    .data [0x41, 0x42, 0x43], .fault ⟨.interrupted, .standard⟩, .data [],
    .fault ⟨.timedOut, .standard⟩, .data [0x44]], 0⟩

theorem pulls_eq_deliveries_unsteady :
    0 < 2 ∧
      (Source.pulls 7 (Reader.ofDevice unsteady 2)).1 =
        [.ok (some 0x41), .ok (some 0x42), .ok (some 0x43), .ok none,
          .error ⟨.timedOut, .standard⟩, .ok (some 0x44), .ok none] ∧
      (Source.pull (Source.pulls 1 (Reader.ofDevice unsteady 2)).2).2.device.reads = 3 ∧
      (Source.pull (Source.pulls 3 (Reader.ofDevice unsteady 2)).2).2.device.reads = 6 := by
  have positive : 0 < 2 := by decide
  have held : (Source.pulls 1 (Reader.ofDevice unsteady 2)).2.buffer ≠ [] := by decide
  have empty : (Source.pulls 3 (Reader.ofDevice unsteady 2)).2.buffer = [] := by decide
  rcases pulls_eq_deliveries unsteady positive 1 with ⟨_, _, still, _, _⟩
  rcases pulls_eq_deliveries unsteady positive 3 with ⟨_, _, _, counted, _⟩
  refine ⟨positive, (pulls_eq_deliveries unsteady positive 7).1, ?_, ?_⟩
  · rw [still held]
    rfl
  · rw [counted empty]
    rfl

end Reader
end ForwardCursor
