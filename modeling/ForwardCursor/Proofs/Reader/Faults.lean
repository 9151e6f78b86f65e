import ForwardCursor.Proofs.Reader.Deliveries

namespace ForwardCursor

/-!
# Faults among the bytes

The faults of a device stand between its bytes.  They can be listed by themselves, in
the order in which reads will return them, and they can be left out, which changes
neither the bytes nor the ends between them.

An interruption is not listed.  It is made again by the reader, and nobody behind the
reader is told of it.
-/

namespace Delivery

def fault? : Delivery → Option Fault
  | .ok _ => none
  | .error fault => some fault

/-- The faults among some deliveries, in order. -/
def faults (deliveries : List Delivery) : List Fault := deliveries.filterMap fault?

/-- The bytes and ends among some deliveries, in order. -/
def faultless (deliveries : List Delivery) : List Delivery :=
  deliveries.filter fun delivery => (fault? delivery).isNone

theorem faults_ok_cons (seen : Option UInt8) (deliveries : List Delivery) :
    faults (.ok seen :: deliveries) = faults deliveries := rfl

theorem faults_error_cons (fault : Fault) (deliveries : List Delivery) :
    faults (.error fault :: deliveries) = fault :: faults deliveries := rfl

theorem faults_ofBytes (bytes : List UInt8) : faults (ofBytes bytes) = [] := by
  induction bytes with
  | nil => rfl
  | cons byte bytes inductionHypothesis => exact inductionHypothesis

theorem faultless_ofBytes (bytes : List UInt8) : faultless (ofBytes bytes) = ofBytes bytes := by
  induction bytes with
  | nil => rfl
  | cons byte bytes inductionHypothesis =>
      exact congrArg (Except.ok (some byte) :: ·) inductionHypothesis

end Delivery

namespace Event

/-- The fault that a read is to return, unless it is an interruption. -/
def fault? : Event → Option Fault
  | .data _ => none
  | .fault failed => if failed.isInterruption then none else some failed

def isData : Event → Bool
  | .data _ => true
  | .fault _ => false

theorem faults_deliveries (event : Event) :
    Delivery.faults event.deliveries = event.fault?.toList := by
  match event with
  | .data [] => rfl
  | .data (byte :: bytes) => exact Delivery.faults_ofBytes (byte :: bytes)
  | .fault failed =>
      simp only [deliveries, fault?]
      split <;> rfl

theorem faultless_deliveries (event : Event) :
    Delivery.faultless event.deliveries = if event.isData then event.deliveries else [] := by
  match event with
  | .data [] => rfl
  | .data (byte :: bytes) => exact Delivery.faultless_ofBytes (byte :: bytes)
  | .fault failed =>
      simp only [deliveries, isData]
      split <;> rfl

end Event

namespace Device

/-- The faults that are yet to be returned by reads, except interruptions. -/
def faults (device : Device) : List Fault := device.events.filterMap Event.fault?

/-- The device that does the same without any fault. -/
def withoutFaults (device : Device) : Device :=
  { device with events := device.events.filter Event.isData }

theorem faults_deliveries (device : Device) :
    Delivery.faults device.deliveries = device.faults := by
  rw [Delivery.faults, deliveries, List.filterMap_flatMap, faults, List.filterMap_eq_flatMap_toList]
  exact List.flatMap_congr fun event _ => event.faults_deliveries

theorem deliveries_withoutFaults (device : Device) :
    device.withoutFaults.deliveries = Delivery.faultless device.deliveries := by
  rcases device with ⟨events, reads⟩
  rw [deliveries, Delivery.faultless, deliveries, List.filter_flatMap, withoutFaults]
  induction events with
  | nil => rfl
  | cons event events inductionHypothesis =>
      have first := event.faultless_deliveries
      rw [Delivery.faultless] at first
      rw [List.filter_cons, List.flatMap_cons, first, ← inductionHypothesis]
      split <;> rfl

end Device

/-- Bytes in the buffer are no faults. -/
theorem Reader.faults_deliveries (reader : Reader) :
    Delivery.faults reader.deliveries = reader.device.faults := by
  rw [Reader.deliveries, Delivery.faults, List.filterMap_append, ← Device.faults_deliveries]
  exact congrArg (· ++ Delivery.faults reader.device.deliveries) (Delivery.faults_ofBytes reader.buffer)

end ForwardCursor
