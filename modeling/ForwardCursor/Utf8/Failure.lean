import ForwardCursor.Reader.Fault

namespace ForwardCursor

/-!
# Failures of decoding

Reading characters fails for one of two causes: the reader failed, or its bytes are
not UTF-8.  Both are reported with the number of bytes that were decoded before.

A program that knows only faults can be given a failure as a fault.  A failed read is
then the fault it was.  A malformed sequence becomes a fault of invalid data that
keeps the sequence and its offset.
-/

/-- Why no character could be given. -/
inductive Failure where
  | read (fault : Fault) (offset : Nat)
  | malformed (sequence : Malformed)
  deriving DecidableEq

namespace Failure

/-- The number of bytes decoded before the failure. -/
def offset : Failure → Nat
  | .read _ offset => offset
  | .malformed sequence => sequence.offset

/-- The fault of the reader, if it is the cause. -/
def fault? : Failure → Option Fault
  | .read fault _ => some fault
  | .malformed _ => none

/-- The text of the cause, without the offset. -/
def causeText : Failure → String
  | .read fault _ => "read failed: " ++ fault.text
  | .malformed sequence => sequence.causeText

/-- The text of the failure, with the offset. -/
def text (failure : Failure) : String := locatedText failure.offset failure.causeText

/-- The failure as a fault. -/
def toFault : Failure → Fault
  | .read fault _ => fault
  | .malformed sequence => ⟨.invalidData, .malformed sequence⟩

/-- A malformed sequence reads the same as a failure and as a fault. -/
theorem text_toFault_malformed (sequence : Malformed) :
    (malformed sequence).toFault.text = (malformed sequence).text := rfl

theorem malformed?_toFault_malformed (sequence : Malformed) :
    (malformed sequence).toFault.malformed? = some sequence := rfl

end Failure

end ForwardCursor
