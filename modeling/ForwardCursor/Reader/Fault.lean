import ForwardCursor.Utf8.Malformed

namespace ForwardCursor

/-!
# Faults of a device

A device that is read can fail for reasons of its own.  A fault has a kind, which
programs act upon, and a text, which people read.  The text is the standard one of
the kind unless the fault brings a message or a malformed sequence with it.

One kind is special: an interrupted read has lost nothing and can simply be made
again.
-/

/-- What went wrong with a read. -/
inductive FaultKind where
  | other
  | interrupted
  | unexpectedEof
  | wouldBlock
  | timedOut
  | connectionReset
  | brokenPipe
  | permissionDenied
  | notFound
  | invalidData
  deriving DecidableEq

/-- The standard text of a kind. -/
def FaultKind.text : FaultKind → String
  | .other => "other error"
  | .interrupted => "operation interrupted"
  | .unexpectedEof => "unexpected end of file"
  | .wouldBlock => "operation would block"
  | .timedOut => "timed out"
  | .connectionReset => "connection reset"
  | .brokenPipe => "broken pipe"
  | .permissionDenied => "permission denied"
  | .notFound => "entity not found"
  | .invalidData => "invalid data"

/-- What a fault says beyond its kind. -/
inductive FaultDetail where
  | standard
  | message (text : String)
  | malformed (sequence : Malformed)
  deriving DecidableEq

/-- A failed read. -/
structure Fault where
  kind : FaultKind
  detail : FaultDetail
  deriving DecidableEq

namespace Fault

def text (fault : Fault) : String :=
  match fault.detail with
  | .standard => fault.kind.text
  | .message text => text
  | .malformed sequence => sequence.text

/-- Whether the failed read can be made again as if nothing had happened. -/
def isInterruption (fault : Fault) : Bool := fault.kind == .interrupted

/-- The malformed sequence that a fault brings with it. -/
def malformed? (fault : Fault) : Option Malformed :=
  match fault.detail with
  | .malformed sequence => some sequence
  | _ => none

end Fault

end ForwardCursor
