import ForwardCursor.Source.Sequence
import ForwardCursor.Source.Script
import ForwardCursor.Text.Decoded
import ForwardCursor.Proofs.Cursor.Boundary
import ForwardCursor.Proofs.Cursor.Traversal
import ForwardCursor.Proofs.Cursor.IndexedList
import ForwardCursor.Proofs.Cursor.Accounting
import ForwardCursor.Proofs.Cursor.Finite
import ForwardCursor.Proofs.Text.Operation
import ForwardCursor.Proofs.Text.Accounting
import ForwardCursor.Proofs.Text.Pieces
import ForwardCursor.Proofs.Text.Lines
import ForwardCursor.Proofs.Text.Boundary
import ForwardCursor.Proofs.Text.Alignment
import ForwardCursor.Proofs.Utf8.Stability
import ForwardCursor.Proofs.Utf8.Encoding
import ForwardCursor.Proofs.Utf8.Viable
import ForwardCursor.Proofs.Utf8.Parts
import ForwardCursor.Proofs.Reader.Filling
import ForwardCursor.Proofs.Reader.Faults
import ForwardCursor.Proofs.Decoder.Front
import ForwardCursor.Proofs.Decoder.Chunking
import ForwardCursor.Proofs.Decoder.Segmentation
import ForwardCursor.Proofs.Decoder.Accounting
import ForwardCursor.Proofs.Decoder.RoundTrip
import ForwardCursor.Proofs.Decoder.Faults
import ForwardCursor.Proofs.Decoder.Policies
import ForwardCursor.Proofs.Cursor.Abreast
import ForwardCursor.Proofs.Text.Session
import ForwardCursor.Proofs.Text.Counterpart
import ForwardCursor.Proofs.Text.Failing
import ForwardCursor.Proofs.Text.Decoded
import ForwardCursor.Proofs.Source.Turns
import ForwardCursor.Proofs.Cursor.Failing
import ForwardCursor.Proofs.Decoder.Boundary
import ForwardCursor.Proofs.Decoder.Reads
import ForwardCursor.Proofs.Cursor.Retrying
import ForwardCursor.Proofs.Text.Recovery
import ForwardCursor.Proofs.Text.Written
import ForwardCursor.Proofs.Utf8.FailureText
import ForwardCursor.Proofs.Text.Counting
import ForwardCursor.Proofs.Text.Nesting
