import ForwardCursor.Text.Line
import ForwardCursor.Utf8.Decoder

namespace ForwardCursor
namespace TextCursor

/-!
# Text cursors over devices

The usual way to read text from a device: through a buffer of the default capacity,
and with malformed sequences reported as failures.
-/

/-- Start a text cursor over the characters of a device.  This fails if the first read
does, or if the data starts with a malformed sequence. -/
def ofDevice (device : Device) : Except (Failure × Decoder) (TextCursor Decoder) :=
  ofSource { reader := Reader.ofDevice device : Decoder }

end TextCursor
end ForwardCursor
