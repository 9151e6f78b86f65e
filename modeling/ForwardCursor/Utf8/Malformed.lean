namespace ForwardCursor

/-!
# Malformed sequences

A malformed sequence is reported with its bytes and with the number of bytes that
were decoded before it.  Its text gives both: the offset in decimal, and each byte as
`0x` with exactly two lowercase hexadecimal digits.
-/

/-- The two lowercase hexadecimal digits of a byte. -/
def hexDigits (byte : UInt8) : List Char :=
  [Nat.digitChar (byte.toNat / 16), Nat.digitChar (byte.toNat % 16)]

/-- A cause of failure with the offset of the byte where it happened. -/
def locatedText (offset : Nat) (cause : String) : String :=
  "byte " ++ Nat.repr offset ++ " - " ++ cause ++ "."

/-- A sequence of bytes that is not UTF-8, at an offset in its stream. -/
structure Malformed where
  bytes : List UInt8
  offset : Nat
  deriving DecidableEq

namespace Malformed

/-- The bytes, each after a blank. -/
def byteList (bytes : List UInt8) : List Char :=
  bytes.flatMap fun byte => ' ' :: '0' :: 'x' :: hexDigits byte

/-- The text of the sequence without its offset. -/
def causeText (malformed : Malformed) : String :=
  "invalid utf-8 sequence:" ++ String.ofList (byteList malformed.bytes)

/-- The text of the sequence with its offset. -/
def text (malformed : Malformed) : String :=
  locatedText malformed.offset malformed.causeText

theorem byteList_cons (byte : UInt8) (bytes : List UInt8) :
    byteList (byte :: bytes) = ' ' :: '0' :: 'x' :: (hexDigits byte ++ byteList bytes) := rfl

end Malformed

end ForwardCursor
