import BitStore.Bits.Count
import BitStore.Fault.Basic

namespace BitStore
namespace Bytes

/-!
# Big-endian 64-bit words in a buffer

A word occupies eight bytes, most significant byte first.  The end of the
window is computed without wrapping around: a window whose end does not fit in
64 bits is refused like one that ends behind the buffer.
-/

/-- The end of the eight-byte window at an offset, if it lies in the buffer. -/
def wordWindow (bytes : Bytes) (offset : Nat) : Except Fault Nat :=
  if 1 <<< 64 ≤ offset + 8 then
    .error (.indexOutOfRange offset bytes.length)
  else if bytes.length < offset + 8 then
    .error (.indexOutOfRange (offset + 7) (bytes.length - 1))
  else
    .ok (offset + 8)

/-- The eight bytes of a word, most significant first. -/
def ofWord (word : UInt64) : Bytes :=
  ([56, 48, 40, 32, 24, 16, 8, 0] : List UInt64).map fun shift =>
    (word >>> shift).toUInt8

/-- The word at an offset. -/
def readWord (bytes : Bytes) (offset : Nat) : Except Fault UInt64 := do
  let stop ← bytes.wordWindow offset
  return UInt64.ofNat (ByteOrder.big.value ((bytes.take stop).drop offset))

/-- The buffer with a word stored at an offset. -/
def writeWord (bytes : Bytes) (offset : Nat) (word : UInt64) : Except Fault Bytes := do
  let stop ← bytes.wordWindow offset
  return bytes.take offset ++ ofWord word ++ bytes.drop stop

end Bytes
end BitStore
