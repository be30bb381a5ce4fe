import BitStore.BitArray.Container

namespace BitStore

/-!
# Loose arrays

A loose array is a byte list with a capacity that need not fit it.  No index
is checked.  A loose array may also be sealed off, and then neither a bit nor
a snapshot can be read.  It has the required operations of a bit array and
nothing of its own beside them.
-/

/-- Bytes under a capacity that need not fit them.  Reading them may be refused. -/
structure LooseArray where
  capacity : Nat
  bytes : Bytes
  refuses : Bool
  deriving DecidableEq, Repr

namespace LooseArray

/-- The fault of every read of an array that is sealed off. -/
def refusal : Fault :=
  .unsupported "foreign storage"

def getBit (array : LooseArray) (index : Nat) : Except Fault Bool :=
  if array.refuses then .error refusal else .ok (array.bytes.bit index)

/-- The array with one bit set; nothing changes past the end. -/
def raise (array : LooseArray) (index : Nat) : LooseArray :=
  { array with
    bytes := array.bytes.update (index / 8) fun byte => byte ||| Byte.single (index % 8) }

def snapshot (array : LooseArray) : Except Fault Bytes :=
  if array.refuses then .error refusal else .ok array.bytes

instance : BitContainer LooseArray where
  capacity := capacity
  byteLength array := array.bytes.length
  getBit array index := getBit array index
  setBit array index := return (true, array.raise index)
  snapshot array := array.snapshot

end LooseArray
end BitStore
