import BitStore.BitArray.Container
import BitStore.Layout
import BitStore.Merge

namespace BitStore

/-!
# Bit arrays in memory

The bytes are part of the value, and their number is fixed by the layout.  No
operation can fail but for its arguments, and closing has no effect.
-/

/-- A bit array whose bytes are kept in memory. -/
structure MemoryArray where
  layout : Layout
  bytes : Array UInt8
  size_eq : bytes.size = layout.byteLength
  deriving DecidableEq, Repr

namespace MemoryArray

/-- A new array with no bit set. -/
def ofCapacity (capacity : Nat) : Except Fault MemoryArray := do
  let layout ← Layout.ofCapacity capacity
  return {
    layout := layout
    bytes := Array.replicate layout.byteLength 0
    size_eq := by simp }

/-- An array over given bytes, which must be as many as the capacity needs. -/
def ofBytes (bytes : Bytes) (capacity : Nat) : Except Fault MemoryArray := do
  let layout ← Layout.ofCapacity capacity
  if fits : bytes.toArray.size = layout.byteLength then
    return { layout := layout, bytes := bytes.toArray, size_eq := fits }
  else
    throw (.invalidArgument "bytes" "bits.len() == layout.byte_len()")

def toBytes (array : MemoryArray) : Bytes :=
  array.bytes.toList

def modifyByte (array : MemoryArray) (index : Nat) (change : UInt8 -> UInt8) :
    MemoryArray where
  layout := array.layout
  bytes := array.bytes.modify index change
  size_eq := by simp [array.size_eq]

def clear (array : MemoryArray) : MemoryArray where
  layout := array.layout
  bytes := Array.replicate array.layout.byteLength 0
  size_eq := by simp

/-- The array with other bytes merged into its own. -/
def combine (array : MemoryArray) (merge : Merge) (operand : Bytes) : MemoryArray where
  layout := array.layout
  bytes := (merge.apply array.toBytes operand).toArray
  size_eq := by simp [toBytes, array.size_eq]

def getBit (array : MemoryArray) (index : Nat) : Except Fault Bool := do
  let address ← array.layout.locate index
  return address.test (array.bytes[address.byte]?.getD 0)

/-- The array with one bit changed, if its index is in range; otherwise the
array as it is, with the fault. -/
def changeBit (array : MemoryArray) (index : Nat)
    (change : BitAddress -> UInt8 -> UInt8) : Except Fault Unit × MemoryArray :=
  match array.layout.locate index with
  | .ok address => (.ok (), array.modifyByte address.byte (change address))
  | .error fault => (.error fault, array)

def setBit (array : MemoryArray) (index : Nat) : Except Fault MemoryArray := do
  let (outcome, array) := array.changeBit index BitAddress.raise
  outcome
  return array

def merge {β : Type} [BitContainer β] (array : MemoryArray) (merge : Merge)
    (operand : β) : ArrayM MemoryArray := do
  array.layout.requireOperand (BitContainer.byteLength operand)
  let bytes ← BitContainer.snapshot operand
  return array.combine merge bytes

instance : BitContainer MemoryArray where
  capacity array := array.layout.capacity
  byteLength array := array.layout.byteLength
  getBit array index := array.getBit index
  setBit array index := return (true, ← array.setBit index)
  snapshot array := return array.toBytes

/-! ## Searches on the bytes themselves -/

def highest? (array : MemoryArray) : Option Nat :=
  array.toBytes.highest?

def lowest? (array : MemoryArray) : Option Nat :=
  array.toBytes.lowest?

/-- The least set position that is at least `first` and below the capacity. -/
def next? (array : MemoryArray) (first : Nat) : Option Nat :=
  array.toBytes.next? first array.layout.lastSearchable

def count (array : MemoryArray) : Nat :=
  array.toBytes.count

def describe (array : MemoryArray) : String :=
  s!"InMemoryBitArray \x7b capacity: {array.layout.capacity}, " ++
    s!"byte_len: {array.layout.byteLength} \x7d"

end MemoryArray
end BitStore
