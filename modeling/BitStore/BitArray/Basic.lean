import BitStore.BitArray.File
import BitStore.BitArray.Mapped
import BitStore.BitArray.Memory

namespace BitStore

/-!
# Bit arrays over any storage

A `BitArray` is an array in memory, in a file or in a mapping.  What it offers
is the same in all three; an array in memory and one in a mapping search their
bytes in place, while an array in a file takes the derived searches.
-/

/-- A bit array, by the storage of its bytes. -/
inductive BitArray where
  | memory (array : MemoryArray)
  | file (array : FileArray)
  | mapped (array : MappedArray)
  deriving DecidableEq, Repr

namespace BitArray

/-- The layout, which no operation changes. -/
def layout : BitArray -> Layout
  | .memory array => array.layout
  | .file array => array.layout
  | .mapped array => array.layout

def getBit : BitArray -> Nat -> ArrayM Bool
  | .memory array, index => array.getBit index
  | .file array, index => array.getBit index
  | .mapped array, index => array.getBit index

/-- Change one bit, and say whether that succeeded; a change that fails leaves
the array as it was. -/
def changeBit (change : BitAddress -> UInt8 -> UInt8) (index : Nat) :
    BitArray -> StateM Host (Except Fault Unit × BitArray)
  | .memory array =>
      let (outcome, array) := array.changeBit index change
      return (outcome, .memory array)
  | .file array => return (← (array.changeBit index change).run, .file array)
  | .mapped array => return (← (array.changeBit index change).run, .mapped array)

def setBit (array : BitArray) (index : Nat) : ArrayM BitArray := do
  let (outcome, array) ← array.changeBit BitAddress.raise index
  outcome
  return array

def clearBit (array : BitArray) (index : Nat) : ArrayM BitArray := do
  let (outcome, array) ← array.changeBit BitAddress.lower index
  outcome
  return array

def clear : BitArray -> ArrayM BitArray
  | .memory array => return .memory array.clear
  | .file array => do
      array.clear
      return .file array
  | .mapped array => do
      array.clear
      return .mapped array

def snapshot : BitArray -> ArrayM Bytes
  | .memory array => return array.toBytes
  | .file array => array.snapshot
  | .mapped array => array.snapshot

instance : BitContainer BitArray where
  capacity array := array.layout.capacity
  byteLength array := array.layout.byteLength
  getBit array index := array.getBit index
  setBit array index := return (true, ← array.setBit index)
  snapshot array := array.snapshot

def merge {β : Type} [BitContainer β] (array : BitArray) (merge : Merge) (operand : β) :
    ArrayM BitArray :=
  match array with
  | .memory array => return .memory (← array.merge merge operand)
  | .file array => do
      array.merge merge operand
      return .file array
  | .mapped array => do
      array.merge merge operand
      return .mapped array

/-! ## Searches -/

def highest? : BitArray -> ArrayM (Option Nat)
  | .memory array => return array.highest?
  | .file array => BitContainer.highest? array
  | .mapped array => array.highest?

def lowest? : BitArray -> ArrayM (Option Nat)
  | .memory array => return array.lowest?
  | .file array => BitContainer.lowest? array
  | .mapped array => array.lowest?

/-- The least set position that is at least `first` and below the capacity. -/
def next? : BitArray -> Nat -> ArrayM (Option Nat)
  | .memory array, first => return array.next? first
  | .file array, first => BitContainer.next? array first
  | .mapped array, first => array.next? first

def count : BitArray -> ArrayM Nat
  | .memory array => return array.count
  | .file array => BitContainer.count array
  | .mapped array => array.count

/-! ## Writing back, closing and giving up -/

def flush : BitArray -> ArrayM Unit
  | .memory array => BitContainer.flush array
  | .file array => array.flush
  | .mapped array => array.flush

/-- Close the array, and say whether there was a failure; it is closed in either case.
One in memory has nothing to close. -/
def close : BitArray -> StateM Host (Except Fault Unit × BitArray)
  | .memory array => return (.ok (), .memory array)
  | .file array => do
      let (outcome, array) ← array.close
      return (outcome, .file array)
  | .mapped array => return (.ok (), .mapped (← array.close))

def isClosed : BitArray -> Bool
  | .memory _ => false
  | .file array => array.isClosed
  | .mapped array => array.isClosed

/-- Give the array up in silence. -/
def drop : BitArray -> StateM Host Unit
  | .mapped array => array.drop
  | _ => return

def describe : BitArray -> String
  | .memory array => array.describe
  | .file array => array.describe
  | .mapped array => array.describe

end BitArray
end BitStore
