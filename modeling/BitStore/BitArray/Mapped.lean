import BitStore.BitArray.Container
import BitStore.Layout
import BitStore.Storage.Region
import BitStore.Text.Quoted

namespace BitStore

/-!
# Bit arrays in a mapping

The whole file is mapped when the array is opened, and made if it is missing.
The array's bytes are the front of the mapping; a bit is loaded from it and
stored into it.  A closed array is recognised before an index is looked at.
-/

/-- A bit array whose bytes are the front of a mapped file.  The region, which is gone once the
array is closed, reaches beyond the bytes. -/
structure MappedArray where
  layout : Layout
  region : Option Region
  path : String
  covered : ∀ mapped ∈ region, layout.fileLength ≤ mapped.length
  deriving DecidableEq, Repr

namespace MappedArray

/-- Report a refused mapping: a platform without mappings does not support the
operation, any other refusal is a failure of storage. -/
def refusal (path : String) (cause : StorageError) : Fault :=
  if cause.kind = .unsupported then
    .unsupported s!"memory mapping {path}: {cause.message}"
  else
    .storage s!"map {path}" cause

/-- Open an array over a file, which is made and extended as needed. -/
def openAt (path : String) (capacity : Nat) (mode : WriteMode) : ArrayM MappedArray := do
  let volume := (← get).volume
  if volume.isPresent path && !volume.isFile path then
    throw (.invalidArgument "backing_file" s!"{path} does not represent a valid file")
  let layout ← Layout.ofCapacity capacity
  let handle ← HostM.within s!"open {path}" (Handle.openAt path mode true)
  let length ← HostM.within s!"extend {path}" (handle.ensureLength layout.fileLength)
  let region ← ExceptT.adapt (refusal path) (Region.map handle length)
  Host.record (.openedMapping path capacity layout.byteLength length)
  return {
    layout := layout
    region := some region
    path := path
    covered := by
      intro mapped live
      cases live
      exact Nat.le_trans length.property (Nat.le_of_eq region.property.symm) }

/-- The mapping, unless the array is closed. -/
def live (array : MappedArray) : Except Fault Region :=
  match array.region with
  | some region => .ok region
  | none => .error .closed

def isClosed (array : MappedArray) : Bool :=
  array.region.isNone

def getBit (array : MappedArray) (index : Nat) : ArrayM Bool := do
  let region ← array.live
  let address ← array.layout.locate index
  return address.test (← region.load address.byte)

def changeBit (array : MappedArray) (index : Nat)
    (change : BitAddress -> UInt8 -> UInt8) : ArrayM Unit := do
  let region ← array.live
  let address ← array.layout.locate index
  let byte ← region.load address.byte
  region.store address.byte [change address byte]

def snapshot (array : MappedArray) : ArrayM Bytes := do
  let region ← array.live
  return (← region.view).take array.layout.byteLength

def clear (array : MappedArray) : ArrayM Unit := do
  let region ← array.live
  region.store 0 (Bytes.zeros array.layout.byteLength)

def merge {β : Type} [BitContainer β] (array : MappedArray) (merge : Merge)
    (operand : β) : ArrayM Unit := do
  array.layout.requireOperand (BitContainer.byteLength operand)
  let bytes ← BitContainer.snapshot operand
  Host.record (.mergingMapping merge array.path)
  let region ← array.live
  let current ← array.snapshot
  region.store 0 (merge.apply current bytes)

instance : BitContainer MappedArray where
  capacity array := array.layout.capacity
  byteLength array := array.layout.byteLength
  getBit array index := array.getBit index
  setBit array index := do
    array.changeBit index BitAddress.raise
    return (true, array)
  snapshot array := array.snapshot

/-! ## Searches on the mapping itself -/

def highest? (array : MappedArray) : ArrayM (Option Nat) := do
  return (← array.snapshot).highest?

def lowest? (array : MappedArray) : ArrayM (Option Nat) := do
  return (← array.snapshot).lowest?

/-- The least set position that is at least `first` and below the capacity. -/
def next? (array : MappedArray) (first : Nat) : ArrayM (Option Nat) := do
  return (← array.snapshot).next? first array.layout.lastSearchable

def count (array : MappedArray) : ArrayM Nat := do
  return (← array.snapshot).count

/-! ## Writing back and closing -/

def flushRegion (path : String) (region : Region) : ArrayM Unit :=
  HostM.within s!"flush mapping of {path}" region.flush

def flush (array : MappedArray) : ArrayM Unit := do
  let region ← array.live
  flushRegion array.path region

/-- Be done with the mapping of a path.  If the system does not take it back, that is
noted, and the mapping is given up all the same. -/
def finish (path : String) (region : Region) : StateM Host Unit := do
  match ← region.unmap.run with
  | .ok () => pure ()
  | .error cause => Host.record (.unmapFailed path cause)
  Host.record (.closedMapping path)

/-- Close the array; closing a second time does nothing. -/
def close (array : MappedArray) : StateM Host MappedArray := do
  match array.region with
  | none => return array
  | some region =>
      finish array.path region
      return { array with region := none, covered := nofun }

/-- Give the array up in silence. -/
def drop (array : MappedArray) : StateM Host Unit :=
  match array.region with
  | none => return
  | some region => region.drop

/-- An array as text, the address left out. -/
def describe (array : MappedArray) : String :=
  let region := match array.region with
    | none => "None"
    | some region => s!"Some({region.describe})"
  s!"MappedFileBackedBitArray \x7b path: {Quoted.encode array.path}, " ++
    s!"capacity: {array.layout.capacity}, byte_len: {array.layout.byteLength}, " ++
    s!"region: {region} \x7d"

end MappedArray
end BitStore
