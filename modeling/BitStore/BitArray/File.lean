import BitStore.BitArray.Container
import BitStore.Layout
import BitStore.Storage.Handle
import BitStore.Text.Quoted

namespace BitStore

/-!
# Bit arrays in a file

Every operation goes to the file at once: a bit is read by reading its byte,
and changed by reading its byte and writing it back.  Nothing is kept beside
the file, so all arrays over one file agree at any time.  An index is checked
before anything else, also on a closed array.
-/

/-- A bit array whose bytes are the front of a file.  It has no handle once it is closed. -/
structure FileArray where
  layout : Layout
  handle : Option Handle
  path : String
  mode : WriteMode
  deriving DecidableEq, Repr

namespace FileArray

/-- Open an array over a file that is there, and make the file long enough. -/
def openAt (path : String) (capacity : Nat) (mode : WriteMode) : ArrayM FileArray := do
  unless (← get).volume.isFile path do
    throw (.invalidArgument "backing_file" s!"{path} does not represent a valid file")
  let layout ← Layout.ofCapacity capacity
  let handle ← HostM.within s!"open {path}" (Handle.openAt path mode false)
  let length ← HostM.within s!"extend {path}" (handle.ensureLength layout.fileLength)
  Host.record (.openedFile path capacity layout.byteLength length mode)
  return { layout := layout, handle := some handle, path := path, mode := mode }

/-- The open file, unless the array is closed. -/
def live (array : FileArray) : Except Fault Handle :=
  match array.handle with
  | some handle => .ok handle
  | none => .error .closed

def isClosed (array : FileArray) : Bool :=
  array.handle.isNone

def readByte (array : FileArray) (index : Nat) : ArrayM UInt8 := do
  let handle ← array.live
  HostM.within "unable to read bit array from disk" (handle.readByte index)

def writeByte (array : FileArray) (index : Nat) (value : UInt8) : ArrayM Unit := do
  let handle ← array.live
  HostM.within "unable to write bit array to disk" (handle.writeByte index value)

def getBit (array : FileArray) (index : Nat) : ArrayM Bool := do
  let address ← array.layout.locate index
  return address.test (← array.readByte address.byte)

def changeBit (array : FileArray) (index : Nat)
    (change : BitAddress -> UInt8 -> UInt8) : ArrayM Unit := do
  let address ← array.layout.locate index
  let byte ← array.readByte address.byte
  array.writeByte address.byte (change address byte)

def clear (array : FileArray) : ArrayM Unit := do
  let handle ← array.live
  HostM.within "unable to clear bit array on disk"
    (handle.write 0 (Bytes.zeros array.layout.byteLength))

def snapshot (array : FileArray) : ArrayM Bytes := do
  let handle ← array.live
  HostM.within "unable to read bit array from disk"
    (handle.read 0 array.layout.byteLength)

/-- Merge bytes into those from an index on, one after the other. -/
def mergeFrom (array : FileArray) (merge : Merge) (index : Nat) : Bytes -> ArrayM Unit
  | [] => return
  | byte :: rest => do
      let current ← array.readByte index
      array.writeByte index (merge.combine current byte)
      array.mergeFrom merge (index + 1) rest

def merge {β : Type} [BitContainer β] (array : FileArray) (merge : Merge)
    (operand : β) : ArrayM Unit := do
  array.layout.requireOperand (BitContainer.byteLength operand)
  let bytes ← BitContainer.snapshot operand
  Host.record (.mergingFile merge array.path)
  array.mergeFrom merge 0 bytes

instance : BitContainer FileArray where
  capacity array := array.layout.capacity
  byteLength array := array.layout.byteLength
  getBit array index := array.getBit index
  setBit array index := do
    array.changeBit index BitAddress.raise
    return (true, array)
  snapshot array := array.snapshot

def syncFile (path : String) (handle : Handle) : ArrayM Unit :=
  HostM.within s!"sync {path}" handle.sync

/-- Have everything written on stable storage. -/
def flush (array : FileArray) : ArrayM Unit := do
  let handle ← array.live
  syncFile array.path handle

/-- Be done with the file of a path, after syncing it if it is buffered.  There is no
record of it where that fails. -/
def finish (path : String) (mode : WriteMode) (handle : Handle) : ArrayM Unit := do
  match mode with
  | .durable => pure ()
  | .buffered => syncFile path handle
  Host.record (.closedFile path)

/-- Close the array, which it is from then on, also if there is a failure in the end;
closing it again does nothing. -/
def close (array : FileArray) : StateM Host (Except Fault Unit × FileArray) := do
  match array.handle with
  | none => return (.ok (), array)
  | some handle =>
      return (← (finish array.path array.mode handle).run, { array with handle := none })

def describe (array : FileArray) : String :=
  s!"FileBackedBitArray \x7b path: {Quoted.encode array.path}, " ++
    s!"capacity: {array.layout.capacity}, byte_len: {array.layout.byteLength}, " ++
    s!"write_mode: {array.mode.label}, closed: {array.isClosed} \x7d"

end FileArray
end BitStore
