import BitStore.Proofs.Arrays.Attempts
import BitStore.Proofs.Arrays.Ready
import BitStore.Proofs.Bits.CheckedScans

namespace BitStore

/-!
# Arrays as their parts

A `RawArray` is what an array keeps: the two numbers of its layout, and bytes, a file or a
mapping.  Nothing in its type says that these fit together.  What arrays do is written down
once more for the parts alone.  Every number that is computed, every place and every range
that is taken is checked, and a merge asserts that both sides are of one length; an action in
`RawM` is stopped where a check fails.  What the storage system does, and how set bits are
counted, is taken over as it is.
-/

/-- An operation on arrays that can also be stopped. -/
abbrev RawM := ExceptT Fault (StateT Host Checked)

instance : MonadLift (ExceptT Fault Checked) RawM where
  monadLift action := fun host => do return (← action.run, host)

/-- Storage itself computes nothing here. -/
instance : MonadLift ArrayM RawM where
  monadLift action := fun host => .ok (action.run host)

/-- What an array keeps beside the numbers of its layout. -/
inductive RawStorage where
  | memory (bytes : Bytes)
  | file (handle : Option Handle) (path : String) (mode : WriteMode)
  | mapped (region : Option Region) (path : String)

/-- An array as its parts; nothing is known of how they fit. -/
structure RawArray where
  layout : RawLayout
  storage : RawStorage

namespace RawArray

/-! ## Operations -/

/-- What an array still has, unless it is closed. -/
def live {α : Type} : Option α -> Except Fault α
  | some kept => .ok kept
  | none => .error .closed

def readByte (handle : Option Handle) (place : Nat) : ArrayM UInt8 := do
  let handle ← live handle
  HostM.within "unable to read bit array from disk" (handle.readByte place)

def writeByte (handle : Option Handle) (place : Nat) (value : UInt8) : ArrayM Unit := do
  let handle ← live handle
  HostM.within "unable to write bit array to disk" (handle.writeByte place value)

def changeFile (layout : RawLayout) (handle : Option Handle)
    (change : BitAddress -> UInt8 -> UInt8) (index : Nat) : RawM Unit := do
  let address ← layout.locate index
  let byte ← readByte handle address.byte
  writeByte handle address.byte (change address byte)

/-- The bytes of the array in a mapping. -/
def window (layout : RawLayout) (region : Region) : RawM Bytes := do
  Checked.slice (← region.view) 0 layout.byteLength

def changeMapping (layout : RawLayout) (region : Option Region)
    (change : BitAddress -> UInt8 -> UInt8) (index : Nat) : RawM Unit := do
  let region ← live region
  let bytes ← window layout region
  let (place, byte) ← layout.change change bytes index
  region.store place [byte]

def clearFile (layout : RawLayout) (handle : Option Handle) : RawM Unit := do
  let handle ← live handle
  HostM.within "unable to clear bit array on disk"
    (handle.write 0 (Bytes.zeros layout.byteLength))

def clearMapping (layout : RawLayout) (region : Option Region) : RawM Unit := do
  let region ← live region
  let bytes ← window layout region
  region.store 0 (Bytes.zeros bytes.length)

variable (array : RawArray)

def snapshot : RawM Bytes :=
  match array.storage with
  | .memory bytes => return bytes
  | .file handle _ _ => do
      let handle ← live handle
      HostM.within "unable to read bit array from disk"
        (handle.read 0 array.layout.byteLength)
  | .mapped region _ => do
      window array.layout (← live region)

def getBit (index : Nat) : RawM Bool :=
  match array.storage with
  | .memory bytes => array.layout.test bytes index
  | .file handle _ _ => do
      let address ← array.layout.locate index
      return address.test (← readByte handle address.byte)
  | .mapped region _ => do
      array.layout.test (← window array.layout (← live region)) index

def changed (change : BitAddress -> UInt8 -> UInt8) (index : Nat) : RawM RawArray :=
  match array.storage with
  | .memory bytes => do
      let (place, byte) ← array.layout.change change bytes index
      return { array with storage := .memory (bytes.set place byte) }
  | .file handle _ _ => do
      changeFile array.layout handle change index
      return array
  | .mapped region _ => do
      changeMapping array.layout region change index
      return array

/-- Set a bit that is not set, and say whether that was so. -/
def setBitIfUnset (index : Nat) : RawM (Bool × RawArray) := do
  if ← array.getBit index then return (false, array)
  return (true, ← array.changed BitAddress.raise index)

def clear : RawM RawArray :=
  match array.storage with
  | .memory bytes => return { array with storage := .memory (Bytes.zeros bytes.length) }
  | .file handle _ _ => do
      clearFile array.layout handle
      return array
  | .mapped region _ => do
      clearMapping array.layout region
      return array

/-- Check that an array of `length` bytes can be merged into one of this layout. -/
def requireOperand (layout : RawLayout) (length : Nat) : Except Fault Unit :=
  if length = layout.byteLength then .ok ()
  else .error (.invalidArgument "other"
    s!"bit array to combine with must be of equal length ({length} != {layout.byteLength})")

/-- Combine two byte sequences, which are asserted to be of one length. -/
def combine (kind : Merge) (receiver operand : Bytes) : Checked Bytes := do
  Checked.verify (receiver.length = operand.length)
  return kind.apply receiver operand

theorem combine_of_eq (kind : Merge) {receiver operand : Bytes}
    (same : receiver.length = operand.length) :
    combine kind receiver operand = .ok (kind.apply receiver operand) := by
  rw [combine, Checked.verify, if_pos (decide_eq_true same)]
  rfl

/-- Merge bytes into those of a file from a place on, one after the other. -/
def mergeFrom (handle : Option Handle) (kind : Merge) (place : Nat) : Bytes -> RawM Unit
  | [] => return
  | byte :: rest => do
      let current ← readByte handle place
      writeByte handle place (kind.combine current byte)
      mergeFrom handle kind (← Checked.add place 1) rest

/-- Merge bytes into those of the array. -/
def absorb (kind : Merge) (bytes : Bytes) : RawM RawArray := do
  match array.storage with
  | .memory mine =>
      return { array with storage := .memory (← combine kind mine bytes) }
  | .file handle path _ =>
      Host.record (.mergingFile kind path)
      mergeFrom handle kind 0 bytes
      return array
  | .mapped region path =>
      Host.record (.mergingMapping kind path)
      let region ← live region
      let current ← window array.layout region
      region.store 0 (← combine kind current bytes)
      return array

def merge (kind : Merge) (operand : RawArray) : RawM RawArray := do
  requireOperand array.layout operand.layout.byteLength
  array.absorb kind (← operand.snapshot)

def highest? : RawM (Option Nat) := do
  Checked.highest? (← array.snapshot)

def lowest? : RawM (Option Nat) := do
  Checked.lowest? (← array.snapshot)

def count : RawM Nat := do
  return Bytes.count (← array.snapshot)

/-- The greatest position in front of the capacity, if there is one. -/
def last? (layout : RawLayout) : Option Nat :=
  if layout.capacity < 1 then none else some (layout.capacity - 1)

/-- The least set position that is at least `first` and below the capacity.  No snapshot is
taken where there is nothing to look for. -/
def nextOfSnapshot? (first : Nat) : RawM (Option Nat) := do
  match last? array.layout with
  | none => return none
  | some last =>
      if last < first then return none
      Checked.next? (← array.snapshot) first last

/-- The same, on the bytes themselves. -/
def nextInPlace? (first : Nat) : RawM (Option Nat) := do
  let bytes ← array.snapshot
  Checked.next? bytes first (← array.layout.lastSearchable)

/-- The least set position that is at least `first` and below the capacity. -/
def next? (first : Nat) : RawM (Option Nat) :=
  match array.storage with
  | .file .. => array.nextOfSnapshot? first
  | _ => array.nextInPlace? first

/-- All set positions below the capacity, of one snapshot. -/
def positions : RawM (List Nat) := do
  match last? array.layout with
  | none => return []
  | some last => Checked.visits (← array.snapshot) 0 last

def flush : ArrayM Unit :=
  match array.storage with
  | .memory _ => return
  | .file handle path _ => do FileArray.syncFile path (← live handle)
  | .mapped region path => do MappedArray.flushRegion path (← live region)

/-- Close the array, and say whether there was a failure. -/
def close : StateM Host (Except Fault Unit × RawArray) := do
  match array.storage with
  | .memory _ | .file none _ _ | .mapped none _ => return (.ok (), array)
  | .file (some handle) path mode =>
      return (← (FileArray.finish path mode handle).run,
        { array with storage := .file none path mode })
  | .mapped (some region) path =>
      MappedArray.finish path region
      return (.ok (), { array with storage := .mapped none path })

def perform : Operation RawArray -> RawM (Reply × RawArray)
  | .get index => return (.flag (← array.getBit index), array)
  | .raise index => return (.flag true, ← array.changed BitAddress.raise index)
  | .lower index => return (.done, ← array.changed BitAddress.lower index)
  | .raiseIfUnset index => do
      let (changed, array) ← array.setBitIfUnset index
      return (.flag changed, array)
  | .clear => return (.done, ← array.clear)
  | .merge kind operand => return (.done, ← array.merge kind operand)
  | .snapshot => return (.bytes (← array.snapshot), array)
  | .highest => return (.position (← array.highest?), array)
  | .lowest => return (.position (← array.lowest?), array)
  | .next first => return (.position (← array.next? first), array)
  | .count => return (.number (← array.count), array)
  | .positions => return (.positions (← array.positions), array)
  | .flush => do
      array.flush
      return (.done, array)

/-- Perform one operation on the array in hand; a failure leaves it as it was. -/
def step (operation : Operation RawArray) :
    StateT Host Checked (Except Fault Reply × RawArray) := do
  match ← (array.perform operation).run with
  | .ok (reply, array) => return (.ok reply, array)
  | .error fault => return (.error fault, array)

/-! ## Making arrays -/

def ofCapacity (capacity : Nat) : RawM RawArray := do
  let layout ← RawLayout.ofCapacity capacity
  return { layout := layout, storage := .memory (Bytes.zeros layout.byteLength) }

/-- An array in memory over given bytes, which must be as many as the capacity needs. -/
def ofBytes (bytes : Bytes) (capacity : Nat) : RawM RawArray := do
  let layout ← RawLayout.ofCapacity capacity
  unless bytes.length = layout.byteLength do
    throw (.invalidArgument "bytes" "bits.len() == layout.byte_len()")
  return { layout := layout, storage := .memory bytes }

def openFile (path : String) (capacity : Nat) (mode : WriteMode) : RawM RawArray := do
  let host : Host ← get
  unless host.volume.isFile path do
    throw (.invalidArgument "backing_file" s!"{path} does not represent a valid file")
  let layout ← RawLayout.ofCapacity capacity
  let handle ← HostM.within s!"open {path}" (Handle.openAt path mode false)
  let least ← layout.fileLength
  let length ← HostM.within s!"extend {path}" (handle.ensureLength least)
  Host.record (.openedFile path capacity layout.byteLength length mode)
  return { layout := layout, storage := .file (some handle) path mode }

/-- Open an array over a mapping of a file, which is made and extended as needed. -/
def openMapping (path : String) (capacity : Nat) (mode : WriteMode) : RawM RawArray := do
  let host : Host ← get
  if host.volume.isPresent path && !host.volume.isFile path then
    throw (.invalidArgument "backing_file" s!"{path} does not represent a valid file")
  let layout ← RawLayout.ofCapacity capacity
  let handle ← HostM.within s!"open {path}" (Handle.openAt path mode true)
  let least ← layout.fileLength
  let length ← HostM.within s!"extend {path}" (handle.ensureLength least)
  let region ← (ExceptT.adapt (MappedArray.refusal path) (Region.map handle length) : ArrayM _)
  Host.record (.openedMapping path capacity layout.byteLength length)
  return { layout := layout, storage := .mapped (some region) path }

/-- Make an array of a backing; one in memory has no use for the path. -/
def openAt (backing : Backing) (path : String) (capacity : Nat) (mode : WriteMode) :
    RawM RawArray :=
  match backing with
  | .memory => ofCapacity capacity
  | .file => openFile path capacity mode
  | .mappedFile => openMapping path capacity mode

end RawArray
end BitStore
