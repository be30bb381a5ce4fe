import BitStore.Session.Basic

namespace BitStore
namespace Session

/-!
# Performing steps

Every step looks up the name that it works on before anything else.  What a
step leaves in the session is also there when it is refused: the bits that were
set before a failure stay set, and a region is gone after `unmap` whether or not
the system took its mapping back.
-/

/-! ## Arrays -/

def construct : Construction -> SessionM BitArray
  | .empty capacity => return .memory (← ofFault (MemoryArray.ofCapacity capacity))
  | .bytes bytes capacity => return .memory (← ofFault (MemoryArray.ofBytes bytes capacity))
  | .copy other => return .memory (← requireMemory other)
  | .file path capacity mode => do
      let mode ← writeMode mode
      return .file (← onArrays (FileArray.openAt path capacity mode))
  | .mapped path capacity mode => do
      let mode ← writeMode mode
      return .mapped (← onArrays (MappedArray.openAt path capacity mode))
  | .options capacity backing mode path => do
      let backing ← meaning Backing.ofName? .memory backing
      let mode ← writeMode mode
      let options : Options :=
        { capacity := capacity, backing := backing, writeMode := mode }
      onArrays (options.openAt path)

def operate (name : String) (array : BitArray) (operation : Operation String) :
    SessionM Answer := do
  let operation ← operation.resolve requireArray
  let (reply, array) ← onHost (array.step operation)
  keepArray name array
  return .reply (← ofFault reply)

/-- The number of indices from `first` to `last`, each `stride` after the one
before. -/
def rangeCount (first last stride : Nat) : Nat :=
  if last < first then 0 else (last - first) / stride + 1

/-- Change the bits of a range in the array of a name. -/
def sweep (name : String) (array : BitArray) (change : BitAddress -> UInt8 -> UInt8)
    (first last stride : Nat) : SessionM Answer := do
  let (outcome, array) ←
    onHost (array.sweep change stride first 0 (rangeCount first last stride))
  keepArray name array
  return .number (← ofFault outcome)

/-- The open mapping of an array; only an array in a mapping has one. -/
def liveRegion : BitArray -> SessionM Region
  | .mapped array => ofFault array.live
  | _ => throw .notOffered

def performArray (name : String) (step : ArrayStep) : SessionM Answer := do
  let array ← requireArray name
  match step with
  | .operate operation => operate name array operation
  | .raiseRange first last stride => sweep name array BitAddress.raise first last stride
  | .lowerRange first last stride => sweep name array BitAddress.lower first last stride
  | .equals other =>
      let left ← requireMemory name
      let right ← requireMemory other
      return .flag (left == right)
  | .close =>
      let (outcome, array) ← onHost array.close
      keepArray name array
      ofFault outcome
      return .done
  | .isClosed => return .flag array.isClosed
  | .capacity => return .number (BitContainer.capacity array)
  | .byteLength => return .number (BitContainer.byteLength array)
  | .bitSize => return .number (BitContainer.bitSize array)
  | .view =>
      match array with
      | .memory array => return .bytes array.toBytes
      | .file _ => throw .notOffered
      | .mapped array => return .bytes (← onArrays array.snapshot)
  | .path =>
      match array with
      | .memory _ => throw .notOffered
      | .file array => return .text array.path
      | .mapped array => return .text array.path
  | .writeMode =>
      match array with
      | .file array => return .text array.mode.name
      | _ => throw .notOffered
  | .describe => return .text array.describe
  | .drop =>
      unbindArray name
      onHost array.drop
      return .done
  | .forbidRelease =>
      let region ← liveRegion array
      onHost (Host.forbidRelease region.mapping)
      return .done
  | .flushRefused =>
      let _ ← liveRegion array
      onArrays (whileSyncRefused array.flush)
      return .done

/-! ## Files, handles and regions -/

def performFile : FileStep -> SessionM Answer
  | .write path bytes => do
      onStorage (Host.writeFile path bytes)
      return .done
  | .read path => return .bytes (← onStorage (Host.readFile path))
  | .makeDirectory path => do
      onStorage (Host.makeDirectory path)
      return .done
  | .remove path => do
      onStorage (Host.removeFile path)
      return .done
  | .resize path size => do
      onStorage (Host.resizeFile path size)
      return .done
  | .presence path => return .presence (← onHost (Host.presence path))

def performHandle (name : String) : HandleStep -> SessionM Answer
  | .openAt path mode create => do
      let mode ← writeMode mode
      bindHandle name (← onStorage (Handle.openAt path mode create))
      return .done
  | .ensureLength least => do
      let handle ← requireHandle name
      return .number (← onStorage (handle.ensureLength least)).val
  | .readByte position => do
      let handle ← requireHandle name
      return .number (← onStorage (handle.readByte position)).toNat
  | .writeByte position value => do
      let handle ← requireHandle name
      onStorage (handle.writeByte position value)
      return .done
  | .read position count => do
      let handle ← requireHandle name
      return .bytes (← onStorage (handle.read position count))
  | .write position bytes => do
      let handle ← requireHandle name
      onStorage (handle.write position bytes)
      return .done
  | .drop => do
      let _ ← requireHandle name
      unbindHandle name
      return .done

def performRegion (name : String) : RegionStep -> SessionM Answer
  | .map handle length => do
      let handle ← requireHandle handle
      bindRegion name (← onStorage (Region.map handle length)).val
      return .done
  | .extent => do
      let region ← requireRegion name
      return .extent region.length (region.length = 0)
  | .view => do
      let region ← requireRegion name
      return .view (← onHost region.view)
  | .store position bytes => do
      let region ← requireRegion name
      onHost (region.store position bytes)
      return .done
  | .flush => do
      let region ← requireRegion name
      onStorage region.flush
      return .done
  | .describe => do
      let region ← requireRegion name
      return .text region.describe
  | .unmap => do
      let region ← requireRegion name
      unbindRegion name
      onStorage region.unmap
      return .done
  | .drop => do
      let region ← requireRegion name
      unbindRegion name
      onHost region.drop
      return .done
  | .forbidRelease => do
      let region ← requireRegion name
      onHost (Host.forbidRelease region.mapping)
      return .done
  | .flushRefused => do
      let region ← requireRegion name
      onStorage (whileSyncRefused region.flush)
      return .done

/-! ## A platform that cannot map files -/

/-- Set bits of an array one after the other, and read all its bytes. -/
def raiseAndRead (array : BitArray) : List Nat -> ArrayM Bytes
  | [] => array.snapshot
  | index :: rest => do raiseAndRead (← array.setBit index) rest

/-- Perform a step as on a platform that cannot map files. -/
def performUnmapped : UnmappedStep -> SessionM Answer
  | .openMapped path capacity mode => do
      let mode ← writeMode mode
      let array ← onArrays (MappedArray.openAt path capacity mode)
      onHost array.drop
      return .number array.layout.byteLength
  | .openOptions capacity backing mode path indices => do
      let array ← construct (.options capacity backing mode path)
      let outcome ← onHost (raiseAndRead array indices).run
      onHost array.drop
      return .bytes (← ofFault outcome)
  | .map handle length => do
      let handle ← requireHandle handle
      let region ← onStorage (Region.map handle length)
      onHost region.val.drop
      return .done
  | .flush length => do
      onStorage (Host.sync { address := 0, length := length })
      return .done
  | .unmap length => do
      onStorage (Host.release { address := 0, length := length })
      return .done

/-! ## Steps and runs -/

def perform : Step -> SessionM Answer
  | .build name construction => do
      bindArray name (← construct construction)
      return .done
  | .array name step => performArray name step
  | .file step => performFile step
  | .handle name step => performHandle name step
  | .region name step => performRegion name step
  | .unmapped step => withoutMapping (performUnmapped step)

/-- What is known after a step: its answer or the reason why there is none, the
records that it left, and, in a traced run, the bytes of the array whose name
the step mentions. -/
structure Report where
  outcome : Except Refusal Answer
  events : List Event
  state : Option (Except Fault Bytes)

/-- The bytes of the array of a name, if there is one. -/
def stateOf (name : Option String) : StateM Session (Option (Except Fault Bytes)) := do
  match name.bind (← get).arrays.get? with
  | none => return none
  | some array => return some (← hosted array.snapshot.run)

def report (traced : Bool) (step : Step) : StateM Session Report := do
  modify fun session => { session with host := { session.host with events := [] } }
  let outcome ← (perform step).run
  let events := (← get).host.events
  let state ← if traced then stateOf step.name? else pure none
  return { outcome := outcome, events := events, state := state }

/-- Perform steps one after the other, whatever they answer. -/
def run (traced : Bool) (steps : List Step) : List Report :=
  ((steps.mapM (report traced) : StateM Session (List Report)) {}).1

end Session
end BitStore
