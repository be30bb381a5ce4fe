import BitStore.Fault.Basic
import BitStore.Storage.Event
import BitStore.Storage.Volume

namespace BitStore

/-!
# The host of the storage

The host is the volume, what the platform offers and allows, the ledger of
mappings, and the records.  Operations on storage are functions of it that may
fail; a failed operation keeps the changes made before the failure.

Whether a file can be brought to stable storage is for the system to say, anew at
every request.  `fileSyncs` lists what the next requests come to, with the cause
where one is refused; requests beyond the list succeed.
-/

inductive Platform where
  | mapping
  | withoutMapping
  deriving DecidableEq, Repr

/-- The least offset that the system's signed offsets cannot express. -/
def offsetBound : Nat :=
  1 <<< 63

/-- What the system allows: the greatest length to which a file may grow, and the least length
of a mapping for which there is no room.  Every position in a file has an offset. -/
structure Limits where
  fileLength : Nat
  mappingLength : Nat
  expressible : fileLength < offsetBound
  deriving DecidableEq, Repr

def Limits.usual : Limits where
  fileLength := 1 <<< 30
  mappingLength := 1 <<< 30 - 1
  expressible := by decide

structure Mapping where
  address : Nat
  length : Nat
  deriving DecidableEq, Repr

/-- An attempt to give a range of addresses back. -/
structure Release where
  address : Nat
  length : Nat
  refused : Bool
  deriving DecidableEq, Repr

/-- The ledger of mappings: all that were granted and all attempts to release
one, each in order, and the addresses whose release the system refuses. -/
structure Ledger where
  granted : List Mapping := []
  releases : List Release := []
  seals : List Nat := []
  deriving DecidableEq, Repr

/-- The host: a volume, and what surrounds it.  Mappings are not written back while
that is refused.  The records are listed with the oldest first. -/
structure Host where
  volume : Volume := {}
  platform : Platform := .mapping
  limits : Limits := .usual
  ledger : Ledger := {}
  syncRefused : Bool := false
  fileSyncs : List (Option StorageError) := []
  events : List Event := []
  deriving Repr

abbrev HostM := ExceptT StorageError (StateM Host)

abbrev ArrayM := ExceptT Fault (StateM Host)

/-- Report a failure of the storage system as a fault; `context` names what
was attempted. -/
def HostM.within {α : Type} (context : String) (action : HostM α) : ArrayM α :=
  ExceptT.adapt (Fault.storage context) action

namespace Host

def record (event : Event) : StateM Host Unit :=
  modify fun host => { host with events := host.events ++ [event] }

def content (file : FileId) : StateM Host Content := do
  return (← get).volume.content file

def updateContent (file : FileId) (change : Content -> Content) : StateM Host Unit :=
  modify fun host => { host with volume := host.volume.updateContent file change }

/-- Why the next request to sync a file is refused, if it is. -/
def syncRefusal (host : Host) : Option StorageError :=
  host.fileSyncs.head?.join

def requestSync : HostM Unit := do
  let host ← get
  set { host with fileSyncs := host.fileSyncs.tail }
  match host.syncRefusal with
  | none => return
  | some cause => throw cause

/-- Those of the bytes to be written at a position that stay within the size limit. -/
def admitted (host : Host) (position : Nat) (bytes : Bytes) : Bytes :=
  bytes.take (host.limits.fileLength - position)

end Host
end BitStore
