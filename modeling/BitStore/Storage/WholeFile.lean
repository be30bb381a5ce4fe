import BitStore.Storage.Handle

namespace BitStore

/-!
# Files as a whole

What can be done with a path in one go: write or read all of a file, cut it,
make a directory, remove a file, and ask what is there.
-/

inductive Presence where
  | file (length : Nat)
  | directory
  | missing
  deriving DecidableEq, Repr

namespace Host

/-- Change the tree of the volume. -/
def changeVolume (change : Volume -> Except StorageError Volume) : HostM Unit := do
  let host ← get
  let volume ← change host.volume
  set { host with volume := volume }

/-- Write a file, which is made if it is missing and loses what it held.  It gets
no longer than the system allows. -/
def writeFile (path : String) (bytes : Bytes) : HostM Unit := do
  let handle ← Handle.openAt path .buffered true
  let limit := (← get).limits.fileLength
  updateContent handle.file fun _ => Content.ofBytes (bytes.take limit)
  if limit < bytes.length then throw .fileTooLarge

def readFile (path : String) : HostM Bytes := do
  let handle ← Handle.openAt path .buffered false
  return (← content handle.file).toList

/-- Cut a file, or extend it by zeros, to a length. -/
def resizeFile (path : String) (size : Nat) : HostM Unit := do
  let handle ← Handle.openAt path .buffered false
  handle.setLength size

def makeDirectory (path : String) : HostM Unit :=
  changeVolume fun volume => volume.makeDirectory path

def removeFile (path : String) : HostM Unit :=
  changeVolume fun volume => volume.removeFile path

/-- What is found at a path; nothing, if the path leads nowhere. -/
def presence (path : String) : StateM Host Presence := do
  let volume := (← get).volume
  return match volume.find path with
  | .ok (_, .file file) => .file (volume.content file).length
  | .ok (_, .directory) => .directory
  | .error _ => .missing

end Host
end BitStore
