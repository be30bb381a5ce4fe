import BitStore.Storage.Host

namespace BitStore

/-!
# Open files

A handle gives access to the content of a file at any position.  Reading and
writing nothing always succeeds; otherwise a position must fit the system's
signed 64-bit offsets, a read must find all its bytes, and a write must stay
within the size limit.  A write that goes past the limit is cut short there, and
fails with the bytes in front of the limit written.  Any other operation that
fails leaves the content as it was.
-/

structure Handle where
  file : FileId
  mode : WriteMode
  deriving DecidableEq, Repr

namespace Handle

def openAt (path : String) (mode : WriteMode) (create : Bool) : HostM Handle := do
  let host ← get
  let (file, volume) ← host.volume.openFile path create
  set { host with volume := volume }
  return { file := file, mode := mode }

def length (handle : Handle) : HostM Nat := do
  return (← Host.content handle.file).length

/-- The bytes at a position, all of which must be there. -/
def read (handle : Handle) (position count : Nat) : HostM Bytes := do
  if count = 0 then return []
  if offsetBound ≤ position + count then throw .invalidPosition
  let content ← Host.content handle.file
  if content.length < position + count then throw .endOfFile
  return content.window position count

def readByte (handle : Handle) (position : Nat) : HostM UInt8 := do
  if offsetBound ≤ position + 1 then throw .invalidPosition
  let content ← Host.content handle.file
  if content.length < position + 1 then throw .endOfFile
  return content.byte position

/-- What writing bytes at a position makes of the content.  A durable file has brought
what was written to stable storage. -/
def written (handle : Handle) (position : Nat) (bytes : Bytes) (content : Content) :
    Content :=
  if bytes.isEmpty then content
  else
    let content := content.write position bytes
    match handle.mode with
    | .durable => content.settleFront (position + bytes.length)
    | .buffered => content

/-- Write bytes at a position, as far as the size limit allows; a gap in front of them
is filled with zeros. -/
def write (handle : Handle) (position : Nat) (bytes : Bytes) : HostM Unit := do
  if bytes.isEmpty then return
  if offsetBound ≤ position + bytes.length then throw .invalidPosition
  let host ← get
  Host.updateContent handle.file (handle.written position (host.admitted position bytes))
  if host.limits.fileLength < position + bytes.length then throw .fileTooLarge

def writeByte (handle : Handle) (position : Nat) (value : UInt8) : HostM Unit :=
  handle.write position [value]

/-- Cut the file, or extend it by zeros, to a length. -/
def setLength (handle : Handle) (size : Nat) : HostM Unit := do
  if offsetBound ≤ size then throw .lengthOutOfRange
  let current ← handle.length
  if current < size && (← get).limits.fileLength < size then throw .fileTooLarge
  Host.updateContent handle.file fun content => content.resize size

/-- Extend the file to a least length, unless it is that long, and give its
length.  The record is left before the extension is tried. -/
def ensureLength (handle : Handle) (least : Nat) :
    HostM { length : Nat // least ≤ length } := do
  let current ← handle.length
  if enough : least ≤ current then return ⟨current, enough⟩
  Host.record (.growing current least)
  handle.setLength least
  return ⟨least, Nat.le_refl least⟩

/-- Bring all of the file to stable storage. -/
def sync (handle : Handle) : HostM Unit := do
  Host.requestSync
  Host.updateContent handle.file Content.settle

end Handle
end BitStore
