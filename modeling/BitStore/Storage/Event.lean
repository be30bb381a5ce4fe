import BitStore.Fault.Storage
import BitStore.Merge
import BitStore.Storage.WriteMode

namespace BitStore

/-!
# Records of what happened

Opening, growing, merging and closing leave records.  A record is kept as the
event itself; its level and its text are computed from that.
-/

/-- How important a record is. -/
inductive Level where
  | trace
  | debug
  | warn
  deriving DecidableEq, Repr

/-- What is recorded.  That a file grows or that arrays are merged is recorded before it is
tried. -/
inductive Event where
  | growing (current wanted : Nat)
  | openedFile (path : String) (capacity byteLength fileLength : Nat) (mode : WriteMode)
  | openedMapping (path : String) (capacity byteLength mappedLength : Nat)
  | mergingFile (merge : Merge) (path : String)
  | mergingMapping (merge : Merge) (path : String)
  | closedFile (path : String)
  | closedMapping (path : String)
  | unmapFailed (path : String) (cause : StorageError)
  deriving DecidableEq, Repr

namespace Event

def level : Event -> Level
  | .mergingFile _ _ => .trace
  | .mergingMapping _ _ => .trace
  | .unmapFailed _ _ => .warn
  | _ => .debug

def text : Event -> String
  | .growing current wanted =>
      s!"growing backing file from {current} to {wanted} bytes"
  | .openedFile path capacity byteLength fileLength mode =>
      s!"opened file-backed bit array {path}: capacity {capacity}, " ++
        s!"{byteLength} bytes, file length {fileLength}, {mode.label}"
  | .openedMapping path capacity byteLength mappedLength =>
      s!"mapped bit array {path}: capacity {capacity}, " ++
        s!"{byteLength} bytes, mapped {mappedLength} bytes"
  | .mergingFile merge path => s!"{merge.label} merge into {path}"
  | .mergingMapping merge path => s!"{merge.label} merge into mapped {path}"
  | .closedFile path => s!"closed file-backed bit array {path}"
  | .closedMapping path => s!"closed mapped bit array {path}"
  | .unmapFailed path cause => s!"failed to unmap {path}: {cause.message}"

end Event
end BitStore
