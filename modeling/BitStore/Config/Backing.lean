namespace BitStore

/-!
# Backings

A backing says where a bit array keeps its bits.  All but the first kind
outlive the process.
-/

/-- Where the bits of an array are kept.  A file has to be there already, and a mapped file is
made if it is missing. -/
inductive Backing where
  | memory
  | file
  | mappedFile
  deriving DecidableEq, Repr, Inhabited

namespace Backing

/-- The name of a backing in records. -/
def label : Backing -> String
  | .memory => "InMemory"
  | .file => "File"
  | .mappedFile => "MappedFile"

/-- The name of a backing in configurations. -/
def name : Backing -> String
  | .memory => "in_memory"
  | .file => "file"
  | .mappedFile => "mapped_file"

def ofName? (name : String) : Option Backing :=
  [Backing.memory, .file, .mappedFile].find? fun backing => backing.name == name

def isPersistent : Backing -> Bool
  | .memory => false
  | _ => true

end Backing
end BitStore
