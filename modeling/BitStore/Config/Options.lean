import BitStore.BitArray.Basic
import BitStore.Config.Backing

namespace BitStore

/-!
# Options

The options of a bit array say how large it is and where it is kept.  An array
in a file needs a path, and the lack of one is noticed before anything else; an
array in memory needs none, and a path given for it is not looked at.
-/

/-- What a bit array is to be. -/
structure Options where
  capacity : Nat
  backing : Backing := .memory
  writeMode : WriteMode := .durable
  deriving DecidableEq, Repr

namespace Options

/-- The path, which a persistent backing needs. -/
def requirePath (options : Options) (path : Option String) : Except Fault String :=
  match path with
  | some path => .ok path
  | none =>
      .error (.invalidArgument "path" s!"{options.backing.label} backing requires a file path")

def openAt (options : Options) (path : Option String) : ArrayM BitArray :=
  match options.backing with
  | .memory => return .memory (← MemoryArray.ofCapacity options.capacity)
  | .file => do
      let path ← options.requirePath path
      return .file (← FileArray.openAt path options.capacity options.writeMode)
  | .mappedFile => do
      let path ← options.requirePath path
      return .mapped (← MappedArray.openAt path options.capacity options.writeMode)

end Options
end BitStore
