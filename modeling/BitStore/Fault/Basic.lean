import BitStore.Fault.Storage

namespace BitStore

/-!
# Faults of the bit array operations

A `Fault` says what was wrong with a call.  A failure of the storage system is
carried inside, together with the sentence that names what was attempted.
Calls check their arguments by `require` and `requireIndex`.
-/

/-- Why an operation on a bit array, or on its parts, failed.  A failure of the storage system
comes with what was attempted. -/
inductive Fault where
  | invalidArgument (name message : String)
  | indexOutOfRange (index capacity : Nat)
  | invalidOperation (name : String)
  | unsupported (message : String)
  | storage (context : String) (cause : StorageError)
  deriving DecidableEq, Repr

namespace Fault

def message : Fault -> String
  | .invalidArgument name text => s!"invalid argument {name}: {text}"
  | .indexOutOfRange index capacity =>
      s!"index {index} is greater than the capacity {capacity}"
  | .invalidOperation name => s!"invalid operation {name}"
  | .unsupported text => s!"not supported: {text}"
  | .storage context cause =>
      "IO error for '" ++ context ++ "': " ++ cause.message

def isOutOfRange : Fault -> Bool
  | .indexOutOfRange _ _ => true
  | _ => false

def isInvalidArgument : Fault -> Bool
  | .invalidArgument _ _ => true
  | _ => false

/-- The failure of the storage system behind the fault. -/
def cause? : Fault -> Option StorageError
  | .storage _ cause => some cause
  | _ => none

/-- Every use of a persistent array after it was closed. -/
def closed : Fault :=
  .invalidOperation "use of a closed bit array"

/-- Check a condition on the argument called `name`; `condition` is its text. -/
def require (holds : Bool) (name condition : String) : Except Fault Unit :=
  if holds then .ok () else .error (.invalidArgument name condition)

def requireIndex (index capacity : Nat) : Except Fault Unit :=
  if index ≤ capacity then .ok () else .error (.indexOutOfRange index capacity)

end Fault
end BitStore
