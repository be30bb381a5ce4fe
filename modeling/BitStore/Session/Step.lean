import BitStore.BitArray.Operation
import BitStore.Json.Reader
import BitStore.Storage.WholeFile

namespace BitStore

/-!
# Steps and answers

A step names the arrays, regions and handles that it works on, and says what to
do with them; each kind has names of its own.  The answer to a step is a value,
or the reason why there is none.  Backings and write modes come as names, which
need not mean anything.
-/

/-- Where the bits of a new array come from.  One that is empty, made of bytes or a copy is in
memory. -/
inductive Construction where
  | empty (capacity : Nat)
  | bytes (bytes : Bytes) (capacity : Nat)
  | copy (other : String)
  | file (path : String) (capacity : Nat) (mode : Option String)
  | mapped (path : String) (capacity : Nat) (mode : Option String)
  | options (capacity : Nat) (backing mode path : Option String)
  deriving DecidableEq, Repr

/-- What is done with an array.  A range has the bits from `first` to `last`, each `stride` after
the one before.  The last two steps have the system refuse to release the mapping from now on,
and to write it back this time. -/
inductive ArrayStep where
  | operate (operation : Operation String)
  | raiseRange (first last stride : Nat)
  | lowerRange (first last stride : Nat)
  | equals (other : String)
  | close
  | isClosed
  | capacity
  | byteLength
  | bitSize
  | view
  | path
  | writeMode
  | describe
  | drop
  | forbidRelease
  | flushRefused
  deriving DecidableEq, Repr

inductive FileStep where
  | write (path : String) (bytes : Bytes)
  | read (path : String)
  | makeDirectory (path : String)
  | remove (path : String)
  | resize (path : String) (size : Nat)
  | presence (path : String)
  deriving DecidableEq, Repr

inductive HandleStep where
  | openAt (path : String) (mode : Option String) (create : Bool)
  | ensureLength (least : Nat)
  | readByte (position : Nat)
  | writeByte (position : Nat) (value : UInt8)
  | read (position count : Nat)
  | write (position : Nat) (bytes : Bytes)
  | drop
  deriving DecidableEq, Repr

/-- What is done with a region.  The last two steps have the system refuse as those on arrays
do. -/
inductive RegionStep where
  | map (handle : String) (length : Nat)
  | extent
  | view
  | store (position : Nat) (bytes : Bytes)
  | flush
  | describe
  | unmap
  | drop
  | forbidRelease
  | flushRefused
  deriving DecidableEq, Repr

/-- What is done as on a platform that cannot map files.  An array that is opened is given up
at once, after bits were set in it if it is opened by options. -/
inductive UnmappedStep where
  | openMapped (path : String) (capacity : Nat) (mode : Option String)
  | openOptions (capacity : Nat) (backing mode path : Option String) (indices : List Nat)
  | map (handle : String) (length : Nat)
  | flush (length : Nat)
  | unmap (length : Nat)
  deriving DecidableEq, Repr

inductive Step where
  | build (name : String) (construction : Construction)
  | array (name : String) (step : ArrayStep)
  | file (step : FileStep)
  | handle (name : String) (step : HandleStep)
  | region (name : String) (step : RegionStep)
  | unmapped (step : UnmappedStep)
  deriving DecidableEq, Repr

/-- The name that a step gives for an array, a region or a new array. -/
def Step.name? : Step -> Option String
  | .build name _ => some name
  | .array name _ => some name
  | .region name _ => some name
  | _ => none

/-- What a step answers.  The extent of a region is its length and whether it is empty. -/
inductive Answer where
  | reply (reply : Reply)
  | text (text : String)
  | presence (presence : Presence)
  | extent (length : Nat) (isEmpty : Bool)
  | view (bytes : Bytes)
  deriving DecidableEq, Repr

/-- Why a step has no answer.  A text is at fault where a name of a backing or of a write mode
has no meaning, and an array does not offer what only those of another kind can do. -/
inductive Refusal where
  | fault (fault : Fault)
  | storage (cause : StorageError)
  | text (fault : Json.TextFault)
  | unbound (name : String)
  | notOffered
  deriving DecidableEq, Repr

namespace Answer

/-- The answer of a step that only does something. -/
def done : Answer :=
  .reply .done

def flag (value : Bool) : Answer :=
  .reply (.flag value)

def number (value : Nat) : Answer :=
  .reply (.number value)

def bytes (bytes : Bytes) : Answer :=
  .reply (.bytes bytes)

end Answer
end BitStore
