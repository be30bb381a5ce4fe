import BitStore.Config.Options
import BitStore.Session.Bindings
import BitStore.Session.Step

namespace BitStore

/-!
# Sessions

A session is a host with named arrays, regions and handles.  Its actions may be
refused; a refused action keeps what it changed before the refusal.
-/

/-- A host, and what has been given names on it. -/
structure Session where
  host : Host := {}
  arrays : Bindings BitArray := []
  regions : Bindings Region := []
  handles : Bindings Handle := []
  deriving Repr

abbrev SessionM := ExceptT Refusal (StateM Session)

namespace Session

/-- Act on the session's host. -/
def hosted {α : Type} (action : StateM Host α) : StateM Session α := do
  let session ← get
  let (value, host) := action session.host
  set { session with host := host }
  return value

def onHost {α : Type} (action : StateM Host α) : SessionM α :=
  ExceptT.lift (hosted action)

def onStorage {α : Type} (action : HostM α) : SessionM α := do
  match ← onHost action.run with
  | .ok value => return value
  | .error cause => throw (.storage cause)

def onArrays {α : Type} (action : ArrayM α) : SessionM α := do
  match ← onHost action.run with
  | .ok value => return value
  | .error fault => throw (.fault fault)

def ofFault {α : Type} : Except Fault α -> SessionM α
  | .ok value => return value
  | .error fault => throw (.fault fault)

/-! ## Looking names up -/

/-- What a name stands for, which must be something. -/
def require {α : Type} (bindings : Bindings α) (name : String) : SessionM α :=
  match bindings.get? name with
  | some value => return value
  | none => throw (.unbound name)

def requireArray (name : String) : SessionM BitArray := do
  require (← get).arrays name

def requireMemory (name : String) : SessionM MemoryArray := do
  match ← requireArray name with
  | .memory array => return array
  | _ => throw .notOffered

def requireRegion (name : String) : SessionM Region := do
  require (← get).regions name

def requireHandle (name : String) : SessionM Handle := do
  require (← get).handles name

/-- What a name means, or a default where no name is given. -/
def meaning {α : Type} (ofName? : String -> Option α) (missing : α) :
    Option String -> SessionM α
  | none => return missing
  | some name =>
      match ofName? name with
      | some value => return value
      | none => throw (.text .shape)

/-- The write mode of a name; arrays and handles are durable by default. -/
def writeMode (name : Option String) : SessionM WriteMode :=
  meaning WriteMode.ofName? .durable name

/-! ## Giving names -/

/-- Keep an array under its name, where one is already. -/
def keepArray (name : String) (array : BitArray) : StateM Session Unit :=
  modify fun session => { session with arrays := session.arrays.insert name array }

/-- Give a name to a new array; the one that had it is given up. -/
def bindArray (name : String) (array : BitArray) : StateM Session Unit := do
  let earlier := (← get).arrays.get? name
  keepArray name array
  match earlier with
  | some earlier => hosted earlier.drop
  | none => return

def unbindArray (name : String) : StateM Session Unit :=
  modify fun session => { session with arrays := session.arrays.erase name }

/-- Give a name to a new region; the one that had it is given up. -/
def bindRegion (name : String) (region : Region) : StateM Session Unit := do
  let earlier := (← get).regions.get? name
  modify fun session => { session with regions := session.regions.insert name region }
  match earlier with
  | some earlier => hosted earlier.drop
  | none => return

def unbindRegion (name : String) : StateM Session Unit :=
  modify fun session => { session with regions := session.regions.erase name }

def bindHandle (name : String) (handle : Handle) : StateM Session Unit :=
  modify fun session => { session with handles := session.handles.insert name handle }

def unbindHandle (name : String) : StateM Session Unit :=
  modify fun session => { session with handles := session.handles.erase name }

/-! ## Hosts that differ for one action -/

/-- Act while the system refuses to write mappings back. -/
def whileSyncRefused {ε α : Type} (action : ExceptT ε (StateM Host) α) :
    ExceptT ε (StateM Host) α := do
  modify fun host => { host with syncRefused := true }
  let outcome ← ExceptT.lift action.run
  modify fun host => { host with syncRefused := false }
  outcome

/-- Act as on a platform that cannot map files. -/
def withoutMapping {α : Type} (action : SessionM α) : SessionM α := do
  let platform := (← get).host.platform
  modify fun session => { session with
    host := { session.host with platform := .withoutMapping } }
  let outcome ← ExceptT.lift action.run
  modify fun session => { session with host := { session.host with platform := platform } }
  outcome

end Session
end BitStore
