import BitStore.Storage.Handle

namespace BitStore

/-!
# Mapped regions

A region is a mapping of the front part of a file that shares the file's
content: what is stored in one is read in the other.  A region that is longer
than its file shows zeros behind the end, and keeps what is stored there as the
content's margin.  Every mapping that the system grants, and every attempt to
release one, is entered in the ledger.  A region keeps its mapping until `unmap`
or `drop` gives it up; both attempt the release once.  On a platform without
file mapping no region can be had.
-/

namespace Host

/-- Have a range of addresses for a mapping.  Addresses are never zero and
never granted twice. -/
def grant (length : Nat) : HostM { mapping : Mapping // mapping.length = length } := do
  let host ← get
  if host.platform = .withoutMapping then throw .mappingUnavailable
  if length = 0 then throw .emptyMapping
  if host.limits.mappingLength ≤ length then throw .noMemory
  let mapping : Mapping :=
    { address := host.ledger.granted.length + 1, length := length }
  set { host with
    ledger := { host.ledger with granted := host.ledger.granted ++ [mapping] } }
  return ⟨mapping, rfl⟩

def sync (_mapping : Mapping) : HostM Unit := do
  let host ← get
  if host.platform = .withoutMapping then throw (.bare .unsupported)
  if host.syncRefused then throw .noMemory

def release (mapping : Mapping) : HostM Unit := do
  let host ← get
  if host.platform = .withoutMapping then throw (.bare .unsupported)
  let refused := host.ledger.seals.contains mapping.address
  let attempt : Release :=
    { address := mapping.address, length := mapping.length, refused := refused }
  set { host with
    ledger := { host.ledger with releases := host.ledger.releases ++ [attempt] } }
  if refused then throw .notPermitted

/-- From now on refuse to release a mapping. -/
def forbidRelease (mapping : Mapping) : StateM Host Unit :=
  modify fun host => { host with
    ledger := { host.ledger with seals := mapping.address :: host.ledger.seals } }

end Host

/-- The front part of a file, mapped. -/
structure Region where
  mapping : Mapping
  file : FileId
  deriving DecidableEq, Repr

namespace Region

def length (region : Region) : Nat :=
  region.mapping.length

def map (handle : Handle) (length : Nat) :
    HostM { region : Region // region.length = length } := do
  let mapping ← Host.grant length
  return ⟨{ mapping := mapping.val, file := handle.file }, mapping.property⟩

def view (region : Region) : StateM Host Bytes := do
  return (← Host.content region.file).mappedFront region.length

def load (region : Region) (position : Nat) : StateM Host UInt8 := do
  return (← Host.content region.file).mappedByte position

/-- Store bytes into the mapping, as far as it reaches. -/
def store (region : Region) (position : Nat) (bytes : Bytes) : StateM Host Unit :=
  Host.updateContent region.file fun content =>
    content.store position (bytes.take (region.length - position))

def flush (region : Region) : HostM Unit := do
  Host.sync region.mapping
  Host.updateContent region.file fun content => content.settleFront region.length

/-- Give the mapping up and say whether the system took it back. -/
def unmap (region : Region) : HostM Unit :=
  Host.release region.mapping

/-- Give the mapping up in silence. -/
def drop (region : Region) : StateM Host Unit := do
  let _ ← region.unmap.run

/-- A region as text, the address left out. -/
def describe (region : Region) : String :=
  s!"MappedRegion \x7b ptr: *, len: {region.length} \x7d"

end Region
end BitStore
