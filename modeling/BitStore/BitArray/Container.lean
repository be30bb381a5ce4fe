import BitStore.Bits.Count
import BitStore.Bits.Search
import BitStore.Storage.Host

namespace BitStore

/-!
# What every bit array offers

A type of bit arrays has to say its capacity and its length in bytes, to read
and set single bits, and to give a snapshot of its bytes.  Everything else in
this module is derived from these five, for any type that has them: nothing is
assumed about how the capacity and the snapshot fit together.
-/

/-- The operations that a type of bit arrays has to supply.  The capacity is the greatest index,
and a snapshot has `byteLength` bytes.  Setting a bit answers what the array likes, `true` as a
rule. -/
class BitContainer (α : Type) where
  capacity : α -> Nat
  byteLength : α -> Nat
  getBit : α -> Nat -> ArrayM Bool
  setBit : α -> Nat -> ArrayM (Bool × α)
  snapshot : α -> ArrayM Bytes

namespace BitContainer

variable {α : Type} [BitContainer α]

def bitSize (container : α) : Nat :=
  byteLength container

/-- Set a bit that is not set, and say whether that was so. -/
def setBitIfUnset (container : α) (index : Nat) : ArrayM (Bool × α) := do
  if ← getBit container index then return (false, container)
  setBit container index

def highest? (container : α) : ArrayM (Option Nat) := do
  return Bytes.highest? (← snapshot container)

def lowest? (container : α) : ArrayM (Option Nat) := do
  return Bytes.lowest? (← snapshot container)

/-- The least set position that is at least `first` and below the capacity. -/
def next? (container : α) (first : Nat) : ArrayM (Option Nat) := do
  if capacity container ≤ first then return none
  return Bytes.next? (← snapshot container) first (capacity container - 1)

def count (container : α) : ArrayM Nat := do
  return Bytes.count (← snapshot container)

/-- All set positions below the capacity, of one snapshot. -/
def positions (container : α) : ArrayM (List Nat) := do
  if capacity container = 0 then return []
  return Bytes.positions (← snapshot container) 0 (capacity container - 1)

/-- Nothing is held back, so there is nothing to write. -/
def flush (_container : α) : ArrayM Unit :=
  return

end BitContainer
end BitStore
