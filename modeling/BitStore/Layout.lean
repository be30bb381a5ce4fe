import BitStore.Bits.Sequence
import BitStore.Fault.Basic

namespace BitStore

/-!
# The layout of a bit array in bytes

A bit array of capacity `c` accepts the indices from `0` to `c`, both
included, and keeps bit `i` as bit `i % 8` of byte `i / 8`.  It occupies
`c / 8 + 1` bytes, and a file that stores it is longer by at least one byte.
Searches for the next set bit stop in front of the index `c`.
-/

/-- How a bit array of a positive capacity is laid out. -/
structure Layout where
  capacity : Nat
  capacity_pos : 0 < capacity
  deriving DecidableEq, Repr

/-- Where a bit lives: its byte, and the mask that selects it there. -/
structure BitAddress where
  byte : Nat
  mask : UInt8
  deriving DecidableEq, Repr

namespace Layout

/-- The layout for a capacity, which must be positive. -/
def ofCapacity (capacity : Nat) : Except Fault Layout :=
  if positive : 0 < capacity then .ok ⟨capacity, positive⟩
  else .error (.invalidArgument "capacity" "capacity > 0")

/-- The number of bytes that hold the bits. -/
def byteLength (layout : Layout) : Nat :=
  layout.capacity / 8 + 1

/-- The least length of a file that stores the array. -/
def fileLength (layout : Layout) : Nat :=
  layout.byteLength + 1

/-- The greatest position that a search for the next set bit may report. -/
def lastSearchable (layout : Layout) : Nat :=
  layout.capacity - 1

/-- Where the bit of an index lives. -/
def locate (layout : Layout) (index : Nat) : Except Fault BitAddress := do
  Fault.requireIndex index layout.capacity
  return { byte := index / 8, mask := Byte.single (index % 8) }

/-- Check that an array of `length` bytes can be merged into this one. -/
def requireOperand (layout : Layout) (length : Nat) : Except Fault Unit :=
  if length = layout.byteLength then .ok ()
  else .error (.invalidArgument "other"
    s!"bit array to combine with must be of equal length ({length} != {layout.byteLength})")

end Layout

namespace BitAddress

/-- Whether the bit is set in the byte that holds it. -/
def test (address : BitAddress) (byte : UInt8) : Bool :=
  byte &&& address.mask != 0

/-- The byte with the bit set. -/
def raise (address : BitAddress) (byte : UInt8) : UInt8 :=
  byte ||| address.mask

/-- The byte with the bit cleared. -/
def lower (address : BitAddress) (byte : UInt8) : UInt8 :=
  byte &&& ~~~address.mask

end BitAddress
end BitStore
