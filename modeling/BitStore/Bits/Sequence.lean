import BitStore.Bits.Byte

namespace BitStore

/-!
# Byte sequences as bit sequences

Position `8 * k + j` of a byte sequence is bit `j` of its byte `k`.  The view
`Bytes.bit` is total: a position past the end is not set.  `setPositions` is
the plain listing of the set positions, by which the searches and the counts
of the neighbouring modules can be measured.
-/

/-- A finite sequence of bytes. -/
abbrev Bytes := List UInt8

namespace Bytes

/-- The bit at a position; positions past the end are not set. -/
def bit (bytes : Bytes) (position : Nat) : Bool :=
  match bytes[position / 8]? with
  | some byte => Byte.bit byte (position % 8)
  | none => false

/-- The number of positions that a byte sequence holds. -/
def width (bytes : Bytes) : Nat :=
  8 * bytes.length

/-- Every set position, in ascending order. -/
def setPositions (bytes : Bytes) : List Nat :=
  (List.range bytes.width).filter bytes.bit

/-- A sequence of zero bytes. -/
def zeros (count : Nat) : Bytes :=
  List.replicate count 0

/-- The bytes with one of them replaced; nothing changes past the end. -/
def update (bytes : Bytes) (index : Nat) (change : UInt8 -> UInt8) : Bytes :=
  bytes.modify index change

@[simp] theorem length_update (bytes : Bytes) (index : Nat)
    (change : UInt8 -> UInt8) :
    (bytes.update index change).length = bytes.length := by
  simp [update]

@[simp] theorem length_zeros (count : Nat) : (zeros count).length = count := by
  simp [zeros]

end Bytes
end BitStore
