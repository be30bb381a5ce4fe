import BitStore.Bits.Sequence

namespace BitStore

/-!
# Merging one bit array into another

A merge combines two byte sequences of one length byte by byte.  The receiver
keeps its length whatever the operand is.
-/

/-- How two bits are combined. -/
inductive Merge where
  | and
  | or
  deriving DecidableEq, Repr

namespace Merge

/-- The name of a merge in records. -/
def label : Merge -> String
  | .and => "And"
  | .or => "Or"

/-- Combine two bytes bit by bit. -/
def combine : Merge -> UInt8 -> UInt8 -> UInt8
  | .and, left, right => left &&& right
  | .or, left, right => left ||| right

/-- Combine the operand into the receiver; bytes without a partner stay. -/
def apply (merge : Merge) (receiver operand : Bytes) : Bytes :=
  List.zipWith merge.combine receiver operand ++ receiver.drop operand.length

@[simp] theorem length_apply (merge : Merge) (receiver operand : Bytes) :
    (merge.apply receiver operand).length = receiver.length := by
  simp only [apply, List.length_append, List.length_zipWith, List.length_drop]
  omega

end Merge
end BitStore
