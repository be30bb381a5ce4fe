import BitStore.Layout
import BitStore.Merge

namespace BitStore

/-!
# Changes of bytes, bit by bit

Bytes are changed in three ways: one byte is masked, all are replaced by zeros,
or each is combined with a byte of an operand.  Each of these is a change of the
bits at their positions, and of no other bit.
-/

namespace Byte

/-- A byte is known by its bits. -/
theorem eq_of_bit {left right : UInt8}
    (same : forall j, j < 8 -> bit left j = bit right j) : left = right := by
  apply UInt8.toNat_inj.mp
  apply Nat.eq_of_testBit_eq
  intro j
  by_cases inside : j < 8
  · exact same j inside
  · have outside := Nat.le_of_not_lt inside
    exact (bit_eq_false_of_le left j outside).trans (bit_eq_false_of_le right j outside).symm

/-- A mask of one position lets through exactly that bit. -/
theorem and_single_ne_zero (byte : UInt8) {position : Nat} (inside : position < 8) :
    (byte &&& single position != 0) = bit byte position := by
  cases set : bit byte position with
  | true =>
      rw [bne_iff_ne]
      intro zero
      have kept := bit_and byte (single position) position
      rw [zero, bit_zero, set, bit_single position position inside, decide_eq_true rfl] at kept
      contradiction
  | false =>
      rw [bne_eq_false_iff_eq]
      apply eq_of_bit
      intro j _
      rw [bit_and, bit_single position j inside, bit_zero]
      by_cases same : position = j
      · rw [← same, set, Bool.false_and]
      · rw [decide_eq_false same, Bool.and_false]

end Byte

namespace Bytes

/-- Bytes are known by their number and by what they are where they are. -/
theorem ext_getD {first second : Bytes} (length : first.length = second.length)
    (same : forall place : Nat, first[place]?.getD 0 = second[place]?.getD 0) :
    first = second := by
  apply List.ext_getElem length
  intro place inFirst inSecond
  have equal := same place
  rwa [List.getElem?_eq_getElem inFirst, List.getElem?_eq_getElem inSecond] at equal

variable (bytes : Bytes)

/-- A bit by its byte; where there is no byte, it is not set. -/
theorem bit_eq_getD (position : Nat) :
    bytes.bit position = Byte.bit (bytes[position / 8]?.getD 0) (position % 8) := by
  unfold bit
  cases bytes[position / 8]? with
  | some byte => rfl
  | none => rw [Option.getD_none, Byte.bit_zero]

theorem bit_eq_false_of_le {position : Nat} (outside : bytes.width ≤ position) :
    bytes.bit position = false := by
  have past : bytes.length ≤ position / 8 := by
    rw [width] at outside
    omega
  rw [bit, List.getElem?_eq_none past]

@[simp] theorem getElem?_zeros {count place : Nat} :
    (zeros count)[place]?.getD 0 = 0 := by
  simp only [zeros, List.getElem?_replicate]
  split <;> rfl

@[simp] theorem bit_zeros (count position : Nat) : (zeros count).bit position = false := by
  rw [bit_eq_getD, getElem?_zeros, Byte.bit_zero]

/-- A change of one byte shows in the bits of that byte alone. -/
theorem bit_modify (index : Nat) (change : UInt8 -> UInt8) (inside : index < bytes.length)
    (position : Nat) :
    Bytes.bit (bytes.modify index change) position =
      if position / 8 = index then Byte.bit (change (bytes[index]?.getD 0)) (position % 8)
      else bytes.bit position := by
  rw [bit_eq_getD, bit_eq_getD]
  by_cases same : position / 8 = index
  · rw [if_pos same, same, List.getElem?_modify_eq, List.getElem?_eq_getElem inside]
    rfl
  · rw [if_neg same, List.getElem?_modify_ne _ _ (Ne.symm same)]

end Bytes

namespace Merge

/-- Where both have a byte, the merge has the combination of the two. -/
theorem getElem?_apply (merge : Merge) {receiver operand : Bytes}
    (fits : operand.length ≤ receiver.length) (place : Nat) :
    (merge.apply receiver operand)[place]?.getD 0 =
      if place < operand.length
      then merge.combine (receiver[place]?.getD 0) (operand[place]?.getD 0)
      else receiver[place]?.getD 0 := by
  simp only [apply, List.getElem?_append, List.length_zipWith, Nat.min_eq_right fits]
  split
  next inside =>
    have reached : place < receiver.length := Nat.lt_of_lt_of_le inside fits
    simp only [List.getElem?_zipWith, List.getElem?_eq_getElem inside,
      List.getElem?_eq_getElem reached, Option.getD_some]
  next outside =>
    rw [List.getElem?_drop, Nat.add_sub_cancel' (Nat.le_of_not_lt outside)]

/-- How two bits are combined. -/
def join : Merge -> Bool -> Bool -> Bool
  | .and, left, right => left && right
  | .or, left, right => left || right

theorem bit_combine (merge : Merge) (left right : UInt8) (j : Nat) :
    Byte.bit (merge.combine left right) j = merge.join (Byte.bit left j) (Byte.bit right j) := by
  cases merge with
  | and => exact Byte.bit_and left right j
  | or => exact Byte.bit_or left right j

@[simp] theorem join_false (merge : Merge) : merge.join false false = false := by
  cases merge <;> rfl

/-- Sequences of one length are merged bit by bit. -/
theorem bit_apply (merge : Merge) {receiver operand : Bytes}
    (fits : operand.length = receiver.length) (position : Nat) :
    (merge.apply receiver operand).bit position =
      merge.join (receiver.bit position) (operand.bit position) := by
  rw [Bytes.bit_eq_getD, getElem?_apply merge (Nat.le_of_eq fits)]
  split
  next inside => rw [bit_combine, ← Bytes.bit_eq_getD, ← Bytes.bit_eq_getD]
  next outside =>
    have past : operand.length ≤ position / 8 := Nat.le_of_not_lt outside
    rw [← Bytes.bit_eq_getD, Bytes.bit_eq_false_of_le operand (by rw [Bytes.width]; omega),
      Bytes.bit_eq_false_of_le receiver (by rw [Bytes.width, ← fits]; omega), join_false]

end Merge
end BitStore
