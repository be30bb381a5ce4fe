import BitStore.Proofs.Bits.Changes

namespace BitStore

/-!
# Indices and the bits they name

An index that is located names one bit of the layout's bytes: testing, raising and
lowering it there reads and changes the bit at this index, and no other.
-/

namespace Layout

variable (layout : Layout)

theorem byteLength_lt_fileLength : layout.byteLength < layout.fileLength :=
  Nat.lt_succ_self _

theorem byteLength_pos : 0 < layout.byteLength :=
  Nat.succ_pos _

theorem zeros_ne_nil : Bytes.zeros layout.byteLength ≠ [] := by
  apply List.ne_nil_of_length_pos
  rw [Bytes.length_zeros]
  exact layout.byteLength_pos

/-- A capacity that is laid out is kept. -/
theorem capacity_of_ofCapacity {capacity : Nat} {made : Layout}
    (laid : ofCapacity capacity = .ok made) : made.capacity = capacity := by
  rw [ofCapacity] at laid
  split at laid <;> cases laid
  rfl

/-- An index is located in one of the layout's bytes. -/
theorem locate_of_le {index : Nat} (inside : index ≤ layout.capacity) :
    layout.locate index = .ok { byte := index / 8, mask := Byte.single (index % 8) } := by
  simp only [locate, Fault.requireIndex, if_pos inside]
  rfl

theorem locate_of_gt {index : Nat} (outside : layout.capacity < index) :
    layout.locate index = .error (.indexOutOfRange index layout.capacity) := by
  simp only [locate, Fault.requireIndex, if_neg (Nat.not_le_of_lt outside)]
  rfl

/-- What is located lies in the layout's bytes. -/
theorem le_of_locate {index : Nat} {address : BitAddress}
    (located : layout.locate index = .ok address) :
    index ≤ layout.capacity ∧
      address = { byte := index / 8, mask := Byte.single (index % 8) } := by
  cases Nat.lt_or_ge layout.capacity index with
  | inl outside =>
      rw [layout.locate_of_gt outside] at located
      contradiction
  | inr inside =>
      rw [layout.locate_of_le inside] at located
      exact ⟨inside, (Except.ok.inj located).symm⟩

theorem byte_lt_byteLength {index : Nat} {address : BitAddress}
    (located : layout.locate index = .ok address) : address.byte < layout.byteLength := by
  rcases layout.le_of_locate located with ⟨inside, rfl⟩
  exact Nat.lt_succ_of_le (Nat.div_le_div_right inside)

/-- An operand fits exactly if it has as many bytes. -/
theorem requireOperand_eq_ok_iff (length : Nat) :
    layout.requireOperand length = .ok () ↔ length = layout.byteLength := by
  simp only [requireOperand]
  split
  next same => exact iff_of_true rfl same
  next different => exact iff_of_false nofun different

/-! ## The bit at an index -/

variable {layout} {index : Nat} {address : BitAddress}

theorem test_of_locate (located : layout.locate index = .ok address) (bytes : Bytes) :
    address.test (bytes[address.byte]?.getD 0) = bytes.bit index := by
  rcases layout.le_of_locate located with ⟨inside, rfl⟩
  rw [BitAddress.test, Byte.and_single_ne_zero _ (Nat.mod_lt _ (by decide)), Bytes.bit_eq_getD]

theorem bit_raise (located : layout.locate index = .ok address) {bytes : Bytes}
    (size : bytes.length = layout.byteLength) (position : Nat) :
    Bytes.bit (bytes.modify address.byte address.raise) position =
      if position = index then true else bytes.bit position := by
  have inside := layout.byte_lt_byteLength located
  rw [Bytes.bit_modify _ _ _ (size ▸ inside)]
  rcases layout.le_of_locate located with ⟨_, rfl⟩
  rw [BitAddress.raise, Byte.bit_or, Byte.bit_single _ _ (Nat.mod_lt _ (by decide))]
  by_cases sameByte : position / 8 = index / 8
  · rw [if_pos sameByte, ← sameByte, ← Bytes.bit_eq_getD]
    by_cases same : position = index
    · rw [if_pos same, same, decide_eq_true rfl, Bool.or_true]
    · rw [if_neg same, decide_eq_false (by omega), Bool.or_false]
  · rw [if_neg sameByte, if_neg fun same => sameByte (congrArg (· / 8) same)]

theorem bit_lower (located : layout.locate index = .ok address) {bytes : Bytes}
    (size : bytes.length = layout.byteLength) (position : Nat) :
    Bytes.bit (bytes.modify address.byte address.lower) position =
      if position = index then false else bytes.bit position := by
  have inside := layout.byte_lt_byteLength located
  rw [Bytes.bit_modify _ _ _ (size ▸ inside)]
  rcases layout.le_of_locate located with ⟨_, rfl⟩
  rw [BitAddress.lower, Byte.bit_and, Byte.bit_complement _ _ (Nat.mod_lt _ (by decide)),
    Byte.bit_single _ _ (Nat.mod_lt _ (by decide))]
  by_cases sameByte : position / 8 = index / 8
  · rw [if_pos sameByte, ← sameByte, ← Bytes.bit_eq_getD]
    by_cases same : position = index
    · rw [if_pos same, same, decide_eq_true rfl, Bool.not_true, Bool.and_false]
    · rw [if_neg same, decide_eq_false (by omega), Bool.not_false, Bool.and_true]
  · rw [if_neg sameByte, if_neg fun same => sameByte (congrArg (· / 8) same)]

end Layout
end BitStore
