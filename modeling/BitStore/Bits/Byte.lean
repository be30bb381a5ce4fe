namespace BitStore
namespace Byte

/-!
# The bits of one byte

A byte is read as eight bits, numbered from the least significant one.  Every
other module sees a byte only through `bit`; the scans and the weight below
are searches and counts over the eight positions.
-/

/-- Bit `j` of a byte; positions from eight on hold nothing. -/
def bit (byte : UInt8) (j : Nat) : Bool :=
  byte.toNat.testBit j

/-- The byte whose only set bit is bit `j`, for `j` below eight. -/
def single (j : Nat) : UInt8 :=
  UInt8.ofNat (1 <<< j)

/-- The set bit of least position. -/
def lowest? (byte : UInt8) : Option Nat :=
  (List.range 8).find? (bit byte)

/-- The set bit of greatest position. -/
def highest? (byte : UInt8) : Option Nat :=
  (List.range 8).reverse.find? (bit byte)

/-- The number of set bits. -/
def weight (byte : UInt8) : Nat :=
  (List.range 8).countP (bit byte)

/-- The set positions, in ascending order. -/
def positions (byte : UInt8) : List Nat :=
  (List.range 8).filter (bit byte)

/-- Eight ones moved up by `count`: the positions from `count` on. -/
def upperMask (count : Nat) : UInt8 :=
  UInt8.ofNat (255 <<< count)

/-- Eight ones moved down so that the positions up to `top` remain. -/
def lowerMask (top : Nat) : UInt8 :=
  UInt8.ofNat (1 <<< (top + 1) - 1)

/-! ## Bits of the byte operations -/

theorem bit_eq_false_of_le (byte : UInt8) (j : Nat) (outside : 8 ≤ j) :
    bit byte j = false := by
  apply Nat.testBit_lt_two_pow
  calc byte.toNat < 2 ^ 8 := byte.toNat_lt
    _ ≤ 2 ^ j := Nat.pow_le_pow_right (by decide) outside

@[simp] theorem bit_zero (j : Nat) : bit 0 j = false := by
  simp [bit]

@[simp] theorem bit_or (left right : UInt8) (j : Nat) :
    bit (left ||| right) j = (bit left j || bit right j) := by
  simp [bit]

@[simp] theorem bit_and (left right : UInt8) (j : Nat) :
    bit (left &&& right) j = (bit left j && bit right j) := by
  simp [bit]

theorem bit_single (position j : Nat) (inside : position < 8) :
    bit (single position) j = decide (position = j) := by
  have small : 2 ^ position < 256 :=
    Nat.pow_lt_pow_right (by decide) inside
  simp [bit, single, Nat.one_shiftLeft, Nat.mod_eq_of_lt small, Nat.testBit_two_pow]

theorem bit_complement (byte : UInt8) (j : Nat) (inside : j < 8) :
    bit (~~~byte) j = !bit byte j := by
  have complement : (~~~byte).toNat = 2 ^ 8 - (byte.toNat + 1) := by
    simp [UInt8.toNat_not]
  simp only [bit, complement]
  rw [Nat.testBit_two_pow_sub_succ byte.toNat_lt]
  simp [inside]

theorem bit_upperMask (count j : Nat) (inside : j < 8) :
    bit (upperMask count) j = decide (count ≤ j) := by
  have ones : (255 * 2 ^ count).testBit j =
      (decide (count ≤ j) && (255 : Nat).testBit (j - count)) :=
    Nat.testBit_mul_two_pow 255 j count
  have filled : (255 : Nat).testBit (j - count) = true := by
    have := Nat.testBit_two_pow_sub_one 8 (j - count)
    simp only [show (2 : Nat) ^ 8 - 1 = 255 from rfl] at this
    rw [this]
    exact decide_eq_true (by omega)
  simp only [bit, upperMask, UInt8.toNat_ofNat', Nat.shiftLeft_eq]
  rw [Nat.testBit_mod_two_pow, ones, filled]
  simp [inside]

theorem bit_lowerMask (top j : Nat) (inside : j < 8) :
    bit (lowerMask top) j = decide (j ≤ top) := by
  simp only [bit, lowerMask, UInt8.toNat_ofNat', Nat.one_shiftLeft]
  rw [Nat.testBit_mod_two_pow, Nat.testBit_two_pow_sub_one]
  simp only [inside, decide_true, Bool.true_and]
  exact decide_eq_decide.mpr Nat.lt_succ_iff

/-! ## What the scans find -/

theorem bit_of_lowest? {byte : UInt8} {j : Nat} (found : lowest? byte = some j) :
    bit byte j = true :=
  List.find?_some found

theorem lt_of_lowest? {byte : UInt8} {j : Nat} (found : lowest? byte = some j) :
    j < 8 :=
  List.mem_range.mp (List.mem_of_find?_eq_some found)

end Byte
end BitStore
