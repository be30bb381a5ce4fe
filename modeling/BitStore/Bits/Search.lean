import BitStore.Bits.Sequence

namespace BitStore
namespace Bytes

/-!
# Searching a byte sequence for set bits

The searches look at whole bytes and only then at the bits of one byte.  A
search in a window masks its first and its last byte, so that no position
outside the window is ever reported.  `positions` lists in one pass what
repeated searches, each started behind the find before it, come to one by one.
-/

/-- The first byte of the list with a set bit gives the position; `index` is
the place of the first byte in the whole sequence. -/
def lowestFrom? (index : Nat) : Bytes -> Option Nat
  | [] => none
  | byte :: rest =>
      match Byte.lowest? byte with
      | some j => some (8 * index + j)
      | none => lowestFrom? (index + 1) rest

/-- The set bit of least position. -/
def lowest? (bytes : Bytes) : Option Nat :=
  lowestFrom? 0 bytes

/-- The last byte with a set bit gives the position; the bytes are listed from
the last one to the first, so those that remain are those in front. -/
def highestOfReversed? : Bytes -> Option Nat
  | [] => none
  | byte :: before =>
      match Byte.highest? byte with
      | some j => some (8 * before.length + j)
      | none => highestOfReversed? before

/-- The set bit of greatest position. -/
def highest? (bytes : Bytes) : Option Nat :=
  highestOfReversed? bytes.reverse

/-- Keep of the byte at `index` the positions from `first` on. -/
def clipBelow (first index : Nat) (byte : UInt8) : UInt8 :=
  if index = first / 8 then byte &&& Byte.upperMask (first % 8) else byte

/-- Keep of the byte at `index` the positions up to `last`. -/
def clipAbove (last index : Nat) (byte : UInt8) : UInt8 :=
  if index = last / 8 then byte &&& Byte.lowerMask (last % 8) else byte

/-- The least set position of the clipped bytes, up to the byte that holds `last`. -/
def clippedFrom? (first last index : Nat) : Bytes -> Option Nat
  | [] => none
  | byte :: rest =>
      if last / 8 < index then none
      else match Byte.lowest? (clipAbove last index (clipBelow first index byte)) with
        | some j => some (8 * index + j)
        | none => clippedFrom? first last (index + 1) rest

/-- The least set position that is at least `first` and at most `last`. -/
def next? (bytes : Bytes) (first last : Nat) : Option Nat :=
  if last < first then none
  else clippedFrom? first last (first / 8) (bytes.drop (first / 8))

/-- The set positions from `first` to `last`, in ascending order: those of each
clipped byte, byte after byte. -/
def positions (bytes : Bytes) (first last : Nat) : List Nat :=
  if last < first then []
  else ((bytes.take (last / 8 + 1)).zipIdx.drop (first / 8)).flatMap
    fun (byte, index) =>
      (Byte.positions (clipAbove last index (clipBelow first index byte))).map
        fun j => 8 * index + j

/-! ## The window bounds every find -/

theorem bit_clipBelow {first index : Nat} (byte : UInt8) {j : Nat} (inside : j < 8)
    (reached : first / 8 ≤ index) :
    Byte.bit (clipBelow first index byte) j =
      (Byte.bit byte j && decide (first ≤ 8 * index + j)) := by
  simp only [clipBelow]
  split
  next same =>
    rw [Byte.bit_and, Byte.bit_upperMask _ _ inside]
    congr 1
    apply decide_eq_decide.mpr
    omega
  next different =>
    have after : first ≤ 8 * index + j := by omega
    simp [after]

theorem bit_clipAbove {last index : Nat} (byte : UInt8) {j : Nat} (inside : j < 8)
    (reached : index ≤ last / 8) :
    Byte.bit (clipAbove last index byte) j =
      (Byte.bit byte j && decide (8 * index + j ≤ last)) := by
  simp only [clipAbove]
  split
  next same =>
    rw [Byte.bit_and, Byte.bit_lowerMask _ _ inside]
    congr 1
    apply decide_eq_decide.mpr
    omega
  next different =>
    have before : 8 * index + j ≤ last := by omega
    simp [before]

theorem clippedFrom?_bounds {first last index : Nat} {bytes : Bytes} {position : Nat}
    (reached : first / 8 ≤ index)
    (found : clippedFrom? first last index bytes = some position) :
    first ≤ position ∧ position ≤ last := by
  induction bytes generalizing index with
  | nil => simp [clippedFrom?] at found
  | cons byte rest ih =>
      simp only [clippedFrom?] at found
      split at found
      next => contradiction
      next before =>
        split at found
        next j inByte =>
          have inside := Byte.lt_of_lowest? inByte
          have set := Byte.bit_of_lowest? inByte
          rw [bit_clipAbove _ inside (by omega), bit_clipBelow _ inside reached] at set
          simp only [Bool.and_eq_true, decide_eq_true_eq] at set
          injection found with same
          exact same ▸ ⟨set.1.2, set.2⟩
        next => exact ih (by omega) found

theorem next?_bounds {bytes : Bytes} {first last position : Nat}
    (found : next? bytes first last = some position) :
    first ≤ position ∧ position ≤ last := by
  simp only [next?] at found
  split at found
  · contradiction
  · exact clippedFrom?_bounds (Nat.le_refl _) found

/-! ## Positions as signed numbers -/

/-- What stands for "no position" among signed numbers. -/
def notFound : Int := -1

/-- A position as a 64-bit two's complement number, `notFound` for none. -/
def signedPosition : Option Nat -> Int
  | none => notFound
  | some position => (position : Int).bmod (1 <<< 64)

end Bytes
end BitStore
