import BitStore.Proofs.Bits.Addresses

namespace BitStore

/-!
# Computing in words

Numbers are unbounded here, and a list may be asked for a place that it does not have.  On a
machine a number is a word of 64 bits: a sum or a product that leaves its word, a difference
below zero, a shift by as many bits as a word has, a place or a range outside of the bytes,
each stops the computation.  `Checked` computations can be stopped in these ways.

A computation is written down once more in this form, each intermediate number with the check
that belongs to it, and is then shown not to be stopped and to come to what it comes to
without the checks.  Here this is done for layouts, whose capacity has to be a word.
-/

/-- Why a computation is stopped. -/
inductive Trap where
  -- A number does not fit in its word, or bits are shifted out of reach.
  | overflow
  -- A place or a range lies outside of the bytes.
  | outOfBounds
  -- What was asserted does not hold.
  | assertion
  deriving DecidableEq, Repr

/-- A computation that can be stopped. -/
abbrev Checked := Except Trap

namespace Checked

/-! ## Steps of a computation -/

def add (left right : Nat) : Checked Nat :=
  if left + right < 1 <<< 64 then .ok (left + right) else .error .overflow

def sub (left right : Nat) : Checked Nat :=
  if right ≤ left then .ok (left - right) else .error .overflow

def mul (left right : Nat) : Checked Nat :=
  if left * right < 1 <<< 64 then .ok (left * right) else .error .overflow

/-- A word moved down. -/
def shiftDown (word amount : Nat) : Checked Nat :=
  if amount < 64 then .ok (word >>> amount) else .error .overflow

/-- A byte moved up; bits that leave it are lost. -/
def raiseByte (byte : UInt8) (amount : Nat) : Checked UInt8 :=
  if amount < 8 then .ok (UInt8.ofNat (byte.toNat <<< amount)) else .error .overflow

/-- A byte moved down. -/
def lowerByte (byte : UInt8) (amount : Nat) : Checked UInt8 :=
  if amount < 8 then .ok (UInt8.ofNat (byte.toNat >>> amount)) else .error .overflow

/-- The byte at a place. -/
def byteAt (bytes : Bytes) (place : Nat) : Checked UInt8 :=
  match bytes[place]? with
  | some byte => .ok byte
  | none => .error .outOfBounds

/-- The bytes from `first` up to, but not including, `stop`. -/
def slice (bytes : Bytes) (first stop : Nat) : Checked Bytes :=
  if first ≤ stop ∧ stop ≤ bytes.length then .ok ((bytes.take stop).drop first)
  else .error .outOfBounds

/-- A condition that has to hold. -/
def verify (holds : Bool) : Checked Unit :=
  if holds then .ok () else .error .assertion

/-- What is not stopped hands its value on. -/
theorem ok_bind {α β : Type} (value : α) (next : α -> Checked β) :
    (Except.ok value >>= next) = next value := rfl

theorem run_bind_of_ok {α β ε : Type} {action : Checked α} {value : α}
    (ended : action = .ok value) (next : α -> ExceptT ε Checked β) :
    ((liftM action : ExceptT ε Checked α) >>= next).run = (next value).run := by
  subst ended
  rfl

theorem add_of_lt {left right : Nat} (small : left + right < 1 <<< 64) :
    add left right = .ok (left + right) :=
  if_pos small

theorem sub_of_le {left right : Nat} (ordered : right ≤ left) :
    sub left right = .ok (left - right) :=
  if_pos ordered

theorem mul_of_lt {left right : Nat} (small : left * right < 1 <<< 64) :
    mul left right = .ok (left * right) :=
  if_pos small

/-- Moved down by three, a position becomes the place of its byte. -/
theorem shiftDown_three (word : Nat) : shiftDown word 3 = .ok (word / 8) := by
  rw [shiftDown, if_pos (by decide), Nat.shiftRight_eq_div_pow]

theorem byteAt_of_lt {bytes : Bytes} {place : Nat} (inside : place < bytes.length) :
    byteAt bytes place = .ok (bytes[place]?.getD 0) := by
  rw [byteAt, List.getElem?_eq_getElem inside]
  rfl

theorem slice_of_le {bytes : Bytes} {first stop : Nat} (ordered : first ≤ stop)
    (inside : stop ≤ bytes.length) : slice bytes first stop = .ok ((bytes.take stop).drop first) :=
  if_pos ⟨ordered, inside⟩

/-- The last three bits of a position are its place in the byte. -/
theorem and_seven (position : Nat) : position &&& 7 = position % 8 :=
  Nat.and_two_pow_sub_one_eq_mod position 3

theorem raiseByte_one (position : Nat) :
    raiseByte 1 (position &&& 7) = .ok (Byte.single (position % 8)) := by
  rw [and_seven, raiseByte, if_pos (Nat.mod_lt _ (by decide))]
  rfl

/-- Ones from a position on. -/
theorem raiseByte_ones (position : Nat) :
    raiseByte 255 (position &&& 7) = .ok (Byte.upperMask (position % 8)) := by
  rw [and_seven, raiseByte, if_pos (Nat.mod_lt _ (by decide))]
  rfl

theorem sub_seven (position : Nat) : sub 7 (position &&& 7) = .ok (7 - position % 8) := by
  rw [and_seven, sub_of_le (Nat.le_of_lt_succ (Nat.mod_lt _ (by decide)))]

/-- Ones up to a position. -/
theorem lowerByte_ones (position : Nat) :
    lowerByte 255 (7 - position % 8) = .ok (Byte.lowerMask (position % 8)) := by
  have masks : forall top, top < 8 ->
      UInt8.ofNat (255 >>> (7 - top)) = Byte.lowerMask top := by decide
  have inside : position % 8 < 8 := Nat.mod_lt _ (by decide)
  rw [lowerByte, if_pos (Nat.lt_succ_of_le (Nat.sub_le ..)), ← masks _ inside]
  rfl

end Checked

/-! ## Layouts -/

/-- The two numbers of a layout as they are kept; nothing is known of how they fit. -/
structure RawLayout where
  capacity : Nat
  byteLength : Nat
  deriving DecidableEq, Repr

/-- The numbers of a layout. -/
def Layout.raw (layout : Layout) : RawLayout where
  capacity := layout.capacity
  byteLength := layout.byteLength

namespace RawLayout

variable (layout : RawLayout)

/-- The layout for a capacity, which must be positive. -/
def ofCapacity (capacity : Nat) : ExceptT Fault Checked RawLayout := do
  if capacity = 0 then throw (.invalidArgument "capacity" "capacity > 0")
  return { capacity := capacity, byteLength := ← Checked.add (← Checked.shiftDown capacity 3) 1 }

/-- The least length of a file. -/
def fileLength : Checked Nat :=
  Checked.add layout.byteLength 1

/-- The greatest position that a search for the next set bit may report. -/
def lastSearchable : Checked Nat :=
  Checked.sub layout.capacity 1

/-- Where the bit of an index lives. -/
def locate (index : Nat) : ExceptT Fault Checked BitAddress := do
  Fault.requireIndex index layout.capacity
  return { byte := ← Checked.shiftDown index 3, mask := ← Checked.raiseByte 1 (index &&& 7) }

/-- The bit of an index, among the bytes. -/
def test (bytes : Bytes) (index : Nat) : ExceptT Fault Checked Bool := do
  let address ← layout.locate index
  return address.test (← Checked.byteAt bytes address.byte)

/-- The place of the byte with the bit of an index, and what a change makes of this byte. -/
def change (change : BitAddress -> UInt8 -> UInt8) (bytes : Bytes) (index : Nat) :
    ExceptT Fault Checked (Nat × UInt8) := do
  let address ← layout.locate index
  return (address.byte, change address (← Checked.byteAt bytes address.byte))

end RawLayout

namespace Layout

variable {layout : Layout}

/-- The number of bytes is a word, whatever word the capacity is. -/
theorem run_raw_ofCapacity {capacity : Nat} (word : capacity < 1 <<< 64) :
    (RawLayout.ofCapacity capacity).run = .ok ((ofCapacity capacity).map raw) := by
  have length : Checked.add (capacity / 8) 1 = .ok (capacity / 8 + 1) :=
    Checked.add_of_lt (by omega)
  simp only [RawLayout.ofCapacity, Checked.shiftDown_three, ofCapacity]
  rcases Nat.eq_zero_or_pos capacity with none | positive
  · rw [if_pos none, dif_neg (Nat.not_lt_of_le (Nat.le_of_eq none))]
    rfl
  · rw [if_neg (Nat.ne_of_gt positive), dif_pos positive]
    exact Checked.run_bind_of_ok length _

theorem byteLength_le (word : layout.capacity < 1 <<< 64) : layout.byteLength ≤ 1 <<< 61 := by
  rw [byteLength]
  omega

theorem raw_fileLength (word : layout.capacity < 1 <<< 64) :
    layout.raw.fileLength = .ok layout.fileLength := by
  have small := byteLength_le word
  exact Checked.add_of_lt (Nat.lt_of_le_of_lt (Nat.succ_le_succ small) (by decide))

theorem raw_lastSearchable (layout : Layout) :
    layout.raw.lastSearchable = .ok layout.lastSearchable :=
  Checked.sub_of_le layout.capacity_pos

theorem run_raw_locate (layout : Layout) (index : Nat) :
    (layout.raw.locate index).run = .ok (layout.locate index) := by
  simp only [RawLayout.locate, Checked.shiftDown_three, Checked.raiseByte_one, raw]
  rcases Nat.lt_or_ge layout.capacity index with outside | inside
  · rw [layout.locate_of_gt outside, Fault.requireIndex, if_neg (Nat.not_le_of_lt outside)]
    rfl
  · rw [layout.locate_of_le inside, Fault.requireIndex, if_pos inside]
    rfl

/-- What is done with the byte of an index, for bytes that are as many as the layout needs. -/
theorem run_raw_located {α : Type} (use : BitAddress -> UInt8 -> α) {bytes : Bytes}
    (size : bytes.length = layout.byteLength) (index : Nat) :
    (do
      let address ← layout.raw.locate index
      return use address (← Checked.byteAt bytes address.byte) : ExceptT Fault Checked α).run =
      .ok ((layout.locate index).map fun address =>
        use address (bytes[address.byte]?.getD 0)) := by
  rw [ExceptT.run_bind, run_raw_locate]
  cases located : layout.locate index with
  | error fault => rfl
  | ok address =>
      have inside := layout.byte_lt_byteLength located
      exact Checked.run_bind_of_ok (Checked.byteAt_of_lt (size ▸ inside)) _

theorem run_raw_test {bytes : Bytes} (size : bytes.length = layout.byteLength) (index : Nat) :
    (layout.raw.test bytes index).run =
      .ok ((layout.locate index).map fun address =>
        address.test (bytes[address.byte]?.getD 0)) :=
  run_raw_located BitAddress.test size index

theorem run_raw_change (change : BitAddress -> UInt8 -> UInt8) {bytes : Bytes}
    (size : bytes.length = layout.byteLength) (index : Nat) :
    (layout.raw.change change bytes index).run =
      .ok ((layout.locate index).map fun address =>
        (address.byte, change address (bytes[address.byte]?.getD 0))) :=
  run_raw_located (fun address byte => (address.byte, change address byte)) size index

end Layout

end BitStore
